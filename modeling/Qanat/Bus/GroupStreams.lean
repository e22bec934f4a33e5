import Qanat.Bus.FanoutStream
import Qanat.Bus.QueueGroups
import Qanat.Library.Interleaving

/-
  The streams of a queue group share the messages that match.

  A message that is dispatched goes to one member or, if the
  member whose turn it is has gone, to none.  What a member
  receives is what it was dealt, in the order of dispatch.

  Main declarations:
    * `LocalRouter.Share`, `LocalRouter.Dealt`
    * `LocalRouter.group_stream_law`
-/

------------------------------------------------------------
-- Members
------------------------------------------------------------

namespace Qanat

namespace Bus

namespace LocalRouter

open Transition

variable {M : Type}
variable {trace : List (Event M)} {s : State M}
variable {pattern group subject : String}
variable {channel : ChannelId} {queue : List M}

/- When an open member is sent a message. -/
theorem Registered.member_spec
    (hReg : Registered trace s)
    (hCons : Consistent s)
    (hMember :
      Event.groupSubscribed pattern group channel ∈ trace)
    (hOpen : s.channels[channel]? = some ⟨true, queue⟩)
    (subject : String) :
    ∃ b ∈ s.router.bindings, ∃ id ∈ b.consumers,
      b.queue = some group ∧
        s.senders.lookup id = some channel ∧
        (channel ∈ recipients s subject ↔
          wildcardMatch pattern subject = true ∧
            b.picked? = some id) := by
  rcases hReg.consumer _ _ queue
      (mem_joined_group_iff.mpr ⟨pattern, hMember⟩) hOpen with
    ⟨id, hSender, b, hBinding, hLabel, hConsumer⟩
  have hQueue := Binding.label_eq_group_iff.mp hLabel
  have hPattern := hCons.table.boundTo_unique
    (hReg.bound _ _ _ hMember) hBinding hQueue
  refine ⟨b, hBinding, id, hConsumer, hQueue, hSender, ?_⟩
  rw [hCons.mem_recipients_iff hSender hOpen,
    hCons.table.mem_route_iff hBinding hConsumer,
    Binding.mem_route_iff]
  simp [hQueue, hPattern]

/- A recipient listens. -/
theorem open_of_recipient
    (hRecipient : channel ∈ recipients s subject) :
    ∃ queue, s.channels[channel]? = some ⟨true, queue⟩ := by
  rcases List.mem_filterMap.mp hRecipient with
    ⟨id, _, hLive⟩
  exact (liveChannel?_eq_some_iff.mp hLive).2

/- No two members are sent the same message. -/
theorem Registered.recipient_unique
    (hReg : Registered trace s)
    (hCons : Consistent s)
    {other : ChannelId}
    (hMember :
      Event.groupSubscribed pattern group channel ∈ trace)
    (hOther :
      Event.groupSubscribed pattern group other ∈ trace)
    (hRecipient : channel ∈ recipients s subject)
    (hRecipient' : other ∈ recipients s subject) :
    channel = other := by
  rcases open_of_recipient hRecipient with ⟨queue, hOpen⟩
  rcases open_of_recipient hRecipient' with ⟨queue', hOpen'⟩
  rcases hReg.member_spec hCons hMember hOpen subject with
    ⟨b, hBinding, id, _, hQueue, hSender, hIff⟩
  rcases hReg.member_spec hCons hOther hOpen' subject with
    ⟨b', hBinding', id', _, hQueue', hSender', hIff'⟩
  have hSame : b = b' := by
    apply List.inj_on_of_nodup_map hCons.table.labels_nodup
      hBinding hBinding'
    rw [Binding.label_eq_group_iff.mpr hQueue,
      Binding.label_eq_group_iff.mpr hQueue']
  subst hSame
  have hPicked := (hIff.mp hRecipient).2
  rw [(hIff'.mp hRecipient').2] at hPicked
  cases hPicked
  rw [hSender] at hSender'
  exact Option.some.inj hSender'

/- If all members listen, one of them is sent a message. -/
theorem Registered.exists_recipient
    (hReg : Registered trace s)
    (hCons : Consistent s)
    (hMember :
      Event.groupSubscribed pattern group channel ∈ trace)
    (hOpen :
      ∀ c, Event.groupSubscribed pattern group c ∈ trace →
        ∃ queue, s.channels[c]? = some ⟨true, queue⟩)
    (hMatch : wildcardMatch pattern subject = true) :
    ∃ c, Event.groupSubscribed pattern group c ∈ trace ∧
      c ∈ recipients s subject := by
  rcases hOpen channel hMember with ⟨queue, hQueue⟩
  rcases hReg.member_spec hCons hMember hQueue subject with
    ⟨b, hBinding, id, hConsumer, hGroup, _, _⟩
  rcases Binding.exists_picked hConsumer with
    ⟨first, hPicked⟩
  have hSubscribed :
      s.router.Subscribed first (.group group) :=
    ⟨b, hBinding, Binding.label_eq_group_iff.mpr hGroup,
      List.mem_of_getElem? hPicked⟩
  have hSome : (s.senders.lookup first).isSome = true := by
    rw [AList.lookup_isSome, hCons.senders_iff,
      SubjectRouter.mem_consumers_iff]
    exact ⟨_, hSubscribed⟩
  rcases Option.isSome_iff_exists.mp hSome with ⟨c, hSender⟩
  rcases mem_joined_group_iff.mp
      (hReg.joined _ _ _ hSender hSubscribed) with
    ⟨pattern', hJoined⟩
  -- a group has one pattern
  have hSame : pattern' = pattern :=
    (hCons.table.boundTo_unique (hReg.bound _ _ _ hJoined)
      hBinding hGroup).symm.trans
        (hCons.table.boundTo_unique
          (hReg.bound _ _ _ hMember) hBinding hGroup)
  subst hSame
  rcases hOpen c hJoined with ⟨queue', hQueue'⟩
  refine ⟨c, hJoined, ?_⟩
  rw [hCons.mem_recipients_iff hSender hQueue',
    hCons.table.mem_route_iff hBinding
      (List.mem_of_getElem? hPicked),
    Binding.mem_route_iff]
  refine ⟨?_, Or.inr ⟨by rw [hGroup]; rfl, hPicked⟩⟩
  rw [hCons.table.boundTo_unique (hReg.bound _ _ _ hMember)
    hBinding hGroup]
  exact hMatch

end LocalRouter

end Bus

end Qanat

------------------------------------------------------------
-- Shares
------------------------------------------------------------

namespace Qanat

namespace Bus

namespace LocalRouter

open Transition
open Interleaving (ofTag ofTag_append ofTag_eq_nil)

variable {M : Type}
variable {trace : List (Event M)} {s s' : State M}
variable {deals : List (ChannelId × M)}
variable {channel : ChannelId} {e : Event M}

/-
  What was received and what is queued is what was dealt; a
  stream that was dropped leaves a rest.
-/
def Share
    (deals : List (ChannelId × M)) (trace : List (Event M))
    (s : State M) (channel : ChannelId) : Prop :=
  ∃ rest,
    receivedFrom channel trace ++ rest = ofTag channel deals ∧
      ∀ queue, s.channels[channel]? = some ⟨true, queue⟩ →
        queue = rest

theorem Share.keep
    (hShare : Share deals trace s channel)
    (hChannel :
      s'.channels[channel]? = s.channels[channel]?)
    (hReceived : e.received? channel = none) :
    Share deals (trace ++ [e]) s' channel := by
  rcases hShare with ⟨rest, hSame, hQueue⟩
  refine ⟨rest, ?_, ?_⟩
  · rw [receivedFrom_append hReceived, hSame]
  · rw [hChannel]
    exact hQueue

/- A new member has been dealt nothing. -/
theorem Share.new
    (hReach : (lts M).Reachable trace s)
    (hDealt : ∀ deal ∈ deals, deal.1 < s.channels.length)
    (hNew :
      s'.channels[s.channels.length]? = some Channel.new)
    (hReceived : e.received? s.channels.length = none) :
    Share deals (trace ++ [e]) s' s.channels.length := by
  refine ⟨[], ?_, ?_⟩
  · rw [receivedFrom_append hReceived,
      receivedFrom_eq_nil hReach (Nat.le_refl _)]
    exact (ofTag_eq_nil fun deal hMem =>
      Nat.ne_of_lt (hDealt deal hMem)).symm
  · intro queue hOpen
    rw [hNew] at hOpen
    cases hOpen
    rfl

/- A subscriber takes from or drops some stream. -/
theorem Share.set
    {c : ChannelId} {old new : Channel M}
    (hShare : Share deals trace s channel)
    (hOld : s.channels[c]? = some old)
    (hOther : c ≠ channel → e.received? channel = none)
    (hSelf :
      c = channel →
        new.isOpen = true ∧
            old = ⟨true,
              (e.received? channel).toList ++ new.queue⟩ ∨
          new.isOpen = false ∧ e.received? channel = none) :
    Share deals (trace ++ [e])
      { s with channels := s.channels.set c new }
      channel := by
  by_cases hEq : c = channel
  · subst hEq
    rcases hShare with ⟨rest, hSame, hQueue⟩
    have hAt : (s.channels.set c new)[c]? = some new :=
      List.getElem?_set_self
        (List.getElem?_eq_some_iff.mp hOld).1
    unfold receivedFrom at hSame
    rcases hSelf rfl with ⟨_, rfl⟩ | ⟨hClosed, hReceived⟩
    · have hRest := hQueue _ hOld
      refine ⟨new.queue, ?_, ?_⟩
      · unfold receivedFrom
        rw [List.filterMap_append, Lists.filterMap_singleton,
          List.append_assoc, hRest, hSame]
      · intro queue hOpen
        rw [hAt] at hOpen
        cases hOpen
        rfl
    · refine ⟨rest, ?_, ?_⟩
      · rw [receivedFrom_append hReceived]
        exact hSame
      · intro queue hOpen
        rw [hAt] at hOpen
        cases hOpen
        cases hClosed
  · exact hShare.keep (List.getElem?_set_ne hEq)
      (hOther hEq)

/- A dispatch that succeeds, to a member that is picked. -/
theorem Share.deal
    {subject : String} {message : M}
    (hShare : Share deals trace s channel)
    (hDispatched : Dispatched s subject message s' (.ok ()))
    (hRecipient : channel ∈ recipients s subject) :
    Share (deals ++ [(channel, message)])
      (trace ++ [.dispatched subject message (.ok ())]) s'
      channel := by
  rcases hShare with ⟨rest, hSame, hQueue⟩
  rcases open_of_recipient hRecipient with ⟨queue, hOpen⟩
  refine ⟨rest ++ [message], ?_, ?_⟩
  · rw [receivedFrom_append rfl, ofTag_append, ← hSame,
      List.append_assoc]
    congr 2
    simp [ofTag]
  · intro queue' hAfter
    rw [hDispatched.sent, hOpen, Option.map_some,
      if_pos hRecipient] at hAfter
    cases hAfter
    rw [hQueue queue hOpen]

/- A dispatch that succeeds, and the others. -/
theorem Share.pass
    {subject : String} {message : M}
    (hShare : Share deals trace s channel)
    (hDispatched : Dispatched s subject message s' (.ok ()))
    (hNone : channel ∉ recipients s subject)
    {new : List (ChannelId × M)}
    (hNew : ∀ deal ∈ new, deal.1 ≠ channel) :
    Share (deals ++ new)
      (trace ++ [.dispatched subject message (.ok ())]) s'
      channel := by
  rcases hShare with ⟨rest, hSame, hQueue⟩
  refine ⟨rest, ?_, ?_⟩
  · rw [receivedFrom_append rfl, ofTag_append, hSame,
      ofTag_eq_nil hNew, List.append_nil]
  · intro queue hAfter
    rcases hDispatched.open_before hAfter with ⟨queue', hOpen⟩
    rw [hDispatched.sent, hOpen, Option.map_some,
      if_neg hNone] at hAfter
    cases hAfter
    exact hQueue queue hOpen

end LocalRouter

end Bus

end Qanat

------------------------------------------------------------
-- Deals
------------------------------------------------------------

namespace Qanat

namespace Bus

namespace LocalRouter

open Transition
open Interleaving (ofTag)

variable {M : Type}
variable {pattern group : String}
variable {trace : List (Event M)} {s s' : State M}
variable {deals : List (ChannelId × M)} {e : Event M}

/- A stream stays open unless it is dropped. -/
theorem Step.stays_open
    {channel : ChannelId} {queue : List M}
    (hCons : Consistent s)
    (hOpen : s.channels[channel]? = some ⟨true, queue⟩)
    (hStep : Step s e s')
    (hKept : e ≠ .dropped channel) :
    ∃ queue',
      s'.channels[channel]? = some ⟨true, queue'⟩ := by
  have hKnown := (List.getElem?_eq_some_iff.mp hOpen).1
  have hNew : ∀ router id,
      (s.subscribe router id).channels[channel]? =
        some ⟨true, queue⟩ := fun _ _ =>
    (List.getElem?_append_left hKnown).trans hOpen
  cases hStep with
  | @dispatch subject message =>
      rcases (hCons.dispatch_spec subject message).outcome with
        ⟨_, hChannels⟩ | ⟨_, hChannels⟩
      · rw [hChannels, hOpen, Option.map_some]
        by_cases hMem : channel ∈ recipients s subject
        · exact ⟨queue ++ [message], by rw [if_pos hMem]⟩
        · exact ⟨queue, by rw [if_neg hMem]⟩
      · exact ⟨queue, by rw [hChannels, hOpen]⟩
  | subscribe => exact ⟨queue, hNew _ _⟩
  | @subscribeGroup pattern group id hOk =>
      rcases hCons.subscribeGroup_spec pattern group with
        ⟨router, _, hState, _⟩ | ⟨_, hError, _⟩
      · exact ⟨queue, by rw [hState]; exact hNew _ _⟩
      · rw [hOk] at hError
        cases hError
  | rejectGroup hError =>
      rw [hCons.of_groupRejected (Step.rejectGroup hError)]
      exact ⟨queue, hOpen⟩
  | @receive c message rest hChannel =>
      by_cases hEq : c = channel
      · subst hEq
        exact ⟨rest, List.getElem?_set_self hKnown⟩
      · exact ⟨queue, by
          rw [List.getElem?_set_ne hEq, hOpen]⟩
  | @drop c _ hChannel =>
      have hNe : c ≠ channel := fun hEq => hKept (by rw [hEq])
      exact ⟨queue, by rw [List.getElem?_set_ne hNe, hOpen]⟩

/- The channel of a subscription, once it is made. -/
theorem Step.joins
    {label : Label} {channel : ChannelId}
    (hCons : Consistent s)
    (hStep : Step s e s')
    (hJoined : e.joined? = some (label, channel)) :
    channel = s.channels.length ∧
      s'.channels[s.channels.length]? = some Channel.new ∧
      ∀ c, e.received? c = none := by
  have hNew : ∀ router id,
      (s.subscribe router id).channels[s.channels.length]? =
        some Channel.new := fun _ _ =>
    List.getElem?_concat_length
  cases hStep with
  | subscribe =>
      cases hJoined
      exact ⟨rfl, hNew _ _, fun _ => rfl⟩
  | @subscribeGroup pattern group id hOk =>
      cases hJoined
      rcases hCons.subscribeGroup_spec pattern group with
        ⟨router, _, hState, _⟩ | ⟨_, hError, _⟩
      · exact ⟨rfl, by rw [hState]; exact hNew _ _,
          fun _ => rfl⟩
      · rw [hOk] at hError
        cases hError
  | _ => cases hJoined

theorem open_of_joined
    {label : Label} {channel : ChannelId}
    (hReach : (lts M).Reachable trace s)
    (hJoined :
      (label, channel) ∈ trace.filterMap Event.joined?)
    (hKept : Event.dropped channel ∉ trace) :
    ∃ queue, s.channels[channel]? = some ⟨true, queue⟩ := by
  induction hReach with
  | initial => cases hJoined
  | @step trace s s' e hReach hStep ih =>
      have hCons := consistent_of_reachable hReach
      rw [List.filterMap_append, List.mem_append] at hJoined
      rcases hJoined with hOld | hNew
      · rcases ih hOld (fun hMem =>
            hKept (List.mem_append_left _ hMem)) with
          ⟨queue, hOpen⟩
        refine hStep.stays_open hCons hOpen ?_
        rintro rfl
        exact hKept (List.mem_append_right _
          List.mem_cons_self)
      · rcases List.mem_filterMap.mp hNew with
          ⟨e', hMem, hEvent⟩
        cases List.mem_singleton.mp hMem
        rcases hStep.joins hCons hEvent with
          ⟨rfl, hChannel, _⟩
        exact ⟨[], hChannel⟩

/-
  How the messages that match were dealt to the members.
  While no member has dropped its stream, every one of them
  has been since there are members.
-/
structure Dealt
    (pattern group : String) (trace : List (Event M))
    (s : State M) (deals : List (ChannelId × M)) : Prop where
  messages :
    (deals.map Prod.snd).Sublist
      (trace.filterMap (Event.matched? pattern))
  members : ∀ deal ∈ deals,
    Event.groupSubscribed pattern group deal.1 ∈ trace
  share : ∀ channel,
    Event.groupSubscribed pattern group channel ∈ trace →
      Share deals trace s channel
  complete :
    (∀ channel,
      Event.groupSubscribed pattern group channel ∈ trace →
        Event.dropped channel ∉ trace) →
      ∀ earlier later channel,
        trace =
            earlier ++
              .groupSubscribed pattern group channel ::
                later →
          later.filterMap (Event.matched? pattern) <:+
            deals.map Prod.snd

/- What a step deals is added to what was dealt. -/
theorem Dealt.extend
    (hDealt : Dealt pattern group trace s deals)
    {new : List (ChannelId × M)}
    (hMessages :
      (new.map Prod.snd).Sublist
        (e.matched? pattern).toList)
    (hMembers : ∀ deal ∈ new,
      Event.groupSubscribed pattern group deal.1 ∈ trace)
    (hShare : ∀ channel,
      Event.groupSubscribed pattern group channel ∈
          trace ++ [e] →
        Share (deals ++ new) (trace ++ [e]) s' channel)
    (hComplete :
      (∀ channel,
        Event.groupSubscribed pattern group channel ∈
            trace →
          Event.dropped channel ∉ trace) →
        (∃ channel,
          Event.groupSubscribed pattern group channel ∈
            trace) →
          new.map Prod.snd = (e.matched? pattern).toList) :
    Dealt pattern group (trace ++ [e]) s' (deals ++ new) where
  messages := by
    rw [List.map_append, List.filterMap_append,
      Lists.filterMap_singleton]
    exact hDealt.messages.append hMessages
  members := by
    intro deal hMem
    rcases List.mem_append.mp hMem with hOld | hNew
    · exact List.mem_append_left _ (hDealt.members _ hOld)
    · exact List.mem_append_left _ (hMembers _ hNew)
  share := hShare
  complete := by
    intro hKept earlier later channel hTrace
    have hOpen : ∀ channel,
        Event.groupSubscribed pattern group channel ∈
            trace →
          Event.dropped channel ∉ trace :=
      fun channel hMember hDrop =>
        hKept channel (List.mem_append_left _ hMember)
          (List.mem_append_left _ hDrop)
    rcases List.eq_nil_or_concat later with
      rfl | ⟨front, last, rfl⟩
    · exact List.nil_suffix
    · rw [List.concat_eq_append] at hTrace ⊢
      rw [← List.cons_append, ← List.append_assoc] at hTrace
      rcases List.append_inj' hTrace rfl with
        ⟨hFront, hLast⟩
      cases hLast
      have hMember :
          Event.groupSubscribed pattern group channel ∈
            trace := by
        rw [hFront]
        simp
      rw [List.filterMap_append, Lists.filterMap_singleton,
        List.map_append, hComplete hOpen ⟨channel, hMember⟩]
      rcases hDealt.complete hOpen _ _ _ hFront with
        ⟨before, hBefore⟩
      exact ⟨before, by rw [← hBefore, List.append_assoc]⟩

/- A step that deals nothing. -/
theorem Dealt.rest
    (hDealt : Dealt pattern group trace s deals)
    (hNone : e.matched? pattern = none)
    (hShare : ∀ channel,
      Event.groupSubscribed pattern group channel ∈
          trace ++ [e] →
        Share deals (trace ++ [e]) s' channel) :
    Dealt pattern group (trace ++ [e]) s' deals := by
  rw [← List.append_nil deals]
  apply hDealt.extend
  · exact List.nil_sublist _
  · nofun
  · rw [List.append_nil]
    exact hShare
  · intro _ _
    rw [hNone]
    rfl

/- A message that is sent goes to the member it is dealt to. -/
theorem Dealt.dispatch
    {subject : String} {message : M}
    (hReach : (lts M).Reachable trace s)
    (hDealt : Dealt pattern group trace s deals)
    (hDispatched :
      Dispatched s subject message s' (.ok ())) :
    ∃ deals', Dealt pattern group
      (trace ++ [.dispatched subject message (.ok ())]) s'
        deals' := by
  have hCons := consistent_of_reachable hReach
  have hReg := registered_of_reachable hReach
  have hOld : ∀ channel,
      Event.groupSubscribed pattern group channel ∈
          trace ++ [.dispatched subject message (.ok ())] →
        Event.groupSubscribed pattern group channel ∈
          trace := by
    intro channel hMember
    rcases List.mem_append.mp hMember with hMem | hNew
    · exact hMem
    · cases List.mem_singleton.mp hNew
  by_cases hPicked : ∃ c,
      Event.groupSubscribed pattern group c ∈ trace ∧
        c ∈ recipients s subject
  · rcases hPicked with ⟨c, hMember, hRecipient⟩
    rcases open_of_recipient hRecipient with ⟨queue, hOpen⟩
    rcases hReg.member_spec hCons hMember hOpen subject with
      ⟨_, _, _, _, _, _, hIff⟩
    have hMatched :
        (Event.dispatched subject message (.ok ())).matched?
            pattern = some message :=
      if_pos (hIff.mp hRecipient).1
    refine ⟨deals ++ [(c, message)],
      hDealt.extend ?_ ?_ ?_ ?_⟩
    · rw [hMatched]
      exact List.Sublist.refl _
    · intro deal hMem
      rw [List.mem_singleton.mp hMem]
      exact hMember
    · intro channel hAny
      have hShare := hDealt.share channel (hOld _ hAny)
      by_cases hEq : channel = c
      · subst hEq
        exact hShare.deal hDispatched hRecipient
      · refine hShare.pass hDispatched ?_ ?_
        · intro hOther
          exact hEq (hReg.recipient_unique hCons (hOld _ hAny)
            hMember hOther hRecipient)
        · intro deal hMem
          rw [List.mem_singleton.mp hMem]
          exact Ne.symm hEq
    · intro _ _
      rw [hMatched]
      rfl
  · refine ⟨deals ++ [], hDealt.extend ?_ nofun ?_ ?_⟩
    · exact List.nil_sublist _
    · intro channel hAny
      exact (hDealt.share channel (hOld _ hAny)).pass
        hDispatched
        (fun hRecipient =>
          hPicked ⟨channel, hOld _ hAny, hRecipient⟩)
        nofun
    -- somebody is picked if all members listen
    · rintro hKept ⟨channel, hMember⟩
      have hOpen : ∀ c,
          Event.groupSubscribed pattern group c ∈ trace →
            ∃ queue,
              s.channels[c]? = some ⟨true, queue⟩ :=
        fun c hMem => open_of_joined hReach
          (mem_joined_group_iff.mpr ⟨pattern, hMem⟩)
          (hKept c hMem)
      have hNone :
          (Event.dispatched subject message
            (.ok ())).matched? pattern = none := by
        by_cases hMatch :
            wildcardMatch pattern subject = true
        · exact absurd
            (hReg.exists_recipient hCons hMember hOpen hMatch)
            hPicked
        · exact if_neg hMatch
      rw [hNone]
      rfl

theorem Dealt.step
    (hReach : (lts M).Reachable trace s)
    (hDealt : Dealt pattern group trace s deals)
    (hStep : Step s e s') :
    ∃ deals',
      Dealt pattern group (trace ++ [e]) s' deals' := by
  have hCons := consistent_of_reachable hReach
  have hReg := registered_of_reachable hReach
  -- members of old have channels, a new one has a new one
  have hKnown : ∀ deal ∈ deals,
      deal.1 < s.channels.length := fun deal hMem =>
    hReg.known _ _ (mem_joined_group_iff.mpr
      ⟨pattern, hDealt.members deal hMem⟩)
  have hAny :
      (∀ channel,
        Event.groupSubscribed pattern group channel ∈
            trace →
          Share deals (trace ++ [e]) s' channel) →
      ∀ channel,
        Event.groupSubscribed pattern group channel ∈
            trace ++ [e] →
          Share deals (trace ++ [e]) s' channel := by
    intro hOld channel hMember
    rcases List.mem_append.mp hMember with hMem | hNew
    · exact hOld channel hMem
    · rw [← List.mem_singleton.mp hNew] at hStep ⊢
      rcases hStep.joins hCons rfl with
        ⟨rfl, hChannel, hReceived⟩
      exact Share.new hReach hKnown hChannel (hReceived _)
  have hLonger : ∀ channel,
      Event.groupSubscribed pattern group channel ∈ trace →
        ∀ router id,
          (s.subscribe router id).channels[channel]? =
            s.channels[channel]? := fun channel hMember _ _ =>
    List.getElem?_append_left (hReg.known _ _
      (mem_joined_group_iff.mpr ⟨pattern, hMember⟩))
  cases hStep with
  | @dispatch subject message =>
      have hDispatched := hCons.dispatch_spec subject message
      rcases hDispatched.outcome with
        ⟨hOk, _⟩ | ⟨hError, hSame⟩
      · rw [hOk] at hDispatched ⊢
        exact hDealt.dispatch hReach hDispatched
      · rw [hError] at hAny ⊢
        refine ⟨deals, hDealt.rest rfl (hAny ?_)⟩
        intro channel hMember
        exact (hDealt.share channel hMember).keep
          (by rw [hSame]) rfl
  | subscribe =>
      refine ⟨deals, hDealt.rest rfl (hAny ?_)⟩
      intro channel hMember
      exact (hDealt.share channel hMember).keep
        (hLonger channel hMember _ _) rfl
  | @subscribeGroup other name id hOk =>
      refine ⟨deals, hDealt.rest rfl (hAny ?_)⟩
      intro channel hMember
      rcases hCons.subscribeGroup_spec other name with
        ⟨router, _, hState, _⟩ | ⟨_, hError, _⟩
      · rw [hState]
        exact (hDealt.share channel hMember).keep
          (hLonger channel hMember _ _) rfl
      · rw [hOk] at hError
        cases hError
  | rejectGroup hError =>
      refine ⟨deals, hDealt.rest rfl (hAny ?_)⟩
      intro channel hMember
      rw [hCons.of_groupRejected (Step.rejectGroup hError)]
      exact (hDealt.share channel hMember).keep rfl rfl
  | @receive c message rest hChannel =>
      refine ⟨deals, hDealt.rest rfl (hAny ?_)⟩
      intro channel hMember
      refine (hDealt.share channel hMember).set hChannel
        (fun hNe => if_neg hNe) ?_
      rintro rfl
      refine Or.inl ⟨rfl, ?_⟩
      simp [Event.received?]
  | @drop c queue hChannel =>
      refine ⟨deals, hDealt.rest rfl (hAny ?_)⟩
      intro channel hMember
      exact (hDealt.share channel hMember).set hChannel
        (fun _ => rfl) (fun _ => Or.inr ⟨rfl, rfl⟩)

/-
  In every run the messages that match have been dealt to the
  members of a queue group: each to one at most, and each to
  one for as long as all members listen.  What a member has
  received is, in order, what it was dealt, up to what is
  queued for it.
-/
theorem group_stream_law
    (hReach : (lts M).Reachable trace s)
    (pattern group : String) :
    ∃ deals, Dealt pattern group trace s deals := by
  induction hReach with
  | initial =>
      refine ⟨[], List.Sublist.refl _, nofun, nofun, ?_⟩
      intro _ earlier later channel hTrace
      have hLength := congrArg List.length hTrace
      simp at hLength
  | step hReach hStep ih =>
      rcases ih with ⟨deals, hDealt⟩
      exact hDealt.step hReach hStep

/- Each worker is dealt a job; the first has taken its own. -/
theorem group_stream_law_workers :
    ∃ s deals,
      (lts Nat).Reachable
        [.groupSubscribed "jobs.*" "workers" 0,
          .groupSubscribed "jobs.*" "workers" 1,
          .dispatched "jobs.a" 7 (.ok ()),
          .dispatched "jobs.b" 8 (.ok ()),
          .received 0 7] s ∧
      Dealt "jobs.*" "workers"
        [.groupSubscribed "jobs.*" "workers" 0,
          .groupSubscribed "jobs.*" "workers" 1,
          .dispatched "jobs.a" 7 (.ok ()),
          .dispatched "jobs.b" 8 (.ok ()),
          .received 0 7] s deals := by
  have hFirst := workers_reachable.step
    (@Step.dispatch Nat _ "jobs.a" 7)
  have hSecond := hFirst.step
    (@Step.dispatch Nat _ "jobs.b" 8)
  have hTaken := hSecond.step
    (@Step.receive Nat _ 0 7 [] rfl)
  rcases group_stream_law hTaken "jobs.*" "workers" with
    ⟨deals, hDealt⟩
  exact ⟨_, deals, hTaken, hDealt⟩

end LocalRouter

end Bus

end Qanat
