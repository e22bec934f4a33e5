import Qanat.Bus.Dispatch

/-
  Who is subscribed to a local bus, as the subscriptions of
  its run tell, and when a dispatch finds room.

  Main declarations:
    * `LocalRouter.State.Accepts`
    * `LocalRouter.Consistent.dispatch_ok_iff`
    * `LocalRouter.Event.joined?`
    * `LocalRouter.Registered`
    * `LocalRouter.registered_of_reachable`
    * `LocalRouter.Registered.one_recipient`
-/

------------------------------------------------------------
-- Room
------------------------------------------------------------

namespace Qanat

namespace Bus

namespace LocalRouter

variable {M : Type}

/- A stream that is open and that takes no more. -/
def Crowded
    (channels : List (Channel M)) (channel : ChannelId) :
    Prop :=
  ∃ queue, channels[channel]? = some ⟨true, queue⟩ ∧
    subscriptionBuffer ≤ queue.length

/- No stream is crowded if all queues have room. -/
theorem not_crowded_of_forall
    {channels : List (Channel M)}
    (hRoom : ∀ found ∈ channels,
      found.queue.length < subscriptionBuffer)
    (channel : ChannelId) :
    ¬ Crowded channels channel := by
  rintro ⟨queue, hChannel, hFull⟩
  have hShort := hRoom _ (List.mem_of_getElem? hChannel)
  exact absurd hFull (Nat.not_le.mpr hShort)

/- No open stream that a message is routed to is crowded. -/
def State.Accepts (s : State M) (subject : String) : Prop :=
  ∀ id ∈ (s.router.route subject).2, ∀ channel,
    s.senders.lookup id = some channel →
      ¬ Crowded s.channels channel

theorem accepts_iff
    {s : State M} {subject : String} :
    s.Accepts subject ↔
      ∀ channel ∈ recipients s subject,
        ¬ Crowded s.channels channel := by
  unfold State.Accepts recipients
  constructor
  · intro hAccepts channel hMem
    rcases List.mem_filterMap.mp hMem with ⟨id, hTarget, hLive⟩
    exact hAccepts id hTarget channel
      (liveChannel?_eq_some_iff.mp hLive).1
  · intro hRoom id hTarget channel hSender hCrowded
    rcases hCrowded with ⟨queue, hChannel, hFull⟩
    refine hRoom channel ?_ ⟨queue, hChannel, hFull⟩
    exact List.mem_filterMap.mpr ⟨id, hTarget,
      liveChannel?_eq_some_iff.mpr ⟨hSender, queue, hChannel⟩⟩

/- Without a permit for a stream, only its queue counts. -/
theorem tryReserve_eq_full_iff
    {channels : List (Channel M)} {permits : List ChannelId}
    {channel : ChannelId}
    (hNew : channel ∉ permits) :
    tryReserve channels permits channel = .full ↔
      Crowded channels channel := by
  unfold tryReserve Crowded
  simp only [List.count_eq_zero_of_not_mem hNew, Nat.add_zero]
  cases hChannel : channels[channel]? with
  | none => simp
  | some found =>
      rcases found with ⟨isOpen, queue⟩
      cases isOpen with
      | false => simp
      | true =>
          by_cases hRoom : queue.length < subscriptionBuffer
          · simp [hRoom]
          · simp [hRoom, Nat.not_lt.mp hRoom]

/- The loop of `dispatch` stops at the first crowded stream. -/
theorem reserve_full_iff
    {senders : AList (fun _ : ConsumerId => ChannelId)}
    {channels : List (Channel M)}
    (targets : List ConsumerId) (permits : List ChannelId)
    (dead : List ConsumerId)
    (hNodup :
      (permits ++
        targets.filterMap
          (liveChannel? senders channels)).Nodup) :
    (∃ dead',
        reserve senders channels targets permits dead =
          .full dead') ↔
      ∃ channel ∈
          targets.filterMap (liveChannel? senders channels),
        Crowded channels channel := by
  induction targets generalizing permits dead with
  | nil => simp [reserve]
  | cons id rest ih =>
      unfold reserve
      cases hSender : senders.lookup id with
      | none =>
          have hDead : liveChannel? senders channels id = none :=
            by simp [liveChannel?, hSender]
          rw [List.filterMap_cons_none hDead] at hNodup ⊢
          exact ih permits dead hNodup
      | some channel =>
          dsimp only
          cases hReserve :
              tryReserve channels permits channel with
          | permit =>
              have hLive :
                  liveChannel? senders channels id =
                    some channel :=
                liveChannel?_of_open hSender hReserve
                  (by simp)
              rw [List.filterMap_cons_some hLive] at hNodup ⊢
              have hNew : channel ∉ permits := by
                intro hMem
                exact List.disjoint_of_nodup_append hNodup hMem
                  (List.mem_cons_self ..)
              have hRoom : ¬ Crowded channels channel := by
                intro hCrowded
                rw [(tryReserve_eq_full_iff hNew).mpr hCrowded]
                  at hReserve
                cases hReserve
              rw [ih (permits ++ [channel]) dead
                (by simpa using hNodup)]
              simp [hRoom]
          | closed =>
              have hDead :
                  liveChannel? senders channels id = none :=
                liveChannel?_of_closed hSender hReserve
              rw [List.filterMap_cons_none hDead] at hNodup ⊢
              exact ih permits (dead ++ [id]) hNodup
          | full =>
              have hLive :
                  liveChannel? senders channels id =
                    some channel :=
                liveChannel?_of_open hSender hReserve
                  (by simp)
              rw [List.filterMap_cons_some hLive] at hNodup ⊢
              have hNew : channel ∉ permits := by
                intro hMem
                exact List.disjoint_of_nodup_append hNodup hMem
                  (List.mem_cons_self ..)
              have hCrowded :=
                (tryReserve_eq_full_iff hNew).mp hReserve
              exact iff_of_true ⟨dead, rfl⟩
                ⟨channel, List.mem_cons_self .., hCrowded⟩

/- A dispatch fails only for want of room. -/
theorem Consistent.dispatch_ok_iff
    {s : State M}
    (hCons : Consistent s)
    (subject : String) (message : M) :
    (dispatch s subject message).2 = .ok () ↔
      s.Accepts subject := by
  have hLoop :=
    @reserve_full_iff M s.senders s.channels
      (s.router.route subject).2 [] []
      (hCons.recipients_nodup subject)
  rw [accepts_iff]
  unfold dispatch
  cases hReserve : reserve s.senders s.channels
      (s.router.route subject).2 [] [] with
  | full dead =>
      rw [hReserve] at hLoop
      rcases hLoop.mp ⟨dead, rfl⟩ with ⟨channel, hMem, hFull⟩
      simp only [hReserve, reduceCtorEq, false_iff]
      exact fun hRoom => hRoom channel hMem hFull
  | reserved permits dead =>
      rw [hReserve] at hLoop
      simp only [hReserve, true_iff]
      intro channel hMem hFull
      rcases hLoop.mpr ⟨channel, hMem, hFull⟩ with ⟨_, hFalse⟩
      cases hFalse

/- With room for it, a message is sent to the recipients. -/
theorem Consistent.dispatch_accepted
    {s : State M} {subject : String}
    (hCons : Consistent s)
    (hAccepts : s.Accepts subject)
    (message : M) :
    Dispatched s subject message
      (dispatch s subject message).1 (.ok ()) := by
  have hDispatched := hCons.dispatch_spec subject message
  rwa [(hCons.dispatch_ok_iff subject message).mpr hAccepts]
    at hDispatched

end LocalRouter

end Bus

end Qanat

------------------------------------------------------------
-- Bound Groups
------------------------------------------------------------

namespace Qanat

namespace Bus

/- What a binding is for, whoever its consumers are. -/
def Binding.purpose (b : Binding) : String × Option String :=
  (b.subjectPattern, b.queue)

theorem modifyFirst_map
    {α β : Type} {p : α → Bool} {f : α → α} {g : α → β}
    {l l' : List α}
    (hModify : modifyFirst p f l = some l')
    (hKept : ∀ a, g (f a) = g a) :
    l'.map g = l.map g := by
  rcases modifyFirst_eq_some hModify with
    ⟨front, a, back, rfl, _, _, rfl⟩
  simp [hKept]

namespace SubjectRouter

/- The group is bound to the pattern. -/
def BoundTo
    (router : SubjectRouter) (pattern group : String) :
    Prop :=
  (pattern, some group) ∈ router.bindings.map Binding.purpose

variable {router router' : SubjectRouter}
variable {pattern group : String}

theorem BoundTo.route
    (hBound : router.BoundTo pattern group)
    (subject : String) :
    (router.route subject).1.BoundTo pattern group := by
  have hSame :
      (router.route subject).1.bindings.map Binding.purpose =
        router.bindings.map Binding.purpose := by
    unfold SubjectRouter.route
    rw [List.map_map]
    apply List.map_congr_left
    intro b _
    rcases b.route_frame subject with ⟨hQueue, hPattern, _⟩
    simp [Binding.purpose, hQueue, hPattern]
  unfold BoundTo
  rwa [hSame]

/- A queue is kept without its consumers. -/
theorem BoundTo.removeConsumer
    (hBound : router.BoundTo pattern group)
    (id : ConsumerId) :
    (router.removeConsumer id).BoundTo pattern group := by
  rcases List.mem_map.mp hBound with ⟨b, hMem, hPurpose⟩
  have hQueue : b.queue = some group :=
    congrArg Prod.snd hPurpose
  refine List.mem_map.mpr ⟨{ b with
    consumers := b.consumers.filter (fun c => c ≠ id) }, ?_,
    hPurpose⟩
  refine List.mem_filter.mpr
    ⟨List.mem_map.mpr ⟨b, hMem, rfl⟩, ?_⟩
  simp [hQueue]

theorem BoundTo.addFanout
    (hBound : router.BoundTo pattern group)
    (other : String) :
    (router.addFanout other).1.BoundTo pattern group := by
  unfold SubjectRouter.addFanout allocId
  cases hModify : modifyFirst (Binding.isFanoutOf other)
      (Binding.push router.nextId) router.bindings with
  | some bindings =>
      have hSame : bindings.map Binding.purpose =
          router.bindings.map Binding.purpose :=
        modifyFirst_map hModify (fun _ => rfl)
      simp only [hModify]
      unfold BoundTo
      rwa [hSame]
  | none =>
      simp only [hModify]
      unfold BoundTo
      rw [List.map_append]
      exact List.mem_append_left _ hBound

theorem BoundTo.addConsumer
    (hBound : router.BoundTo pattern group)
    (queue : String) :
    (router.addConsumer queue).1.BoundTo pattern group := by
  unfold SubjectRouter.addConsumer allocId
  cases hModify : modifyFirst (Binding.isQueue queue)
      (Binding.push router.nextId) router.bindings with
  | some bindings =>
      have hSame : bindings.map Binding.purpose =
          router.bindings.map Binding.purpose :=
        modifyFirst_map hModify (fun _ => rfl)
      simp only [hModify]
      unfold BoundTo
      rwa [hSame]
  | none =>
      simp only [hModify]
      exact hBound

/- A queue is bound to the pattern that was asked for. -/
theorem boundTo_of_bindQueue
    {other queue : String}
    (hBind : router.bindQueue other queue = .ok router') :
    router'.BoundTo other queue ∧
      ∀ pattern group, router.BoundTo pattern group →
        router'.BoundTo pattern group := by
  unfold bindQueue at hBind
  cases hFind : router.bindings.find?
      (Binding.isQueue queue) with
  | some b =>
      simp only [hFind] at hBind
      by_cases hPattern : b.subjectPattern ≠ other
      · rw [if_pos hPattern] at hBind
        cases hBind
      · rw [if_neg hPattern] at hBind
        cases hBind
        have hQueue := Binding.label_eq_group_iff.mp
          (Binding.isQueue_iff.mp (List.find?_some hFind))
        have hPurpose : b.purpose = (other, some queue) := by
          unfold Binding.purpose
          rw [hQueue, not_ne_iff.mp hPattern]
        exact ⟨List.mem_map.mpr
          ⟨b, List.mem_of_find?_eq_some hFind, hPurpose⟩,
          fun _ _ hBound => hBound⟩
  | none =>
      simp only [hFind] at hBind
      cases hBind
      simp only [BoundTo, List.map_append]
      exact ⟨List.mem_append_right _
        (List.mem_singleton_self _),
        fun _ _ hBound => List.mem_append_left _ hBound⟩

/- The binding of a group. -/
theorem Valid.boundTo_unique
    {b : Binding}
    (hValid : router.Valid)
    (hBound : router.BoundTo pattern group)
    (hMem : b ∈ router.bindings)
    (hQueue : b.queue = some group) :
    b.subjectPattern = pattern := by
  rcases List.mem_map.mp hBound with ⟨b', hMem', hPurpose⟩
  have hSame : b = b' := by
    apply List.inj_on_of_nodup_map hValid.labels_nodup hMem
      hMem'
    rw [Binding.label_eq_group_iff.mpr hQueue]
    exact (Binding.label_eq_group_iff.mpr
      (congrArg Prod.snd hPurpose)).symm
  rw [hSame]
  exact congrArg Prod.fst hPurpose

end SubjectRouter

end Bus

end Qanat

------------------------------------------------------------
-- Subscribers
------------------------------------------------------------

namespace Qanat

namespace Bus

namespace LocalRouter

open Transition

variable {M : Type}

/- Removing consumers leaves fewer senders and no new one. -/
theorem Consistent.removeConsumers_shrinks
    {s : State M}
    (hCons : Consistent s)
    (dead : List ConsumerId) :
    (∀ id channel,
      (removeConsumers s dead).senders.lookup id =
          some channel →
        s.senders.lookup id = some channel) ∧
      (∀ id label,
        (removeConsumers s dead).router.Subscribed id label →
          s.router.Subscribed id label) ∧
      ∀ pattern group, s.router.BoundTo pattern group →
        (removeConsumers s dead).router.BoundTo pattern
          group := by
  induction dead generalizing s with
  | nil => exact ⟨fun _ _ h => h, fun _ _ h => h, fun _ _ h => h⟩
  | cons first rest ih =>
      rcases ih (hCons.remove first) with
        ⟨hLookup, hSubscribed, hBound⟩
      refine ⟨?_, ?_, ?_⟩
      · intro id channel hSender
        exact lookup_of_remove (hLookup id channel hSender)
      · intro id label hAfter
        exact ((SubjectRouter.removeConsumer_spec hCons.table
          first).2 id label).mp (hSubscribed id label hAfter)
            |>.1
      · intro pattern group hBefore
        exact hBound pattern group
          (hBefore.removeConsumer first)

/- A dispatch adds no sender, no consumer and no binding. -/
theorem Consistent.dispatch_shrinks
    {s : State M}
    (hCons : Consistent s)
    (subject : String) (message : M) :
    (∀ id channel,
      (dispatch s subject message).1.senders.lookup id =
          some channel →
        s.senders.lookup id = some channel) ∧
      (∀ id label,
        (dispatch s subject message).1.router.Subscribed id
            label →
          s.router.Subscribed id label) ∧
      ∀ pattern group, s.router.BoundTo pattern group →
        (dispatch s subject message).1.router.BoundTo pattern
          group := by
  have hRoute := SubjectRouter.route_spec hCons.table subject
  have hRouted := hCons.withRouter hRoute.1 hRoute.2
  unfold dispatch
  cases hReserve : reserve s.senders s.channels
      (s.router.route subject).2 [] [] with
  | full dead =>
      rcases hRouted.removeConsumers_shrinks dead with
        ⟨hLookup, hSubscribed, hBound⟩
      simp only [hReserve]
      exact ⟨hLookup,
        fun id label hAfter =>
          (hRoute.2 id label).mp (hSubscribed id label hAfter),
        fun pattern group hBefore =>
          hBound pattern group (hBefore.route subject)⟩
  | reserved permits dead =>
      rcases hRouted.removeConsumers_shrinks dead with
        ⟨hLookup, hSubscribed, hBound⟩
      simp only [hReserve]
      exact ⟨hLookup,
        fun id label hAfter =>
          (hRoute.2 id label).mp (hSubscribed id label hAfter),
        fun pattern group hBefore =>
          hBound pattern group (hBefore.route subject)⟩

/- The subscription that an event makes, and its channel. -/
def Event.joined? : Event M → Option (Label × ChannelId)
| .subscribed pattern channel =>
    some (.fanout pattern, channel)
| .groupSubscribed _ group channel =>
    some (.group group, channel)
| _ => none

/-
  The consumers with an open stream are those that have
  subscribed, and groups are bound as was asked for.
-/
structure Registered
    (trace : List (Event M)) (s : State M) : Prop where
  known :
    ∀ label channel,
      (label, channel) ∈ trace.filterMap Event.joined? →
        channel < s.channels.length
  consumer :
    ∀ label channel queue,
      (label, channel) ∈ trace.filterMap Event.joined? →
        s.channels[channel]? = some ⟨true, queue⟩ →
          ∃ id, s.senders.lookup id = some channel ∧
            s.router.Subscribed id label
  joined :
    ∀ id label channel,
      s.senders.lookup id = some channel →
        s.router.Subscribed id label →
          (label, channel) ∈ trace.filterMap Event.joined?
  bound :
    ∀ pattern group channel,
      Event.groupSubscribed pattern group channel ∈ trace →
        s.router.BoundTo pattern group

theorem Registered.start :
    Registered [] (State.start : State M) := by
  refine ⟨?_, ?_, ?_, ?_⟩
  · simp
  · simp
  · intro id label channel hSender
    simp [State.start] at hSender
  · simp

/- An event that is no subscription. -/
theorem Registered.keep
    {trace : List (Event M)} {s s' : State M} {e : Event M}
    (hReg : Registered trace s)
    (hEvent : e.joined? = none)
    (hLength : s.channels.length ≤ s'.channels.length)
    (hConsumer :
      ∀ id label channel queue,
        s'.channels[channel]? = some ⟨true, queue⟩ →
          (∃ queue', s.channels[channel]? =
              some ⟨true, queue'⟩) ∧
            (s.senders.lookup id = some channel →
              s.router.Subscribed id label →
                s'.senders.lookup id = some channel ∧
                  s'.router.Subscribed id label))
    (hJoined :
      ∀ id label channel,
        s'.senders.lookup id = some channel →
          s'.router.Subscribed id label →
            s.senders.lookup id = some channel ∧
              s.router.Subscribed id label)
    (hBound :
      ∀ pattern group, s.router.BoundTo pattern group →
        s'.router.BoundTo pattern group) :
    Registered (trace ++ [e]) s' := by
  have hSame : (trace ++ [e]).filterMap Event.joined? =
      trace.filterMap Event.joined? := by
    simp [hEvent]
  constructor
  case known =>
    intro label channel hMem
    rw [hSame] at hMem
    exact Nat.lt_of_lt_of_le (hReg.known label channel hMem)
      hLength
  case consumer =>
    intro label channel queue hMem hOpen
    rw [hSame] at hMem
    rcases (hConsumer 0 label channel queue hOpen).1 with
      ⟨queue', hBefore⟩
    rcases hReg.consumer label channel queue' hMem hBefore with
      ⟨id, hSender, hSubscribed⟩
    exact ⟨id, (hConsumer id label channel queue hOpen).2
      hSender hSubscribed⟩
  case joined =>
    intro id label channel hSender hSubscribed
    rw [hSame]
    rcases hJoined id label channel hSender hSubscribed with
      ⟨hBefore, hBefore'⟩
    exact hReg.joined id label channel hBefore hBefore'
  case bound =>
    intro pattern group channel hMem
    apply hBound
    rcases List.mem_append.mp hMem with hOld | hNew
    · exact hReg.bound pattern group channel hOld
    · rw [← List.mem_singleton.mp hNew] at hEvent
      cases hEvent

theorem Registered.dispatch
    {trace : List (Event M)} {s : State M}
    (hReg : Registered trace s)
    (hCons : Consistent s)
    (subject : String) (message : M) :
    Registered
      (trace ++ [.dispatched subject message
        (LocalRouter.dispatch s subject message).2])
      (LocalRouter.dispatch s subject message).1 := by
  have hDispatched := hCons.dispatch_spec subject message
  rcases hCons.dispatch_shrinks subject message with
    ⟨hLookup, hSubscribed, hBound⟩
  refine hReg.keep rfl
    (Nat.le_of_eq
      (dispatch_channels_length s subject message).symm)
    ?_ ?_ hBound
  · intro id label channel queue hOpen
    rcases hDispatched.open_before hOpen with
      ⟨queue', hBefore⟩
    refine ⟨⟨queue', hBefore⟩, ?_⟩
    intro hSender hMember
    rcases hDispatched.kept id ⟨channel, queue', hSender,
      hBefore⟩ with ⟨hSame, hLabels⟩
    exact ⟨hSame.trans hSender, (hLabels label).mpr hMember⟩
  · intro id label channel hSender hMember
    exact ⟨hLookup id channel hSender,
      hSubscribed id label hMember⟩

theorem Registered.subscribe
    {trace : List (Event M)} {s : State M}
    {router : SubjectRouter} {label : Label} {e : Event M}
    (hReg : Registered trace s)
    (hCons : Consistent s)
    (hJoined :
      ∀ id l, router.Subscribed id l ↔
        s.router.Subscribed id l ∨
          id = s.router.nextId ∧ l = label)
    (hEvent : e.joined? = some (label, s.channels.length))
    (hBound :
      ∀ pattern group, s.router.BoundTo pattern group →
        router.BoundTo pattern group)
    (hNew :
      ∀ pattern group channel,
        e = .groupSubscribed pattern group channel →
          router.BoundTo pattern group) :
    Registered (trace ++ [e])
      (s.subscribe router s.router.nextId) := by
  have hMem : ∀ l channel,
      (l, channel) ∈
          (trace ++ [e]).filterMap Event.joined? ↔
        (l, channel) ∈ trace.filterMap Event.joined? ∨
          l = label ∧ channel = s.channels.length := by
    intro l channel
    simp [List.filterMap_append, hEvent]
  constructor
  case known =>
    intro l channel hLabel
    unfold State.subscribe
    rw [List.length_append, List.length_singleton]
    rcases (hMem l channel).mp hLabel with hOld | ⟨_, rfl⟩
    · exact Nat.lt_succ_of_lt (hReg.known l channel hOld)
    · exact Nat.lt_succ_self _
  case consumer =>
    intro l channel queue hLabel hOpen
    unfold State.subscribe at hOpen ⊢
    rcases (hMem l channel).mp hLabel with
      hOld | ⟨rfl, rfl⟩
    · rw [List.getElem?_append_left
        (hReg.known l channel hOld)] at hOpen
      rcases hReg.consumer l channel queue hOld hOpen with
        ⟨id, hSender, hSubscribed⟩
      have hNe : id ≠ s.router.nextId := by
        rintro rfl
        exact hCons.table.fresh
          (SubjectRouter.mem_consumers_iff.mpr
            ⟨_, hSubscribed⟩)
      exact ⟨id, (AList.lookup_insert_ne hNe).trans hSender,
        (hJoined id l).mpr (Or.inl hSubscribed)⟩
    · exact ⟨s.router.nextId, AList.lookup_insert _,
        (hJoined _ _).mpr (Or.inr ⟨rfl, rfl⟩)⟩
  case joined =>
    intro id l channel hSender hSubscribed
    unfold State.subscribe at hSender hSubscribed
    rw [hMem]
    by_cases hId : id = s.router.nextId
    · subst hId
      rw [AList.lookup_insert] at hSender
      cases hSender
      rcases (hJoined _ _).mp hSubscribed with
        hOld | ⟨_, rfl⟩
      · exact absurd (SubjectRouter.mem_consumers_iff.mpr
          ⟨_, hOld⟩) hCons.table.fresh
      · exact Or.inr ⟨rfl, rfl⟩
    · rw [AList.lookup_insert_ne hId] at hSender
      rcases (hJoined _ _).mp hSubscribed with
        hOld | ⟨hSame, _⟩
      · exact Or.inl (hReg.joined id l channel hSender hOld)
      · exact absurd hSame hId
  case bound =>
    intro pattern group channel hEvents
    rcases List.mem_append.mp hEvents with hOld | hLast
    · exact hBound pattern group
        (hReg.bound pattern group channel hOld)
    · exact hNew pattern group channel
        (List.mem_singleton.mp hLast).symm

/- A subscriber takes from or drops a stream. -/
theorem Registered.set
    {trace : List (Event M)} {s : State M} {e : Event M}
    {c : ChannelId} {queue : List M} {new : Channel M}
    (hReg : Registered trace s)
    (hChannel : s.channels[c]? = some ⟨true, queue⟩)
    (hEvent : e.joined? = none) :
    Registered (trace ++ [e])
      { s with channels := s.channels.set c new } := by
  refine hReg.keep hEvent (by simp) ?_
    (fun _ _ _ hSender hMember => ⟨hSender, hMember⟩)
    (fun _ _ hBound => hBound)
  intro id label channel queue' hOpen
  refine ⟨?_, fun hSender hMember => ⟨hSender, hMember⟩⟩
  by_cases hEq : c = channel
  · subst hEq
    exact ⟨queue, hChannel⟩
  · rw [List.getElem?_set_ne hEq] at hOpen
    exact ⟨queue', hOpen⟩

/- A group subscription binds the group. -/
theorem boundTo_of_subscribeGroup
    {s : State M} {pattern group : String} {id : ConsumerId}
    (hOk : (subscribeGroup s pattern group).2 = .ok id) :
    (subscribeGroup s pattern group).1.router.BoundTo pattern
        group ∧
      ∀ pattern' group', s.router.BoundTo pattern' group' →
        (subscribeGroup s pattern group).1.router.BoundTo
          pattern' group' := by
  unfold subscribeGroup at hOk ⊢
  cases hBind : s.router.bindQueue pattern group with
  | error error =>
      rw [hBind] at hOk
      cases hOk
  | ok router =>
      rw [hBind] at hOk
      dsimp only at hOk ⊢
      rcases SubjectRouter.boundTo_of_bindQueue hBind with
        ⟨hNew, hBound⟩
      rcases hAdd : router.addConsumer group with
        ⟨router', result⟩
      have hKept : ∀ pattern' group',
          router.BoundTo pattern' group' →
            router'.BoundTo pattern' group' := by
        intro pattern' group' hBefore
        have hAdded := hBefore.addConsumer group
        rwa [hAdd] at hAdded
      rw [hAdd] at hOk
      cases result with
      | error error => cases hOk
      | ok new =>
          refine ⟨hKept _ _ hNew, ?_⟩
          intro pattern' group' hBefore
          exact hKept _ _ (hBound _ _ hBefore)

theorem Registered.step
    {trace : List (Event M)} {s s' : State M} {e : Event M}
    (hReg : Registered trace s)
    (hCons : Consistent s)
    (hStep : Step s e s') :
    Registered (trace ++ [e]) s' := by
  cases hStep with
  | @dispatch subject message =>
      exact hReg.dispatch hCons subject message
  | @subscribe pattern =>
      rcases SubjectRouter.addFanout_spec hCons.table pattern
        with ⟨hId, _, hJoined⟩
      rw [hId]
      refine hReg.subscribe hCons hJoined rfl ?_ ?_
      · intro pattern' group hBound
        exact hBound.addFanout pattern
      · intro pattern' group channel hFalse
        cases hFalse
  | @subscribeGroup pattern group id hOk =>
      rcases boundTo_of_subscribeGroup hOk with ⟨hNew, hBound⟩
      rcases hCons.subscribeGroup_spec pattern group with
        ⟨router, _, hState, _, hJoined⟩ | ⟨_, hError, _⟩
      · rw [hState] at hNew hBound ⊢
        refine hReg.subscribe hCons hJoined rfl hBound ?_
        intro pattern' group' channel hSame
        cases hSame
        exact hNew
      · rw [hOk] at hError
        cases hError
  | rejectGroup hError =>
      rw [hCons.of_groupRejected (Step.rejectGroup hError)]
      exact hReg.keep rfl (Nat.le_refl _)
        (fun _ _ _ queue hOpen =>
          ⟨⟨queue, hOpen⟩, fun hSender hMember =>
            ⟨hSender, hMember⟩⟩)
        (fun _ _ _ hSender hMember => ⟨hSender, hMember⟩)
        (fun _ _ hBound => hBound)
  | receive hChannel => exact hReg.set hChannel rfl
  | drop hChannel => exact hReg.set hChannel rfl

theorem registered_of_reachable
    {trace : List (Event M)} {s : State M}
    (hReach : (lts M).Reachable trace s) :
    Registered trace s := by
  apply hReach.invariant
  · rintro s rfl
    exact Registered.start
  · intro trace s e s' hReach hReg hStep
    exact hReg.step (consistent_of_reachable hReach) hStep

end LocalRouter

end Bus

end Qanat

------------------------------------------------------------
-- Recipients
------------------------------------------------------------

namespace Qanat

namespace Bus

/- A group with consumers has one whose turn it is. -/
theorem Binding.exists_picked
    {b : Binding} {id : ConsumerId}
    (hMem : id ∈ b.consumers) :
    ∃ first, b.picked? = some first := by
  have hPositive : 0 < b.consumers.length :=
    List.length_pos_of_mem hMem
  exact ⟨_, List.getElem?_eq_getElem
    (Nat.mod_lt b.rrIndex hPositive)⟩

namespace LocalRouter

open Transition

variable {M : Type}
variable {trace : List (Event M)} {s : State M}
variable {pattern group subject : String}
variable {channel : ChannelId} {queue : List M}

theorem mem_joined_fanout
    (hMem : Event.subscribed pattern channel ∈ trace) :
    (Label.fanout pattern, channel) ∈
      trace.filterMap Event.joined? :=
  List.mem_filterMap.mpr ⟨_, hMem, rfl⟩

theorem mem_joined_group_iff :
    (Label.group group, channel) ∈
        trace.filterMap Event.joined? ↔
      ∃ pattern, Event.groupSubscribed pattern group channel ∈
        trace := by
  rw [List.mem_filterMap]
  constructor
  · rintro ⟨e, hMem, hEvent⟩
    cases e with
    | groupSubscribed pattern group' channel' =>
        cases hEvent
        exact ⟨pattern, hMem⟩
    | _ => cases hEvent
  · rintro ⟨pattern, hMem⟩
    exact ⟨_, hMem, rfl⟩

/- An open fanout subscriber is sent all that matches. -/
theorem Registered.fanout_recipient_iff
    (hReg : Registered trace s)
    (hCons : Consistent s)
    (hMem : Event.subscribed pattern channel ∈ trace)
    (hOpen : s.channels[channel]? = some ⟨true, queue⟩)
    (subject : String) :
    channel ∈ recipients s subject ↔
      wildcardMatch pattern subject = true := by
  rcases hReg.consumer _ _ queue (mem_joined_fanout hMem) hOpen
    with ⟨id, hSender, hSubscribed⟩
  rw [hCons.mem_recipients_iff hSender hOpen,
    hCons.table.fanout_mem_route_iff hSubscribed]

/- An open member is sent what the round robin picks it for. -/
theorem Registered.member_recipient_iff
    (hReg : Registered trace s)
    (hCons : Consistent s)
    (hMem :
      Event.groupSubscribed pattern group channel ∈ trace)
    (hOpen : s.channels[channel]? = some ⟨true, queue⟩)
    (hMatch : wildcardMatch pattern subject = true) :
    ∃ b ∈ s.router.bindings, ∃ id ∈ b.consumers,
      b.queue = some group ∧ b.subjectPattern = pattern ∧
        s.senders.lookup id = some channel ∧
        (channel ∈ recipients s subject ↔
          b.picked? = some id) := by
  rcases hReg.consumer _ _ queue
      (mem_joined_group_iff.mpr ⟨pattern, hMem⟩) hOpen with
    ⟨id, hSender, b, hBinding, hLabel, hConsumer⟩
  have hQueue := Binding.label_eq_group_iff.mp hLabel
  have hPattern := hCons.table.boundTo_unique
    (hReg.bound _ _ _ hMem) hBinding hQueue
  refine ⟨b, hBinding, id, hConsumer, hQueue, hPattern,
    hSender, ?_⟩
  rw [hCons.mem_recipients_iff hSender hOpen,
    hCons.table.mem_route_iff hBinding hConsumer,
    Binding.mem_route_iff]
  simp [hQueue, hPattern, hMatch]

/- A step keeps streams open, except if one is dropped. -/
theorem Step.all_open
    {s' : State M} {e : Event M}
    (hCons : Consistent s)
    (hOpen :
      ∀ c < s.channels.length, ∃ queue,
        s.channels[c]? = some ⟨true, queue⟩)
    (hStep : Step s e s')
    (hKept : ∀ c, e ≠ .dropped c) :
    ∀ c < s'.channels.length, ∃ queue,
      s'.channels[c]? = some ⟨true, queue⟩ := by
  have hNew : ∀ router id,
      ∀ c < (s.subscribe router id).channels.length, ∃ queue,
        (s.subscribe router id).channels[c]? =
          some ⟨true, queue⟩ := by
    intro router id c hBound
    unfold State.subscribe at hBound ⊢
    rw [List.length_append, List.length_singleton] at hBound
    rcases Nat.lt_succ_iff_lt_or_eq.mp hBound with hOld | rfl
    · rw [List.getElem?_append_left hOld]
      exact hOpen c hOld
    · exact ⟨[], List.getElem?_concat_length⟩
  cases hStep with
  | @dispatch subject message =>
      intro c hBound
      rw [dispatch_channels_length] at hBound
      rcases hOpen c hBound with ⟨queue, hQueue⟩
      rcases (hCons.dispatch_spec subject message).outcome with
        ⟨_, hChannels⟩ | ⟨_, hChannels⟩
      · rw [hChannels, hQueue, Option.map_some]
        by_cases hMem : c ∈ recipients s subject
        · exact ⟨queue ++ [message], by rw [if_pos hMem]⟩
        · exact ⟨queue, by rw [if_neg hMem]⟩
      · rw [hChannels]
        exact ⟨queue, hQueue⟩
  | subscribe => exact hNew _ _
  | @subscribeGroup pattern group id hOk =>
      rcases hCons.subscribeGroup_spec pattern group with
        ⟨router, _, hState, _⟩ | ⟨_, hError, _⟩
      · rw [hState]
        exact hNew _ _
      · rw [hOk] at hError
        cases hError
  | rejectGroup hError =>
      rw [hCons.of_groupRejected (Step.rejectGroup hError)]
      exact hOpen
  | @receive channel message rest hChannel =>
      intro c hBound
      rw [List.length_set] at hBound
      by_cases hEq : channel = c
      · subst hEq
        exact ⟨rest, List.getElem?_set_self hBound⟩
      · rw [List.getElem?_set_ne hEq]
        exact hOpen c hBound
  | @drop channel queue hChannel =>
      exact absurd rfl (hKept channel)

/- In a run without drops, all streams stay open. -/
theorem all_open_of_reachable
    (hReach : (lts M).Reachable trace s)
    (hKept : ∀ c, Event.dropped c ∉ trace) :
    ∀ c < s.channels.length, ∃ queue,
      s.channels[c]? = some ⟨true, queue⟩ := by
  induction hReach with
  | initial hInit =>
      rw [hInit]
      intro c hBound
      exact absurd hBound (Nat.not_lt_zero c)
  | @step trace s s' e hReach hStep ih =>
      refine Step.all_open (consistent_of_reachable hReach)
        (ih ?_) hStep ?_
      · intro c hMem
        exact hKept c (List.mem_append_left _ hMem)
      · rintro c rfl
        exact hKept c (List.mem_append_right _
          (List.mem_singleton_self _))

/-
  Of a group whose streams are all open, one member is sent
  a message that matches.
-/
theorem Registered.one_recipient
    (hReg : Registered trace s)
    (hCons : Consistent s)
    (hOpen :
      ∀ c < s.channels.length, ∃ queue,
        s.channels[c]? = some ⟨true, queue⟩)
    (hMem :
      Event.groupSubscribed pattern group channel ∈ trace)
    (hMatch : wildcardMatch pattern subject = true) :
    ∃! c, Event.groupSubscribed pattern group c ∈ trace ∧
      c ∈ recipients s subject := by
  have hMemberOpen :
      ∀ c, Event.groupSubscribed pattern group c ∈ trace →
        ∃ queue, s.channels[c]? = some ⟨true, queue⟩ := by
    intro c hMember
    exact hOpen c (hReg.known _ _
      (mem_joined_group_iff.mpr ⟨pattern, hMember⟩))
  rcases hMemberOpen channel hMem with ⟨queue, hQueue⟩
  rcases hReg.member_recipient_iff hCons hMem hQueue hMatch
    with ⟨b, hBinding, id, hConsumer, hGroup, hPattern, _⟩
  rcases Binding.exists_picked hConsumer with
    ⟨first, hPicked⟩
  have hFirst : first ∈ b.consumers :=
    List.mem_of_getElem? hPicked
  have hSubscribed :
      s.router.Subscribed first (.group group) :=
    ⟨b, hBinding, Binding.label_eq_group_iff.mpr hGroup,
      hFirst⟩
  have hSome : (s.senders.lookup first).isSome = true := by
    rw [AList.lookup_isSome, hCons.senders_iff,
      SubjectRouter.mem_consumers_iff]
    exact ⟨_, hSubscribed⟩
  rcases Option.isSome_iff_exists.mp hSome with ⟨c, hSender⟩
  rcases mem_joined_group_iff.mp
      (hReg.joined _ _ _ hSender hSubscribed) with
    ⟨pattern', hJoined⟩
  have hSame : pattern' = pattern :=
    (hCons.table.boundTo_unique (hReg.bound _ _ _ hJoined)
      hBinding hGroup).symm.trans hPattern
  subst hSame
  rcases hMemberOpen c hJoined with ⟨queue', hQueue'⟩
  refine ⟨c, ⟨hJoined, ?_⟩, ?_⟩
  · rw [hCons.mem_recipients_iff hSender hQueue',
      hCons.table.mem_route_iff hBinding hFirst,
      Binding.mem_route_iff]
    simp [hGroup, hPattern, hMatch, hPicked]
  · rintro c' ⟨hMember, hRecipient⟩
    rcases hMemberOpen c' hMember with ⟨queue'', hQueue''⟩
    rcases hReg.member_recipient_iff hCons hMember hQueue''
        hMatch with
      ⟨b', hBinding', id', _, hGroup', _, hSender', hIff⟩
    have hPicked' := hIff.mp hRecipient
    have hEq : b' = b := by
      apply List.inj_on_of_nodup_map hCons.table.labels_nodup
        hBinding' hBinding
      rw [Binding.label_eq_group_iff.mpr hGroup,
        Binding.label_eq_group_iff.mpr hGroup']
    rw [hEq, hPicked] at hPicked'
    cases hPicked'
    rw [hSender] at hSender'
    exact (Option.some.inj hSender').symm

end LocalRouter

end Bus

end Qanat
