import Qanat.Bus.Subscriptions

/-
  A fanout subscription receives the messages that match its
  pattern, in the order of their dispatches.

  Main declarations:
    * `LocalRouter.receivedFrom`
    * `LocalRouter.Event.matched?`
    * `LocalRouter.fanout_stream_law`
-/

------------------------------------------------------------
-- Histories
------------------------------------------------------------

namespace Qanat

namespace Bus

namespace LocalRouter

open Transition

variable {M : Type}

/- What the subscriber took from its stream. -/
def Event.received? (channel : ChannelId) :
    Event M → Option M
| .received c message =>
    if c = channel then some message else none
| _ => none

def receivedFrom
    (channel : ChannelId) (trace : List (Event M)) : List M :=
  trace.filterMap (Event.received? channel)

/- The message of a matching dispatch that succeeded. -/
def Event.matched? (pattern : String) : Event M → Option M
| .dispatched subject message (.ok ()) =>
    if wildcardMatch pattern subject then
      some message
    else
      none
| _ => none

theorem receivedFrom_append
    {channel : ChannelId} {trace : List (Event M)}
    {e : Event M}
    (hOther : e.received? channel = none) :
    receivedFrom channel (trace ++ [e]) =
      receivedFrom channel trace := by
  simp [receivedFrom, hOther]

/- The step that dispatches a message. -/
theorem Step.of_dispatched
    {s s' : State M} {subject : String} {message : M}
    {result : Except BusError Unit}
    (hStep : Step s (.dispatched subject message result) s') :
    result = (LocalRouter.dispatch s subject message).2 ∧
      s' = (LocalRouter.dispatch s subject message).1 := by
  generalize hEvent :
    Event.dispatched subject message result = e at hStep
  cases hStep with
  | dispatch =>
      cases hEvent
      exact ⟨rfl, rfl⟩
  | _ => cases hEvent

/- A dispatch, as its reply and the states around it tell. -/
theorem Consistent.dispatched
    {s s' : State M} {subject : String} {message : M}
    {result : Except BusError Unit}
    (hCons : Consistent s)
    (hStep : Step s (.dispatched subject message result) s') :
    Dispatched s subject message s' result := by
  rcases hStep.of_dispatched with ⟨rfl, rfl⟩
  exact hCons.dispatch_spec subject message

/- Channels are never forgotten. -/
theorem Consistent.channels_length
    {s s' : State M} {e : Event M}
    (hCons : Consistent s)
    (hStep : Step s e s') :
    s.channels.length ≤ s'.channels.length := by
  cases hStep with
  | @dispatch subject message =>
      exact Nat.le_of_eq
        (dispatch_channels_length s subject message).symm
  | subscribe => simp [State.subscribe]
  | @subscribeGroup pattern group id hOk =>
      rcases hCons.subscribeGroup_spec pattern group with
        ⟨router, _, hState, _⟩ | ⟨_, hError, _⟩
      · simp [hState, State.subscribe]
      · rw [hOk] at hError
        cases hError
  | rejectGroup hError =>
      rw [hCons.of_groupRejected (Step.rejectGroup hError)]
  | receive hChannel => simp
  | drop hChannel => simp

/- Nothing was received from a channel that does not exist. -/
theorem receivedFrom_eq_nil
    {trace : List (Event M)} {s : State M}
    (hReach : (lts M).Reachable trace s)
    {channel : ChannelId}
    (hNew : s.channels.length ≤ channel) :
    receivedFrom channel trace = [] := by
  induction hReach with
  | initial _ => rfl
  | @step trace s s' e hReach hStep ih =>
      have hCons := consistent_of_reachable hReach
      have hOld : s.channels.length ≤ channel :=
        Nat.le_trans (hCons.channels_length hStep) hNew
      rw [receivedFrom_append, ih hOld]
      cases hStep with
      | @receive c message rest hChannel =>
          have hBound :=
            (List.getElem?_eq_some_iff.mp hChannel).1
          have hNe : c ≠ channel :=
            Nat.ne_of_lt (Nat.lt_of_lt_of_le hBound hOld)
          simp [Event.received?, hNe]
      | _ => rfl

end LocalRouter

end Bus

end Qanat

------------------------------------------------------------
-- The Stream of a Subscription
------------------------------------------------------------

namespace Qanat

namespace Bus

namespace LocalRouter

open Transition

variable {M : Type}

/-
  While the stream of a fanout subscription is open, its
  consumer is in the table, and what was received and what is
  queued are the messages that matched `later` on.
-/
structure Follows
    (pattern : String) (channel : ChannelId)
    (trace later : List (Event M)) (s : State M) : Prop where
  known : channel < s.channels.length
  consumer :
    ∀ queue, s.channels[channel]? = some ⟨true, queue⟩ →
      ∃ id, s.senders.lookup id = some channel ∧
        s.router.Subscribed id (.fanout pattern)
  stream :
    ∀ queue, s.channels[channel]? = some ⟨true, queue⟩ →
      receivedFrom channel trace ++ queue =
        later.filterMap (Event.matched? pattern)

/- A run that goes on keeps its subscriptions. -/
theorem Follows.extend
    {pattern : String} {channel : ChannelId}
    {trace later : List (Event M)} {s : State M}
    (hReach : (lts M).Reachable trace s)
    (hSubscribed : Event.subscribed pattern channel ∈ trace)
    (hStream :
      ∀ queue, s.channels[channel]? = some ⟨true, queue⟩ →
        receivedFrom channel trace ++ queue =
          later.filterMap (Event.matched? pattern)) :
    Follows pattern channel trace later s where
  known :=
    (registered_of_reachable hReach).known _ _
      (mem_joined_fanout hSubscribed)
  consumer := fun queue =>
    (registered_of_reachable hReach).consumer _ _ queue
      (mem_joined_fanout hSubscribed)
  stream := hStream

section

variable {pattern : String} {channel c : ChannelId}
variable {trace later : List (Event M)} {s s' : State M}
variable {e : Event M} {queue' : List M}

/- A dispatch reaches the stream if the subject matches. -/
theorem Follows.dispatch
    {subject : String} {message : M}
    {result : Except BusError Unit}
    (hFollows : Follows pattern channel trace later s)
    (hCons : Consistent s)
    (hDispatched : Dispatched s subject message s' result)
    (hOpen : s'.channels[channel]? = some ⟨true, queue'⟩) :
    receivedFrom channel
          (trace ++ [.dispatched subject message result]) ++
        queue' =
      (later ++
        [Event.dispatched subject message result]).filterMap
          (Event.matched? pattern) := by
  rcases hDispatched.open_before hOpen with ⟨queue, hQueue⟩
  rcases hFollows.consumer queue hQueue with
    ⟨id, hSender, hSubscribed⟩
  have hOld := hFollows.stream queue hQueue
  have hRecipient :
      channel ∈ recipients s subject ↔
        wildcardMatch pattern subject = true := by
    rw [hCons.mem_recipients_iff hSender hQueue,
      hCons.table.fanout_mem_route_iff hSubscribed]
  rw [receivedFrom_append rfl, List.filterMap_append, ← hOld]
  rcases hDispatched.outcome with
    ⟨rfl, hChannels⟩ | ⟨rfl, hChannels⟩
  · rw [hChannels, hQueue] at hOpen
    by_cases hMatch : wildcardMatch pattern subject = true
    · rw [Option.map_some,
        if_pos (hRecipient.mpr hMatch)] at hOpen
      cases hOpen
      simp [Event.matched?, hMatch]
    · rw [Option.map_some,
        if_neg (fun hMem => hMatch (hRecipient.mp hMem))]
        at hOpen
      cases hOpen
      simp [Event.matched?, hMatch]
  · rw [hChannels, hQueue] at hOpen
    cases hOpen
    simp [Event.matched?]

/- What is neither dispatched nor received leaves it alone. -/
theorem Follows.keep
    (hFollows : Follows pattern channel trace later s)
    (hChannel :
      s'.channels[channel]? = s.channels[channel]?)
    (hReceived : e.received? channel = none)
    (hMatched : e.matched? pattern = none)
    (hOpen : s'.channels[channel]? = some ⟨true, queue'⟩) :
    receivedFrom channel (trace ++ [e]) ++ queue' =
      (later ++ [e]).filterMap (Event.matched? pattern) := by
  rw [hChannel] at hOpen
  rw [receivedFrom_append hReceived, List.filterMap_append,
    hFollows.stream queue' hOpen]
  simp [hMatched]

/- Another subscription makes another channel. -/
theorem Follows.getElem?_subscribe
    (hFollows : Follows pattern channel trace later s)
    (router : SubjectRouter) (id : ConsumerId) :
    (s.subscribe router id).channels[channel]? =
      s.channels[channel]? :=
  List.getElem?_append_left hFollows.known

/- A subscriber takes from or drops some stream. -/
theorem Follows.set
    {old new : Channel M}
    (hFollows : Follows pattern channel trace later s)
    (hOld : s.channels[c]? = some old)
    (hMatched : e.matched? pattern = none)
    (hReceived : c ≠ channel → e.received? channel = none)
    (hNew :
      ∀ queue, c = channel → new = ⟨true, queue⟩ →
        ∃ queue', old = ⟨true, queue'⟩ ∧
          (e.received? channel).toList ++ queue = queue')
    (hOpen :
      (s.channels.set c new)[channel]? =
        some ⟨true, queue'⟩) :
    receivedFrom channel (trace ++ [e]) ++ queue' =
      (later ++ [e]).filterMap (Event.matched? pattern) := by
  have hBefore :
      ∃ queue, s.channels[channel]? = some ⟨true, queue⟩ ∧
        (e.received? channel).toList ++ queue' = queue := by
    by_cases hEq : c = channel
    · subst hEq
      rw [List.getElem?_set_self
        (List.getElem?_eq_some_iff.mp hOld).1] at hOpen
      rcases hNew queue' rfl (Option.some.inj hOpen) with
        ⟨queue, hSame, hQueue⟩
      exact ⟨queue, by rw [hOld, hSame], hQueue⟩
    · rw [List.getElem?_set_ne hEq] at hOpen
      exact ⟨queue', hOpen, by simp [hReceived hEq]⟩
  rcases hBefore with ⟨queue, hQueue, hSame⟩
  have hStream := hFollows.stream queue hQueue
  unfold receivedFrom at hStream ⊢
  rw [List.filterMap_append, Lists.filterMap_singleton,
    List.append_assoc, hSame, hStream, List.filterMap_append]
  simp [hMatched]

theorem Follows.step
    (hFollows : Follows pattern channel trace later s)
    (hReach : (lts M).Reachable trace s)
    (hSubscribed : Event.subscribed pattern channel ∈ trace)
    (hStep : Step s e s') :
    Follows pattern channel (trace ++ [e]) (later ++ [e])
      s' := by
  have hCons := consistent_of_reachable hReach
  apply Follows.extend (hReach.step hStep)
    (List.mem_append_left _ hSubscribed)
  intro queue' hOpen
  cases hStep with
  | @dispatch subject message =>
      exact hFollows.dispatch hCons
        (hCons.dispatch_spec subject message) hOpen
  | @subscribe other =>
      exact hFollows.keep (hFollows.getElem?_subscribe _ _)
        rfl rfl hOpen
  | @subscribeGroup other group id hOk =>
      rcases hCons.subscribeGroup_spec other group with
        ⟨router, _, hState, _⟩ | ⟨_, hError, _⟩
      · rw [hState] at hOpen
        exact hFollows.keep (hFollows.getElem?_subscribe _ _)
          rfl rfl hOpen
      · rw [hOk] at hError
        cases hError
  | rejectGroup hError =>
      rw [hCons.of_groupRejected (Step.rejectGroup hError)]
        at hOpen
      exact hFollows.keep rfl rfl rfl hOpen
  | @receive other message rest hChannel =>
      refine hFollows.set hChannel rfl ?_ ?_ hOpen
      · intro hNe
        simp [Event.received?, hNe]
      · intro queue hEq hSame
        cases hSame
        exact ⟨_, rfl, by simp [Event.received?, hEq]⟩
  | @drop other queue hChannel =>
      refine hFollows.set hChannel rfl (fun _ => rfl) ?_ hOpen
      intro queue' _ hSame
      cases hSame

end

/- Every fanout subscription of a run is followed. -/
theorem follows_of_reachable
    {trace : List (Event M)} {s : State M}
    (hReach : (lts M).Reachable trace s)
    {earlier later : List (Event M)} {pattern : String}
    {channel : ChannelId}
    (hTrace :
      trace = earlier ++ .subscribed pattern channel :: later) :
    Follows pattern channel trace later s := by
  induction hReach generalizing later with
  | initial _ =>
      have hLength := congrArg List.length hTrace
      simp at hLength
  | @step trace s s' e hReach hStep ih =>
      have hCons := consistent_of_reachable hReach
      rcases List.eq_nil_or_concat later with
        rfl | ⟨front, last, rfl⟩
      · have hBoth :
            trace = earlier ∧ e = .subscribed pattern channel :=
          by simpa using hTrace
        rcases hBoth with ⟨rfl, rfl⟩
        apply Follows.extend (hReach.step hStep)
          (List.mem_append_right _ (List.mem_singleton_self _))
        intro queue hOpen
        cases hStep with
        | subscribe =>
            unfold State.subscribe at hOpen
            rw [List.getElem?_concat_length] at hOpen
            cases hOpen
            rw [receivedFrom_append rfl,
              receivedFrom_eq_nil hReach (Nat.le_refl _)]
            rfl
      · have hBoth :
            trace ++ [e] =
              (earlier ++ .subscribed pattern channel ::
                front) ++ [last] := by
          rw [hTrace]
          simp
        rcases List.append_inj' hBoth rfl with ⟨hFront, hLast⟩
        cases hLast
        rw [List.concat_eq_append]
        exact (ih hFront).step hReach (by simp [hFront]) hStep

/-
  While the stream of a fanout subscription is open, what it
  has received and what is queued for it are the messages of
  the later dispatches that succeeded and match, in their
  order.  A dispatch that fails sends nothing to anyone.
-/
theorem fanout_stream_law
    {trace : List (Event M)} {s : State M}
    (hReach : (lts M).Reachable trace s) :
    (∀ earlier later pattern channel queue,
      trace = earlier ++ .subscribed pattern channel :: later →
        s.channels[channel]? = some ⟨true, queue⟩ →
          receivedFrom channel trace ++ queue =
            later.filterMap (Event.matched? pattern)) ∧
    (∀ subject message error s',
      Step s (.dispatched subject message (.error error)) s' →
        s'.channels = s.channels) := by
  refine ⟨?_, ?_⟩
  · intro earlier later pattern channel queue hTrace hOpen
    exact (follows_of_reachable hReach hTrace).stream queue
      hOpen
  · intro subject message error s' hStep
    rcases ((consistent_of_reachable hReach).dispatched
        hStep).outcome with ⟨hOk, _⟩ | ⟨_, hChannels⟩
    · cases hOk
    · exact hChannels

/- One order has been received, the next one is queued. -/
theorem fanout_stream_law_orders :
    receivedFrom 0
        (ordersTrace ++
          [.dispatched "orders.paid" 8 (.ok ())]) ++ [8] =
      [7, 8] := by
  have hPaid := orders_reachable.step
    (@Step.dispatch Nat _ "orders.paid" 8)
  exact (fanout_stream_law hPaid).1 [] _ "orders.*" 0 [8]
    rfl rfl

end LocalRouter

end Bus

end Qanat
