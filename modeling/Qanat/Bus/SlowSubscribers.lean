import Qanat.Bus.ReceiveLoop

/-
  A frame that arrives is sent to all open fanout
  subscribers that match, or to none of them: one stream
  that takes no more is enough to lose it for all.

  Main declarations:
    * `ReceiveLoop.ReachesAll`
    * `ReceiveLoop.frame_reaches_all_or_none`
    * `ReceiveLoop.crowded_stream_starves_another`
-/

------------------------------------------------------------
-- All or None
------------------------------------------------------------

namespace Qanat

namespace Bus

namespace ReceiveLoop

open Transition

/- Every open fanout subscriber that matches is sent it. -/
def ReachesAll
    (trace : List Event) (s s' : State)
    (message : RawMessage) : Prop :=
  ∀ pattern channel queue,
    Event.client (.subscribed pattern channel) ∈ trace →
      s.router.channels[channel]? = some ⟨true, queue⟩ →
        wildcardMatch pattern message.envelope.subject = true →
          s'.router.channels[channel]? =
            some ⟨true, queue ++ [message]⟩

/- What a dispatch by the loop does to the streams. -/
theorem reachesAll_of_accepts
    {backend : Backend} {trace : List Event} {s : State}
    {message : RawMessage}
    (hReach : (lts backend).Reachable trace s)
    (hAccepts : s.router.Accepts message.envelope.subject) :
    ReachesAll trace s (s.route message) message := by
  have hRouter := router_reachable hReach
  have hCons := LocalRouter.consistent_of_reachable hRouter
  have hReg := LocalRouter.registered_of_reachable hRouter
  intro pattern channel queue hMem hOpen hMatch
  have hSubscribed :
      LocalRouter.Event.subscribed pattern channel ∈
        trace.filterMap Event.router? :=
    List.mem_filterMap.mpr ⟨_, hMem, rfl⟩
  have hRecipient :=
    (hReg.fanout_recipient_iff hCons hSubscribed hOpen
      message.envelope.subject).mpr hMatch
  exact ((hCons.dispatch_accepted hAccepts message).sent
    channel).trans
      (by rw [hOpen, Option.map_some, if_pos hRecipient])

/- A dispatch that finds a crowded stream sends nothing. -/
theorem channels_of_not_accepts
    {s : State} {message : RawMessage}
    (hCons : LocalRouter.Consistent s.router)
    (hCrowded :
      ¬ s.router.Accepts message.envelope.subject) :
    (s.route message).router.channels =
      s.router.channels := by
  rcases (hCons.dispatch_spec message.envelope.subject
      message).outcome with ⟨hOk, _⟩ | ⟨_, hChannels⟩
  · exact absurd ((hCons.dispatch_ok_iff _ _).mp hOk) hCrowded
  · exact hChannels

/-
  The frames that arrive are routed in their order.  Each is
  sent to every open fanout subscriber that matches if no
  open stream that it is routed to is crowded; otherwise it
  is sent to none.
-/
theorem frame_reaches_all_or_none
    {backend : Backend} {trace : List Event} {s : State}
    (hReach : (lts backend).Reachable trace s) :
    InOrder trace s ∧
    ∀ message result s',
      Step backend s (.routed message result) s' →
        (s.router.Accepts message.envelope.subject →
          ReachesAll trace s s' message) ∧
        (¬ s.router.Accepts message.envelope.subject →
          s'.router.channels = s.router.channels) := by
  refine ⟨inOrder_of_reachable hReach, ?_⟩
  intro message result s' hStep
  rcases hStep.of_routed with ⟨_, _, rfl⟩
  exact ⟨reachesAll_of_accepts hReach,
    channels_of_not_accepts (consistent_of_reachable hReach)⟩

end ReceiveLoop

end Bus

end Qanat

------------------------------------------------------------
-- A Crowded Stream
------------------------------------------------------------

namespace Qanat

namespace Bus

namespace ReceiveLoop

open Transition

/- Two fanout subscribers to the same orders. -/
def pairState
    (first second : List RawMessage) :
    LocalRouter.State RawMessage where
  router :=
    { bindings :=
        [{ subjectPattern := "orders.*"
           queue := none
           consumers := [1, 2]
           rrIndex := 0 }]
      nextId := 3 }
  senders :=
    ((∅ : AList (fun _ : ConsumerId =>
      LocalRouter.ChannelId)).insert 1 0).insert 2 1
  channels := [⟨true, first⟩, ⟨true, second⟩]

theorem route_pair (first second : List RawMessage) :
    (pairState first second).router.route "orders.created" =
      ((pairState first second).router, [1, 2]) := rfl

/- Both are sent an order while the first has room. -/
theorem dispatch_pair
    {queue : List RawMessage}
    (hRoom : queue.length < LocalRouter.subscriptionBuffer)
    {message : RawMessage}
    (hSubject : message.envelope.subject = "orders.created") :
    dispatchLocal (pairState queue []) message =
      (pairState (queue ++ [message]) [message], .ok ()) := by
  have hFirst :
      (pairState queue []).senders.lookup 1 = some 0 := rfl
  have hSecond :
      (pairState queue []).senders.lookup 2 = some 1 := rfl
  have hPermit :
      LocalRouter.tryReserve (pairState queue []).channels []
        0 = .permit := if_pos hRoom
  have hOther :
      LocalRouter.tryReserve (pairState queue []).channels [0]
        1 = .permit := rfl
  have hReserve :
      LocalRouter.reserve (pairState queue []).senders
          (pairState queue []).channels [1, 2] [] [] =
        .reserved [0, 1] [] := by
    simp only [LocalRouter.reserve, hFirst, hSecond, hPermit,
      List.nil_append, hOther, List.singleton_append]
  unfold dispatchLocal LocalRouter.dispatch
  rw [hSubject, route_pair]
  simp only [hReserve]
  rfl

/- A loop on Redis with nothing in hand, or with a message. -/
def loopState
    (router : LocalRouter.State RawMessage) (id : UInt64)
    (routing : Option RawMessage) : State where
  router := router
  nextMsgId := id
  bridge := []
  routing := routing
  publishing := []

/- The frame of an order. -/
def orderFrame : Bytes :=
  Redis.publishBytes FiniteMap.Iteration.identity
    "orders.created" [] none

/- One more order arrives. -/
theorem order_arrives
    {trace : List Event}
    {router : LocalRouter.State RawMessage} {id : UInt64}
    (hReach :
      (lts .redis).Reachable trace (loopState router id none)) :
    ∃ message,
      message.envelope.subject = "orders.created" ∧
        (lts .redis).Reachable (trace ++ [.arrived orderFrame])
          (loopState router (id + 1) (some message)) := by
  have hFits : Wire.Fits "orders.created" none := by
    decide +kernel
  rcases decoded_of_fits hFits FiniteMap.Iteration.identity []
    with ⟨frame, hSubject, _, hDecoded⟩
  have hFrame : decoded? orderFrame = some frame := hDecoded
  have hIdle : (loopState router id none).routing = none := rfl
  have hStep := hReach.step (@Step.receive _ orderFrame
    FiniteMap.Iteration.identity "fresh" hIdle)
  rw [receive_eq, hFrame] at hStep
  exact ⟨_, hSubject, hStep⟩

/- The second subscriber keeps up, the first does not. -/
theorem pair_reachable
    (n : Nat) (hBound : n ≤ LocalRouter.subscriptionBuffer) :
    ∃ trace queue id,
      (lts .redis).Reachable trace
          (loopState (pairState queue []) id none) ∧
        Event.client (.subscribed "orders.*" 1) ∈ trace ∧
        queue.length = n := by
  induction n with
  | zero =>
      have hStart :
          (lts .redis).Reachable [] State.start :=
        Lts.Reachable.initial rfl
      have hFirst := hStart.step (@Step.client .redis _ _ _
        (@LocalRouter.Step.subscribe _ _ "orders.*") (by simp))
      have hSecond := hFirst.step (@Step.client .redis _ _ _
        (@LocalRouter.Step.subscribe _ _ "orders.*") (by simp))
      refine ⟨_, [], 1, hSecond, ?_, rfl⟩
      exact List.mem_append_right _ (List.mem_singleton_self _)
  | succ n ih =>
      rcases ih (Nat.le_of_succ_le hBound) with
        ⟨trace, queue, id, hReach, hMem, hLength⟩
      have hRoom :
          queue.length < LocalRouter.subscriptionBuffer := by
        rw [hLength]
        exact hBound
      rcases order_arrives hReach with
        ⟨message, hSubject, hArrived⟩
      have hRouted := hArrived.step (@Step.route .redis _
        message rfl)
      have hAfter :
          (loopState (pairState queue []) (id + 1)
              (some message)).route message =
            loopState
              (pairState (queue ++ [message]) [message])
              (id + 1) none := by
        unfold State.route loopState
        rw [dispatch_pair hRoom hSubject]
      rw [hAfter] at hRouted
      have hTaken := hRouted.step (@Step.client .redis _ _ _
        (@LocalRouter.Step.receive _ _ 1 message [] rfl)
        (by simp))
      refine ⟨_, queue ++ [message], id + 1, hTaken, ?_, ?_⟩
      · simp [hMem]
      · simp [hLength]

/- A subscriber with an empty queue is not sent an order. -/
theorem crowded_stream_starves_another :
    ∃ trace s message result s',
      (lts .redis).Reachable trace s ∧
        Step .redis s (.routed message result) s' ∧
        Event.client (.subscribed "orders.*" 1) ∈ trace ∧
        wildcardMatch "orders.*"
          message.envelope.subject = true ∧
        s.router.channels[1]? = some ⟨true, []⟩ ∧
        s'.router.channels[1]? = some ⟨true, []⟩ := by
  rcases pair_reachable LocalRouter.subscriptionBuffer
      (Nat.le_refl _) with
    ⟨trace, queue, id, hReach, hMem, hLength⟩
  rcases order_arrives hReach with
    ⟨message, hSubject, hArrived⟩
  have hCrowded :
      ¬ (pairState queue []).Accepts
        message.envelope.subject := by
    rw [hSubject]
    intro hAccepts
    have hTarget :
        1 ∈ ((pairState queue []).router.route
          "orders.created").2 := by simp [route_pair]
    exact hAccepts 1 hTarget 0 rfl
      ⟨queue, rfl, hLength.ge⟩
  have hChannels := channels_of_not_accepts
    (consistent_of_reachable hArrived) hCrowded
  refine ⟨_, _, message, _, _, hArrived,
    @Step.route .redis _ message rfl, ?_, ?_, rfl, ?_⟩
  · exact List.mem_append_left _ hMem
  · rw [hSubject]
    decide
  · rw [hChannels]
    rfl

/- The first order reaches both subscribers. -/
theorem frame_reaches_all_or_none_orders :
    ∃ trace s message result s',
      (lts .redis).Reachable trace s ∧
        Step .redis s (.routed message result) s' ∧
        ReachesAll trace s s' message := by
  rcases pair_reachable 0 (Nat.zero_le _) with
    ⟨trace, queue, id, hReach, _, hLength⟩
  rcases order_arrives hReach with
    ⟨message, hSubject, hArrived⟩
  have hRoom :
      queue.length < LocalRouter.subscriptionBuffer := by
    rw [hLength]
    decide
  have hAccepts :
      (pairState queue []).Accepts
        message.envelope.subject := by
    apply ((consistent_of_reachable hArrived).dispatch_ok_iff
      _ message).mp
    exact congrArg Prod.snd (dispatch_pair hRoom hSubject)
  have hStep := @Step.route .redis _ message
    (rfl : (loopState (pairState queue []) (id + 1)
      (some message)).routing = some message)
  exact ⟨_, _, message, _, _, hArrived, hStep,
    ((frame_reaches_all_or_none hArrived).2 message _ _
      hStep).1 hAccepts⟩

end ReceiveLoop

end Bus

end Qanat
