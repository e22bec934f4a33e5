import Qanat.Bus.Nng
import Qanat.Bus.Redis
import Qanat.Bus.Subscriptions

/-
  The receive loops of the Redis and NNG buses over the
  actor of their local router.

  The loop of Redis takes a frame only after the one before
  it is routed.  On NNG, a thread decodes the frames, and a
  task routes them; callers route what they publish there,
  too.

  Main declarations:
    * `ReceiveLoop.State`, `ReceiveLoop.Step`
    * `ReceiveLoop.lts`
    * `ReceiveLoop.router_reachable`
    * `ReceiveLoop.inOrder_of_reachable`
-/

------------------------------------------------------------
-- Loops
------------------------------------------------------------

namespace Qanat

namespace Bus

namespace ReceiveLoop

inductive Backend where
| redis
| nng
deriving DecidableEq, Repr

/- The channel between the thread and the task of NNG. -/
def bridgeCapacity : Nat := 256

/-
  `routing` is the message that the loop awaits the dispatch
  of, `publishing` those that callers have sent and not yet
  routed.
-/
structure State where
  router : LocalRouter.State RawMessage
  nextMsgId : UInt64
  bridge : List Wire.DecodedFrame
  routing : Option RawMessage
  publishing : List RawMessage

def State.start : State where
  router := LocalRouter.State.start
  nextMsgId := 1
  bridge := []
  routing := none
  publishing := []

/- `dispatch_local`. -/
def dispatchLocal
    (s : LocalRouter.State RawMessage) (message : RawMessage) :
    LocalRouter.State RawMessage × Except BusError Unit :=
  LocalRouter.dispatch s message.envelope.subject message

/- What the thread of NNG sends over the bridge. -/
def decoded? (bytes : Bytes) : Option Wire.DecodedFrame :=
  (Wire.decode usizeMax bytes).toOption

/- The loop hands a message over to the router. -/
def State.handOver (s : State) : Option RawMessage → State
| none => s
| some message =>
    { s with
      nextMsgId := s.nextMsgId + 1
      routing := some message }

@[simp] theorem handOver_router
    (s : State) (message : Option RawMessage) :
    (s.handOver message).router = s.router := by
  cases message <;> rfl

@[simp] theorem handOver_bridge
    (s : State) (message : Option RawMessage) :
    (s.handOver message).bridge = s.bridge := by
  cases message <;> rfl

/- The loop goes on, whatever the result of the dispatch. -/
def State.route (s : State) (message : RawMessage) : State :=
  { s with
    router := (dispatchLocal s.router message).1
    routing := none }

end ReceiveLoop

end Bus

end Qanat

------------------------------------------------------------
-- Steps
------------------------------------------------------------

namespace Qanat

namespace Bus

namespace ReceiveLoop

open Transition

/-
  `client`: a subscription, or what a subscriber does to its
  stream.  `published`, `routedOwn`, `abandoned`: a caller on
  NNG sends a frame, routes its message, or is dropped.
-/
inductive Event where
| arrived (bytes : Bytes)
| taken
| routed
    (message : RawMessage) (result : Except BusError Unit)
| client (event : LocalRouter.Event RawMessage)
| published (sent : Nng.Sent)
| routedOwn
    (message : RawMessage) (result : Except BusError Unit)
| abandoned (message : RawMessage)

/- What the actor of the router sees of an event. -/
def Event.router? :
    Event → Option (LocalRouter.Event RawMessage)
| .routed message result =>
    some (.dispatched message.envelope.subject message result)
| .routedOwn message result =>
    some (.dispatched message.envelope.subject message result)
| .client event => some event
| _ => none

/- The frame that arrives, if it is one. -/
def Event.frame? : Event → Option Wire.DecodedFrame
| .arrived bytes => decoded? bytes
| _ => none

/- The message of a frame that is routed. -/
def Event.routed? : Event → Option RawMessage
| .routed message _ => some message
| _ => none

inductive Step : Backend → State → Event → State → Prop where
| receive
    {s : State} {bytes : Bytes} {iteration : HeaderIteration}
    {fresh : String} :
    s.routing = none →
    Step .redis s (.arrived bytes)
      (s.handOver
        (Redis.receive iteration fresh s.nextMsgId bytes))
| bridge {s : State} {bytes : Bytes} :
    ((decoded? bytes).isSome →
      s.bridge.length < bridgeCapacity) →
    Step .nng s (.arrived bytes)
      { s with bridge := s.bridge ++ (decoded? bytes).toList }
| take
    {s : State} {frame : Wire.DecodedFrame}
    {rest : List Wire.DecodedFrame}
    {iteration : HeaderIteration} {fresh : String} :
    s.routing = none →
    s.bridge = frame :: rest →
    Step .nng s .taken
      { s with
        nextMsgId := s.nextMsgId + 1
        bridge := rest
        routing :=
          some (rebuild iteration fresh s.nextMsgId frame) }
| route
    {backend : Backend} {s : State} {message : RawMessage} :
    s.routing = some message →
    Step backend s
      (.routed message (dispatchLocal s.router message).2)
      (s.route message)
| client
    {backend : Backend} {s : State}
    {event : LocalRouter.Event RawMessage}
    {router : LocalRouter.State RawMessage} :
    LocalRouter.Step s.router event router →
    (∀ subject message result,
      event ≠ .dispatched subject message result) →
    Step backend s (.client event) { s with router := router }
| publish
    {s : State} {socket : Bytes → Except BusError Unit}
    {iteration order : HeaderIteration}
    {fresh subject : String}
    {payload : Except BusError Bytes}
    {headers : Option Headers} {sent : Nng.Sent} :
    Nng.publish socket iteration order fresh s.nextMsgId
        subject payload headers =
      .ok sent →
    Step .nng s (.published sent)
      { s with
        nextMsgId := s.nextMsgId + 1
        publishing := s.publishing ++ [sent.routed] }
| dispatchRaw
    {s : State} {socket : Bytes → Except BusError Unit}
    {order : HeaderIteration} {subject : String}
    {message : RawMessage} {sent : Nng.Sent} :
    Nng.dispatchRaw socket order subject message = .ok sent →
    Step .nng s (.published sent)
      { s with publishing := s.publishing ++ [sent.routed] }
| routeOwn
    {s : State} {message : RawMessage}
    {front back : List RawMessage} :
    s.publishing = front ++ message :: back →
    Step .nng s
      (.routedOwn message (dispatchLocal s.router message).2)
      { s with
        router := (dispatchLocal s.router message).1
        publishing := front ++ back }
| abandon
    {s : State} {message : RawMessage}
    {front back : List RawMessage} :
    s.publishing = front ++ message :: back →
    Step .nng s (.abandoned message)
      { s with publishing := front ++ back }

/- One bus with its receive loop and its subscribers. -/
def lts (backend : Backend) : Lts State Event where
  initial s := s = State.start
  step := Step backend

/- The router of the loop makes a step of its own, or none. -/
theorem Step.router
    {backend : Backend} {s s' : State} {e : Event}
    (hStep : Step backend s e s') :
    e.router?.elim (s'.router = s.router)
      (fun event =>
        LocalRouter.Step s.router event s'.router) := by
  cases hStep with
  | receive _ => exact handOver_router _ _
  | bridge _ => rfl
  | take _ _ => rfl
  | route _ => exact LocalRouter.Step.dispatch
  | client hClient _ => exact hClient
  | publish _ => rfl
  | dispatchRaw _ => rfl
  | routeOwn _ => exact LocalRouter.Step.dispatch
  | abandon _ => rfl

/- Runs of the loop are runs of its router. -/
theorem router_reachable
    {backend : Backend} {trace : List Event} {s : State}
    (hReach : (lts backend).Reachable trace s) :
    (LocalRouter.lts RawMessage).Reachable
      (trace.filterMap Event.router?) s.router := by
  apply hReach.component State.router Event.router?
  · rintro s rfl
    rfl
  · intro s e s' hStep
    exact hStep.router

theorem consistent_of_reachable
    {backend : Backend} {trace : List Event} {s : State}
    (hReach : (lts backend).Reachable trace s) :
    LocalRouter.Consistent s.router :=
  LocalRouter.consistent_of_reachable (router_reachable hReach)

/- The message that a frame was routed as. -/
theorem Step.of_routed
    {backend : Backend} {s s' : State} {message : RawMessage}
    {result : Except BusError Unit}
    (hStep : Step backend s (.routed message result) s') :
    s.routing = some message ∧
      result = (dispatchLocal s.router message).2 ∧
      s' = s.route message := by
  generalize hEvent : Event.routed message result = e at hStep
  cases hStep with
  | route hRouting =>
      cases hEvent
      exact ⟨hRouting, rfl, rfl⟩
  | _ => cases hEvent

end ReceiveLoop

end Bus

end Qanat

------------------------------------------------------------
-- Frames and Messages
------------------------------------------------------------

namespace Qanat

namespace Bus

namespace ReceiveLoop

/- The message was rebuilt from the frame. -/
def IsMessageOf
    (frame : Wire.DecodedFrame) (message : RawMessage) :
    Prop :=
  ∃ iteration fresh id,
    message = rebuild iteration fresh id frame

/-
  The messages that were routed, and the one that is being
  routed, are those of the frames that arrived, in their
  order; the last ones may still wait on the bridge.
-/
def InOrder (trace : List Event) (s : State) : Prop :=
  ∃ handed,
    trace.filterMap Event.frame? = handed ++ s.bridge ∧
      List.Forall₂ IsMessageOf handed
        (trace.filterMap Event.routed? ++ s.routing.toList)

/- A frame is received if it is one. -/
theorem receive_eq
    (iteration : HeaderIteration) (fresh : String)
    (id : UInt64) (bytes : Bytes) :
    Redis.receive iteration fresh id bytes =
      (decoded? bytes).map (rebuild iteration fresh id) := by
  unfold Redis.receive receiveFrame decoded?
  cases Wire.decode usizeMax bytes <;> rfl

/- What is published without an overflow is a frame. -/
theorem decoded_of_fits
    {subject : String} {headers : Option Headers}
    (hFits : Wire.Fits subject headers)
    (order : HeaderIteration) (payload : Bytes) :
    ∃ frame, frame.subject = subject ∧
      frame.payload = payload ∧
      decoded?
          (Redis.publishBytes order subject payload headers) =
        some frame := by
  rcases receiveFrame_of_fits hFits order payload with
    ⟨headers', _, hReceived⟩
  have hHere :=
    hReceived FiniteMap.Iteration.identity "fresh" 0
  change Redis.receive FiniteMap.Iteration.identity "fresh" 0
    (Redis.publishBytes order subject payload headers) = _
    at hHere
  rw [receive_eq, Option.map_eq_some_iff] at hHere
  rcases hHere with ⟨frame, hDecoded, hSame⟩
  refine ⟨frame, ?_, ?_, hDecoded⟩
  · exact congrArg (fun m => m.envelope.subject) hSame
  · exact congrArg RawMessage.payload hSame

/- One more frame and the message that it is rebuilt as. -/
theorem rebuilt_concat
    {frames : List Wire.DecodedFrame}
    {messages : List RawMessage}
    (hMessages : List.Forall₂ IsMessageOf frames messages)
    (frame : Wire.DecodedFrame) (iteration : HeaderIteration)
    (fresh : String) (id : UInt64) :
    List.Forall₂ IsMessageOf (frames ++ [frame])
      (messages ++ [rebuild iteration fresh id frame]) :=
  List.rel_append hMessages
    (.cons ⟨iteration, fresh, id, rfl⟩ .nil)

/- The loop of Redis has no bridge. -/
theorem bridge_of_redis
    {trace : List Event} {s : State}
    (hReach : (lts .redis).Reachable trace s) :
    s.bridge = [] := by
  apply hReach.stateInvariant
  · rintro s rfl
    rfl
  · intro s e s' hEmpty hStep
    cases hStep with
    | receive _ => rwa [handOver_bridge]
    | route _ => exact hEmpty
    | client _ _ => exact hEmpty

theorem InOrder.step
    {backend : Backend} {trace : List Event} {s s' : State}
    {e : Event}
    (hOrder : InOrder trace s)
    (hRedis : backend = .redis → s.bridge = [])
    (hStep : Step backend s e s') :
    InOrder (trace ++ [e]) s' := by
  rcases hOrder with ⟨handed, hFrames, hMessages⟩
  unfold InOrder
  rw [List.filterMap_append, Lists.filterMap_singleton,
    List.filterMap_append, Lists.filterMap_singleton, hFrames]
  cases hStep with
  | @receive _ bytes iteration fresh hIdle =>
      rw [hIdle, Option.toList_none, List.append_nil]
        at hMessages
      rw [receive_eq, handOver_bridge, hRedis rfl]
      cases hDecoded : decoded? bytes with
      | none =>
          refine ⟨handed, ?_, ?_⟩
          · simp [Event.frame?, hDecoded]
          · simpa [Event.routed?, State.handOver, hIdle]
              using hMessages
      | some frame =>
          refine ⟨handed ++ [frame], ?_, ?_⟩
          · simp [Event.frame?, hDecoded]
          · simpa [Event.routed?, State.handOver] using
              rebuilt_concat hMessages frame iteration fresh
                s.nextMsgId
  | bridge _ =>
      refine ⟨handed, ?_, ?_⟩
      · exact List.append_assoc _ _ _
      · simpa [Event.routed?] using hMessages
  | @take _ frame rest iteration fresh hIdle hBridge =>
      rw [hIdle, Option.toList_none, List.append_nil]
        at hMessages
      refine ⟨handed ++ [frame], ?_, ?_⟩
      · simp [Event.frame?, hBridge]
      · simpa [Event.routed?] using
          rebuilt_concat hMessages frame iteration fresh
            s.nextMsgId
  | @route _ _ message hRouting =>
      refine ⟨handed, ?_, ?_⟩
      · simp [Event.frame?, State.route]
      · simpa [Event.routed?, State.route, hRouting]
          using hMessages
  | client _ _ =>
      exact ⟨handed, by simp [Event.frame?],
        by simpa [Event.routed?] using hMessages⟩
  | publish _ =>
      exact ⟨handed, by simp [Event.frame?],
        by simpa [Event.routed?] using hMessages⟩
  | dispatchRaw _ =>
      exact ⟨handed, by simp [Event.frame?],
        by simpa [Event.routed?] using hMessages⟩
  | routeOwn _ =>
      exact ⟨handed, by simp [Event.frame?],
        by simpa [Event.routed?] using hMessages⟩
  | abandon _ =>
      exact ⟨handed, by simp [Event.frame?],
        by simpa [Event.routed?] using hMessages⟩

theorem inOrder_of_reachable
    {backend : Backend} {trace : List Event} {s : State}
    (hReach : (lts backend).Reachable trace s) :
    InOrder trace s := by
  apply hReach.invariant
  · rintro s rfl
    exact ⟨[], rfl, .nil⟩
  · intro trace s e s' hReach hOrder hStep
    refine hOrder.step ?_ hStep
    rintro rfl
    exact bridge_of_redis hReach

/- What the loop of Redis has in hand after a frame. -/
theorem Step.of_arrived
    {s s' : State} {bytes : Bytes}
    (hStep : Step .redis s (.arrived bytes) s') :
    s.routing = none ∧
      (∀ message, s'.routing = some message →
        ∃ frame, decoded? bytes = some frame ∧
          IsMessageOf frame message) ∧
      ∀ frame, decoded? bytes = some frame →
        s'.routing ≠ none := by
  cases hStep with
  | @receive _ _ iteration fresh hIdle =>
      rw [receive_eq]
      refine ⟨hIdle, ?_, ?_⟩
      · intro message hSome
        cases hDecoded : decoded? bytes with
        | none =>
            rw [hDecoded] at hSome
            simp [State.handOver, hIdle] at hSome
        | some frame =>
            rw [hDecoded] at hSome
            cases hSome
            exact ⟨frame, rfl, iteration, fresh, _, rfl⟩
      · intro frame hDecoded
        rw [hDecoded]
        simp [State.handOver]

/- A client does not disturb the loop. -/
theorem Step.of_client
    {backend : Backend} {s s' : State}
    {event : LocalRouter.Event RawMessage}
    (hStep : Step backend s (.client event) s') :
    s'.routing = s.routing := by
  cases hStep with
  | client _ _ => rfl

end ReceiveLoop

end Bus

end Qanat
