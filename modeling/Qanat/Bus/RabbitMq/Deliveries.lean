import Mathlib.Logic.Function.Basic
import Qanat.Bus.RabbitMq.Model
import Qanat.Bus.RabbitMq.Properties
import Qanat.Library.Lts

/-
  The deliveries of a RabbitMQ bus: the streams that number
  them, the actor that keeps their ackers and the callers
  that settle them.

  An acker is known by the place of its delivery among those
  of the bus.  The counter of the ids does not wrap.

  Main declarations:
    * `operation`, `settleResult`
    * `Deliveries.State`, `Deliveries.Event`
    * `Deliveries.Step`, `Deliveries.lts`
-/

------------------------------------------------------------
-- Operations on a Delivery
------------------------------------------------------------

namespace Qanat

namespace Bus

namespace RabbitMq

open Router (DeliveryDecision)

abbrev DeliveryId := Nat

abbrev Acker := Nat

/- What is asked of an acker. -/
inductive Operation where
| ack
| nack (requeue : Bool)
deriving DecidableEq

/- The operation of `settle_delivery`. -/
def operation : DeliveryDecision → Operation
| .ack => .ack
| .retry => .nack true
| .reject => .nack false

/- Its result, by what the acker returns. -/
def settleResult :
    Except String Bool → Except BusError Unit
| .ok true => .ok ()
| .ok false =>
    .error (.internal "RabbitMQ delivery was already settled")
| .error text => .error (rabbitError text)

/- The error of an id that has no acker. -/
def notPending (delivery : DeliveryId) : BusError :=
  .internal
    ("RabbitMQ delivery " ++ toString delivery ++
      " is not pending settlement")

def actorStopped : BusError :=
  .internal "RabbitMQ settlement actor stopped"

end RabbitMq

end Bus

end Qanat

------------------------------------------------------------
-- States and Events
------------------------------------------------------------

namespace Qanat

namespace Bus

namespace RabbitMq

namespace Deliveries

open Router (DeliveryDecision)

/- The streams and the settle calls, by their order. -/
abbrev StreamId := Nat

abbrev SettleId := Nat

/-
  Where `poll_next` is.  `fetched` has the delivery and its
  id, `ready` has registered the acker.
-/
inductive StreamPhase where
| absent
| resting
| fetched
    (delivery : DeliveryId) (message : RawMessage)
    (acker : Acker)
| ready (delivery : DeliveryId) (message : RawMessage)
| dropped
deriving DecidableEq

/- `SettlementCommand`. -/
inductive SettlementCommand where
| register (delivery : DeliveryId) (acker : Acker)
| settle
    (call : SettleId) (delivery : DeliveryId)
    (decision : DeliveryDecision)
deriving DecidableEq

/-
  Where the settlement actor is.  `settling` is about to call
  the acker, `awaiting` awaits what it returns; `replying`
  has the result without one.
-/
inductive ActorPhase where
| receiving
| settling
    (call : SettleId) (acker : Acker)
    (decision : DeliveryDecision)
| awaiting (call : SettleId)
| replying (call : SettleId) (delivery : DeliveryId)
| stopped
deriving DecidableEq

/- `delivered` counts the deliveries to all the streams. -/
structure State where
  nextId : DeliveryId
  delivered : Nat
  nextStream : StreamId
  streams : StreamId → StreamPhase
  busOpen : Bool
  calls : SettleId
  queue : List SettlementCommand
  actor : ActorPhase
  ackers : DeliveryId → Option Acker

/- The state after `connect`. -/
def State.start : State where
  nextId := 1
  delivered := 0
  nextStream := 0
  streams := fun _ => .absent
  busOpen := true
  calls := 0
  queue := []
  actor := .receiving
  ackers := fun _ => none

def State.setStream
    (s : State) (stream : StreamId) (phase : StreamPhase) :
    State :=
  { s with streams := Function.update s.streams stream phase }

@[simp]
theorem State.setStream_self
    (s : State) (stream : StreamId) (phase : StreamPhase) :
    (s.setStream stream phase).streams stream = phase :=
  Function.update_self _ _ _

theorem State.setStream_of_ne
    (s : State) {stream other : StreamId}
    (phase : StreamPhase) (hNe : other ≠ stream) :
    (s.setStream stream phase).streams other =
      s.streams other :=
  Function.update_of_ne hNe _ _

/-
  `registering` is the command sent and `registered` the
  command taken by the actor; likewise `settleCalled` and
  `settleTaken`, with the acker found.  `exhausted` is a poll
  that returns no message.
-/
inductive Event where
| subscribed (stream : StreamId)
| fetched
    (stream : StreamId) (delivery : DeliveryId)
    (message : RawMessage) (acker : Acker)
| registering
    (stream : StreamId) (delivery : DeliveryId)
    (acker : Acker)
| registrationFailed
    (stream : StreamId) (delivery : DeliveryId)
| yielded
    (stream : StreamId) (delivery : DeliveryId)
    (message : RawMessage)
| exhausted (stream : StreamId)
| streamDropped (stream : StreamId)
| registered (delivery : DeliveryId) (acker : Acker)
| settleCalled
    (call : SettleId) (delivery : DeliveryId)
    (decision : DeliveryDecision)
| settleRefused
    (call : SettleId) (delivery : DeliveryId)
    (decision : DeliveryDecision) (error : BusError)
| settleTaken
    (call : SettleId) (delivery : DeliveryId)
    (decision : DeliveryDecision) (found : Option Acker)
| performed
    (call : SettleId) (acker : Acker) (operation : Operation)
| replied (call : SettleId) (result : Except BusError Unit)
| busDropped
| actorStopped
deriving DecidableEq

end Deliveries

end RabbitMq

end Bus

end Qanat

------------------------------------------------------------
-- Steps
------------------------------------------------------------

namespace Qanat

namespace Bus

namespace RabbitMq

namespace Deliveries

open Transition
open Router (DeliveryDecision)

/- The steps of the streams, of the callers and of the actor. -/
inductive Step : State → Event → State → Prop where
| subscribe {s : State} :
    s.busOpen = true →
    Step s (.subscribed s.nextStream)
      (({ s with nextStream := s.nextStream + 1 } :
        State).setStream s.nextStream .resting)
-- the consumer has a delivery; `next_id.fetch_add`
| fetch
    {s : State} {stream : StreamId}
    (iteration : HeaderIteration) (fresh : String)
    (published : Published) (redelivered : Bool) :
    s.streams stream = .resting →
    Step s
      (.fetched stream s.nextId
        (deliveryToRaw iteration fresh published redelivered
          (UInt64.ofNat s.nextId)) s.delivered)
      (({ s with
        nextId := s.nextId + 1
        delivered := s.delivered + 1 } : State).setStream
          stream
          (.fetched s.nextId
            (deliveryToRaw iteration fresh published
              redelivered (UInt64.ofNat s.nextId))
            s.delivered))
-- `SettlementCommand::Register` sent and taken
| register
    {s : State} {stream : StreamId} {delivery : DeliveryId}
    {message : RawMessage} {acker : Acker} :
    s.streams stream = .fetched delivery message acker →
    s.actor ≠ .stopped →
    Step s (.registering stream delivery acker)
      (({ s with
        queue := s.queue ++ [.register delivery acker] } :
          State).setStream stream (.ready delivery message))
| failRegister
    {s : State} {stream : StreamId} {delivery : DeliveryId}
    {message : RawMessage} {acker : Acker} :
    s.streams stream = .fetched delivery message acker →
    s.actor = .stopped →
    Step s (.registrationFailed stream delivery)
      (s.setStream stream .resting)
| «yield»
    {s : State} {stream : StreamId} {delivery : DeliveryId}
    {message : RawMessage} :
    s.streams stream = .ready delivery message →
    Step s (.yielded stream delivery message)
      (s.setStream stream .resting)
-- the consumer has failed or ended
| exhaust {s : State} {stream : StreamId} :
    s.streams stream = .resting →
    Step s (.exhausted stream) s
| dropStream {s : State} {stream : StreamId} :
    s.streams stream = .resting →
    Step s (.streamDropped stream)
      (s.setStream stream .dropped)
| takeRegister
    {s : State} {delivery : DeliveryId} {acker : Acker}
    {rest : List SettlementCommand} :
    s.actor = .receiving →
    s.queue = .register delivery acker :: rest →
    Step s (.registered delivery acker)
      { s with
        queue := rest
        ackers :=
          Function.update s.ackers delivery (some acker) }
-- `SettlementCommand::Settle` sent and taken
| settle
    {s : State} (delivery : DeliveryId)
    (decision : DeliveryDecision) :
    s.busOpen = true →
    s.actor ≠ .stopped →
    Step s (.settleCalled s.calls delivery decision)
      { s with
        calls := s.calls + 1
        queue := s.queue ++
          [.settle s.calls delivery decision] }
| refuse
    {s : State} (delivery : DeliveryId)
    (decision : DeliveryDecision) :
    s.busOpen = true →
    s.actor = .stopped →
    Step s
      (.settleRefused s.calls delivery decision
        RabbitMq.actorStopped)
      { s with calls := s.calls + 1 }
| takeSettle
    {s : State} {call : SettleId} {delivery : DeliveryId}
    {decision : DeliveryDecision} {acker : Acker}
    {rest : List SettlementCommand} :
    s.actor = .receiving →
    s.queue = .settle call delivery decision :: rest →
    s.ackers delivery = some acker →
    Step s (.settleTaken call delivery decision (some acker))
      { s with
        queue := rest
        actor := .settling call acker decision
        ackers := Function.update s.ackers delivery none }
| missSettle
    {s : State} {call : SettleId} {delivery : DeliveryId}
    {decision : DeliveryDecision}
    {rest : List SettlementCommand} :
    s.actor = .receiving →
    s.queue = .settle call delivery decision :: rest →
    s.ackers delivery = none →
    Step s (.settleTaken call delivery decision none)
      { s with
        queue := rest
        actor := .replying call delivery }
-- `settle_delivery`
| perform
    {s : State} {call : SettleId} {acker : Acker}
    {decision : DeliveryDecision} :
    s.actor = .settling call acker decision →
    Step s (.performed call acker (operation decision))
      { s with actor := .awaiting call }
| «return»
    {s : State} {call : SettleId}
    (result : Except String Bool) :
    s.actor = .awaiting call →
    Step s (.replied call (settleResult result))
      { s with actor := .receiving }
| reply
    {s : State} {call : SettleId} {delivery : DeliveryId} :
    s.actor = .replying call delivery →
    Step s (.replied call (.error (notPending delivery)))
      { s with actor := .receiving }
-- every sender of the commands is gone
| dropBus {s : State} :
    s.busOpen = true →
    Step s .busDropped { s with busOpen := false }
| stopActor {s : State} :
    s.actor = .receiving →
    s.queue = [] →
    s.busOpen = false →
    (∀ stream, s.streams stream = .absent ∨
      s.streams stream = .dropped) →
    Step s .actorStopped
      { s with
        actor := .stopped
        ackers := fun _ => none }

/- The deliveries of a connected bus. -/
def lts : Lts State Event where
  initial s := s = State.start
  step := Step

end Deliveries

end RabbitMq

end Bus

end Qanat
