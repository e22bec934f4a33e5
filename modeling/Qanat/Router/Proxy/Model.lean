import Mathlib.Logic.Function.Basic
import Qanat.Library.Lts
import Qanat.Bus.Message

/-
  A broker proxy whose runtime has been initialized: its
  callers, the task that matches replies to them, and the
  remote side.

  The command channel has a permit for each of its places.
  A permit that the reply task gives back goes to the send
  that has waited longest, and `try_send` gets only what
  nobody waits for.

  The runtime is there from the start.  Request ids and
  message ids are parameters of a call, as is the result of
  encoding its input.  A caller may give its call up at any
  time.

  Main declarations:
    * `ProxyCommand`, `requestHeaders`, `Request.message`
    * `Proxy.State`, `Proxy.Event`
    * `Proxy.Step`, `Proxy.lts`
-/

------------------------------------------------------------
-- Requests
------------------------------------------------------------

namespace Qanat

namespace Router

namespace Proxy

open Bus (Envelope RawMessage)

/-
  `pattern` is the subject of the requests, `contentType` the
  content type of the codec if the bus carries it.
-/
structure Config where
  pattern : String
  replySubject : String
  contentType : Option String

/- What a caller supplies and what is drawn for its call. -/
structure Request where
  headers : Headers
  payload : Except BusError Bytes
  correlationId : String
  messageId : String
  requestId : UInt64
deriving DecidableEq

/- The headers a request is dispatched with. -/
def requestHeaders
    (config : Config) (headers : Headers)
    (correlationId : String) : Headers :=
  let correlated :=
    (headers.insert correlationIdHeader
      correlationId).insert replyToHeader config.replySubject
  match config.contentType with
  | some value => Headers.setContentType correlated value
  | none => correlated

/- The message of a request with its encoded input. -/
def Request.message
    (config : Config) (request : Request) (payload : Bytes) :
    RawMessage where
  envelope :=
    { subject := config.pattern
      id := request.requestId
      messageId := request.messageId
      headers :=
        some (requestHeaders config request.headers
          request.correlationId)
      attempts := 0 }
  payload := payload

/- The correlation id that a message bears. -/
def correlationId? (message : RawMessage) : Option String :=
  message.envelope.headers.bind
    (fun headers => headers.lookup correlationIdHeader)

end Proxy

end Router

end Qanat

------------------------------------------------------------
-- States and Events
------------------------------------------------------------

namespace Qanat

namespace Router

namespace Proxy

open Bus (RawMessage)

/- The calls, by their order. -/
abbrev CallId := Nat

/- `ProxyCommand`, with the call that sends a registration. -/
inductive ProxyCommand where
| register (correlationId : String) (call : CallId)
| cancel (correlationId : String)
deriving DecidableEq

/- The capacity of the command channel. -/
def commandCapacity : Nat := 64

/- What a call returns, or that its caller has dropped it. -/
inductive Outcome where
| reply (message : RawMessage)
| encoding (error : BusError)
| transport (error : BusError)
| runtimeStopped (text : String)
| timedOut
| dropped
deriving DecidableEq

/-
  `starting` has its registration still to send, `queued`
  waits for the confirmation of it and `waiting` for the
  reply.
-/
inductive CallPhase where
| starting
| queued
| registered
| dispatching
| waiting
| returned (outcome : Outcome)
deriving DecidableEq

/- The caller has dropped the receiver of its reply. -/
def CallPhase.Closed : CallPhase → Prop
| .returned _ => True
| _ => False

instance (phase : CallPhase) : Decidable phase.Closed := by
  cases phase <;> unfold CallPhase.Closed <;> infer_instance

/-
  `slot` is the reply that has been sent to the call, with
  its position among the messages on the reply subject.
-/
structure Call where
  request : Request
  phase : CallPhase
  dispatched : Bool
  slot : Option (Nat × RawMessage)
deriving DecidableEq

/-
  `blocked` are the calls whose sends wait for a permit or
  have got one by waiting, in their order.  `arrived` are the
  messages on the reply subject so far, of which the reply
  task has read the first `read`.
-/
structure State where
  nextCall : CallId
  calls : CallId → Option Call
  queue : List ProxyCommand
  blocked : List CallId
  pending : String → Option CallId
  arrived : List RawMessage
  read : Nat
  running : Bool

/- The state after `initialize`. -/
def State.start : State where
  nextCall := 0
  calls := fun _ => none
  queue := []
  blocked := []
  pending := fun _ => none
  arrived := []
  read := 0
  running := true

namespace State

def setCall (s : State) (c : CallId) (call : Call) : State :=
  { s with calls := Function.update s.calls c (some call) }

/- A permit is left that no waiting send has or gets. -/
def HasRoom (s : State) : Prop :=
  s.queue.length + s.blocked.length < commandCapacity

instance (s : State) : Decidable s.HasRoom := by
  unfold HasRoom
  infer_instance

/- The waiting sends that have their permits. -/
def granted (s : State) : List CallId :=
  s.blocked.take (commandCapacity - s.queue.length)

/- The send of a call has a permit, or finds one at once. -/
def MaySend (s : State) (c : CallId) : Prop :=
  c ∈ s.granted ∨ (c ∉ s.blocked ∧ s.HasRoom)

instance (s : State) (c : CallId) :
    Decidable (s.MaySend c) := by
  unfold MaySend
  infer_instance

/- The send of a call is over; its permit goes to the next. -/
def unblock (s : State) (c : CallId) : List CallId :=
  s.blocked.filter (fun c' => c' ≠ c)

/-
  `commands.try_send` of a cancellation: it is lost if the
  channel has no permit left or is closed.
-/
def tryCancel (s : State) (correlationId : String) :
    Option ProxyCommand :=
  if s.running = true ∧ s.HasRoom then
    some (.cancel correlationId)
  else
    none

/- `registered.send(())`, if the call still awaits it. -/
def confirm (s : State) (c : CallId) :
    CallId → Option Call :=
  match s.calls c with
  | some call =>
      if call.phase = .queued then
        Function.update s.calls c
          (some { call with phase := .registered })
      else
        s.calls
  | none => s.calls

/- `reply.send(message)`, lost if the call has returned. -/
def hand (s : State) (c : CallId)
    (position : Nat) (message : RawMessage) :
    CallId → Option Call :=
  match s.calls c with
  | some call =>
      if call.phase.Closed then
        s.calls
      else
        Function.update s.calls c
          (some { call with slot := some (position, message) })
  | none => s.calls

end State

/-
  `blocked` is a send that begins to wait.  `registering` is
  a command sent and `registered` the same taken by the reply
  task; `taken` is a reply taken, with the call it is for.
  `cancel` is the command that a returning call has been able
  to send.
-/
inductive Event where
| called (call : CallId) (request : Request)
| blocked (call : CallId)
| registering (correlationId : String) (call : CallId)
| registered (correlationId : String) (call : CallId)
| cancelled
    (correlationId : String) (found : Option CallId)
| dispatched (call : CallId) (message : RawMessage)
| dispatchReturned (call : CallId)
| dispatchFailed
    (call : CallId) (error : BusError)
    (cancel : Option ProxyCommand)
| arrived (position : Nat) (message : RawMessage)
| taken
    (position : Nat) (message : RawMessage)
    (found : Option CallId)
| received
    (call : CallId) (position : Nat) (message : RawMessage)
| timedOut (call : CallId) (cancel : Option ProxyCommand)
| runtimeStopped (call : CallId) (text : String)
| dropped (call : CallId)
| stopped

end Proxy

end Router

end Qanat

------------------------------------------------------------
-- Steps
------------------------------------------------------------

namespace Qanat

namespace Router

namespace Proxy

open Transition
open Bus (RawMessage)

/-
  No other call has the correlation id, and no message that
  bears it has arrived.
-/
def State.Fresh (s : State) (correlationId : String) : Prop :=
  (∀ c call, s.calls c = some call →
    call.request.correlationId ≠ correlationId) ∧
  ∀ message ∈ s.arrived,
    correlationId? message ≠ some correlationId

/- A reply to a request arrives after its dispatch. -/
def State.Timely (s : State) (message : RawMessage) : Prop :=
  ∀ c call, s.calls c = some call →
    correlationId? message =
        some call.request.correlationId →
      call.dispatched = true

/- The phase of a call whose input has been encoded. -/
def Request.firstPhase (request : Request) : CallPhase :=
  match request.payload with
  | .ok _ => .starting
  | .error error => .returned (.encoding error)

/- The steps of the callers, of the reply task and of others. -/
inductive Step (config : Config) :
    State → Event → State → Prop where
| call {s : State} (request : Request) :
    s.Fresh request.correlationId →
    Step config s (.called s.nextCall request)
      (({ s with nextCall := s.nextCall + 1 } : State).setCall
        s.nextCall
        { request := request
          phase := request.firstPhase
          dispatched := false
          slot := none })
-- `commands.send(Register)` and its confirmation
| block {s : State} {c : CallId} {call : Call} :
    s.calls c = some call →
    call.phase = .starting →
    s.running = true →
    c ∉ s.blocked →
    ¬ s.HasRoom →
    Step config s (.blocked c)
      { s with blocked := s.blocked ++ [c] }
| register {s : State} {c : CallId} {call : Call} :
    s.calls c = some call →
    call.phase = .starting →
    s.running = true →
    s.MaySend c →
    Step config s (.registering call.request.correlationId c)
      (({ s with
        queue := s.queue ++
          [.register call.request.correlationId c]
        blocked := s.unblock c } :
          State).setCall c { call with phase := .queued })
| refuse {s : State} {c : CallId} {call : Call} :
    s.calls c = some call →
    call.phase = .starting →
    s.running = false →
    Step config s
      (.runtimeStopped c "reply command channel closed")
      (({ s with blocked := s.unblock c } : State).setCall c
        { call with
          phase := .returned (.runtimeStopped
            "reply command channel closed") })
| lose {s : State} {c : CallId} {call : Call} :
    s.calls c = some call →
    call.phase = .queued →
    s.running = false →
    Step config s
      (.runtimeStopped c "request registration was dropped")
      (s.setCall c { call with
        phase := .returned (.runtimeStopped
          "request registration was dropped") })
-- `bus.dispatch`
| dispatch
    {s : State} {c : CallId} {call : Call}
    {payload : Bytes} :
    s.calls c = some call →
    call.phase = .registered →
    call.request.payload = .ok payload →
    Step config s
      (.dispatched c (call.request.message config payload))
      (s.setCall c { call with
        phase := .dispatching
        dispatched := true })
| finishDispatch {s : State} {c : CallId} {call : Call} :
    s.calls c = some call →
    call.phase = .dispatching →
    Step config s (.dispatchReturned c)
      (s.setCall c { call with phase := .waiting })
| failDispatch
    {s : State} {c : CallId} {call : Call}
    {error : BusError} :
    s.calls c = some call →
    call.phase = .dispatching →
    Step config s
      (.dispatchFailed c error
        (s.tryCancel call.request.correlationId))
      (({ s with
        queue := s.queue ++
          (s.tryCancel call.request.correlationId).toList } :
          State).setCall c { call with
            phase := .returned (.transport error) })
-- `timeout(self.timeout, reply_rx)`
| receive
    {s : State} {c : CallId} {call : Call}
    {position : Nat} {message : RawMessage} :
    s.calls c = some call →
    call.phase = .waiting →
    call.slot = some (position, message) →
    Step config s (.received c position message)
      (s.setCall c { call with
        phase := .returned (.reply message) })
| timeOut {s : State} {c : CallId} {call : Call} :
    s.calls c = some call →
    call.phase = .waiting →
    Step config s
      (.timedOut c (s.tryCancel call.request.correlationId))
      (({ s with
        queue := s.queue ++
          (s.tryCancel call.request.correlationId).toList } :
          State).setCall c { call with
            phase := .returned .timedOut })
| abandonWait {s : State} {c : CallId} {call : Call} :
    s.calls c = some call →
    call.phase = .waiting →
    call.slot = none →
    s.running = false →
    Step config s
      (.runtimeStopped c
        "reply task stopped before delivering a response")
      (s.setCall c { call with
        phase := .returned (.runtimeStopped
          "reply task stopped before delivering a response") })
| drop {s : State} {c : CallId} {call : Call} :
    s.calls c = some call →
    ¬ call.phase.Closed →
    Step config s (.dropped c)
      (({ s with blocked := s.unblock c } : State).setCall c
        { call with phase := .returned .dropped })
-- the reply task, whose `select!` takes any ready branch
| takeRegister
    {s : State} {correlationId : String} {c : CallId}
    {rest : List ProxyCommand} :
    s.running = true →
    s.queue = .register correlationId c :: rest →
    Step config s (.registered correlationId c)
      { s with
        queue := rest
        calls := s.confirm c
        pending :=
          Function.update s.pending correlationId (some c) }
| takeCancel
    {s : State} {correlationId : String}
    {rest : List ProxyCommand} :
    s.running = true →
    s.queue = .cancel correlationId :: rest →
    Step config s
      (.cancelled correlationId (s.pending correlationId))
      { s with
        queue := rest
        pending :=
          Function.update s.pending correlationId none }
| takeReply
    {s : State} {message : RawMessage}
    {correlationId : String} {c : CallId} :
    s.running = true →
    s.arrived[s.read]? = some message →
    correlationId? message = some correlationId →
    s.pending correlationId = some c →
    Step config s (.taken s.read message (some c))
      { s with
        read := s.read + 1
        calls := s.hand c s.read message
        pending :=
          Function.update s.pending correlationId none }
| discard {s : State} {message : RawMessage} :
    s.running = true →
    s.arrived[s.read]? = some message →
    (correlationId? message).bind s.pending = none →
    Step config s (.taken s.read message none)
      { s with read := s.read + 1 }
| stop {s : State} :
    s.running = true →
    Step config s .stopped
      { s with
        running := false
        pending := fun _ => none }
-- the reply subject
| arrive {s : State} (message : RawMessage) :
    s.Timely message →
    Step config s (.arrived s.arrived.length message)
      { s with arrived := s.arrived ++ [message] }

/- The runtime of a broker proxy. -/
def lts (config : Config) : Lts State Event where
  initial s := s = State.start
  step := Step config

end Proxy

end Router

end Qanat
