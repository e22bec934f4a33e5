import Qanat.Bus.ExternalBus
import Qanat.Codec
import Qanat.Router.Process

/-
  Brokers as the targets of routes.

  A bus is what the adapter uses of it: whether it carries
  content types, and its dispatch, which may fail or unwind.

  Main declarations:
    * `Dispatch`, `MessageBus`, `ExternalBus`
    * `ExternalBus.publish`
    * `BrokerTarget`, `BrokerTarget.dispatched`
    * `BrokerTarget.dispatched_eq_ok`
    * `BrokerTarget.toRouteTarget`
-/

------------------------------------------------------------
-- Buses
------------------------------------------------------------

namespace Qanat

namespace Bus

open Router (DeliveryDecision)

/-
  One call that sends a message: whether the message got
  away, which a call that fails later does not undo, and
  what it returned; `none` is a call that unwinds.
-/
structure Dispatch where
  carried : Bool
  result : Option (Except BusError Unit)

namespace Dispatch

/- The message was sent. -/
def sent : Dispatch where
  carried := true
  result := some (.ok ())

/- Nothing was sent. -/
def failed (error : BusError) : Dispatch where
  carried := false
  result := some (.error error)

def unwound : Dispatch where
  carried := false
  result := none

end Dispatch

structure MessageBus where
  supportsContentTypeHeaders : Bool := false
  dispatch : String → RawMessage → Dispatch
  settle : UInt64 → DeliveryDecision → Except BusError Unit :=
    fun _ _ => .ok ()

/- What a byte-oriented bus supplies. -/
structure ExternalBus where
  supportsContentTypeHeaders : Bool := false
  publishBytes : String → Bytes → Option Headers → Dispatch
  settleRaw :
    UInt64 → DeliveryDecision → Except BusError Unit :=
      fun _ _ => .ok ()

namespace ExternalBus

variable {Ser De : Type → Type} {T : Type}

/- The headers that `publish` passes on with a payload. -/
def publishHeaders
    (bus : ExternalBus) (codec : Codec Ser De)
    (fresh : String) (headers : Option Headers) : Headers :=
  let identified :=
    (ensureMessageId fresh (headers.getD ∅)).2
  if bus.supportsContentTypeHeaders then
    Headers.setContentType identified codec.contentType
  else
    identified

/-
  The default `publish`; `codec` is the codec of the bus and
  `fresh` is what `new_message_id` returns.
-/
def publish
    (bus : ExternalBus) (codec : Codec Ser De)
    (fresh subject : String) (ser : Ser T) (value : T)
    (headers : Option Headers) : Dispatch :=
  match codec.encode ser value with
  | .error error => .failed error
  | .ok payload =>
      bus.publishBytes subject payload
        (some (bus.publishHeaders codec fresh headers))

/- The default `dispatch_raw`. -/
def dispatchRaw
    (bus : ExternalBus) (subject : String)
    (message : RawMessage) : Dispatch :=
  bus.publishBytes subject message.payload
    (some (dispatchRawHeaders message))

/- The blanket implementation of `Bus`. -/
def toMessageBus (bus : ExternalBus) : MessageBus where
  supportsContentTypeHeaders := bus.supportsContentTypeHeaders
  dispatch := bus.dispatchRaw
  settle := bus.settleRaw

end ExternalBus

end Bus

end Qanat

------------------------------------------------------------
-- Targets
------------------------------------------------------------

namespace Qanat

namespace Bus

open Router (RouteMessage RouteTarget replyToHeader)

inductive BrokerDestination where
| subject (subject : String)
| replyTo
deriving DecidableEq

structure BrokerTarget (Ser De : Type → Type) where
  bus : MessageBus
  destination : BrokerDestination
  codec : Codec Ser De

namespace BrokerTarget

variable {Ser De : Type → Type} {Value : Type}

def encode
    (target : BrokerTarget Ser De) (ser : Ser Value)
    (value : Value) (message : RouteMessage) :
    Except BusError RouteMessage :=
  match target.codec.encode ser value with
  | .error error => .error error
  | .ok payload =>
      .ok
        { message with
          payload := payload
          headers :=
            if target.bus.supportsContentTypeHeaders then
              Headers.setContentType message.headers
                target.codec.contentType
            else
              message.headers }

def accepts
    (target : BrokerTarget Ser De) (message : RouteMessage) :
    Bool :=
  match target.destination with
  | .subject _ => true
  | .replyTo => (message.headers.lookup replyToHeader).isSome

/- The subject that `deliver` dispatches to. -/
def subjectOf
    (target : BrokerTarget Ser De) (output : RouteMessage) :
    Except BusError String :=
  match target.destination with
  | .subject subject => .ok subject
  | .replyTo =>
      match output.headers.lookup replyToHeader with
      | some replyTo => .ok replyTo
      | none =>
          .error (.internal
            "broker reply target requires a reply_to header")

/- What `deliver` dispatches, and to which subject. -/
def dispatched
    (target : BrokerTarget Ser De) (output : RouteMessage) :
    Except BusError (String × RawMessage) :=
  match target.subjectOf output with
  | .error error => .error error
  | .ok subject =>
      .ok (subject,
        brokerMessageFromRoute
          { output with
            headers := output.headers.erase replyToHeader
            address := subject })

def deliver
    (target : BrokerTarget Ser De) (output : RouteMessage) :
    Option (Except BusError Unit) :=
  match target.dispatched output with
  | .error error => some (.error error)
  | .ok (subject, message) =>
      (target.bus.dispatch subject message).result

def toRouteTarget
    (target : BrokerTarget Ser De) (ser : Ser Value) :
    RouteTarget Value where
  encode := fun value message =>
    some (target.encode ser value message)
  accepts := fun message => some (target.accepts message)
  deliver := target.deliver

theorem dispatched_eq_ok
    {target : BrokerTarget Ser De} {output : RouteMessage}
    {subject : String} {message : RawMessage}
    (hDispatched :
      target.dispatched output = .ok (subject, message)) :
    target.subjectOf output = .ok subject ∧
      message.headers = output.headers.erase replyToHeader ∧
      message.payload = output.payload := by
  unfold dispatched at hDispatched
  cases hSubject : target.subjectOf output with
  | error error =>
      rw [hSubject] at hDispatched
      cases hDispatched
  | ok subject' =>
      rw [hSubject] at hDispatched
      cases hDispatched
      exact ⟨rfl, headers_brokerMessageFromRoute _, rfl⟩

/- The id is that of the output. -/
theorem messageId_of_dispatched
    {target : BrokerTarget Ser De} {output : RouteMessage}
    {subject : String} {message : RawMessage}
    (hDispatched :
      target.dispatched output = .ok (subject, message)) :
    message.envelope.messageId = output.messageId := by
  unfold dispatched at hDispatched
  split at hDispatched
  · cases hDispatched
  · cases hDispatched
    rfl

/- The subject of a reply comes from the message. -/
theorem subjectOf_replyTo
    {target : BrokerTarget Ser De} {output : RouteMessage}
    {subject : String}
    (hReply : target.destination = .replyTo) :
    target.subjectOf output = .ok subject ↔
      output.headers.lookup replyToHeader = some subject := by
  unfold subjectOf
  rw [hReply]
  cases hLookup : output.headers.lookup replyToHeader with
  | none => simp
  | some replyTo => simp

/- What a reply target accepts can be dispatched. -/
theorem dispatched_of_accepts
    {target : BrokerTarget Ser De} {output : RouteMessage}
    (hReply : target.destination = .replyTo)
    (hAccepts : target.accepts output = true) :
    ∃ subject message,
      target.dispatched output = .ok (subject, message) := by
  unfold accepts at hAccepts
  rw [hReply] at hAccepts
  rcases Option.isSome_iff_exists.mp hAccepts with
    ⟨replyTo, hLookup⟩
  have hSubject := (subjectOf_replyTo hReply).mpr hLookup
  unfold dispatched
  rw [hSubject]
  exact ⟨_, _, rfl⟩

/- Only the content type of a message changes, if any. -/
theorem lookup_of_encode
    {target : BrokerTarget Ser De} {ser : Ser Value}
    {value : Value} {message encoded : RouteMessage}
    {name : String}
    (hEncode :
      target.encode ser value message = .ok encoded)
    (hName : Headers.IsContentType name = false) :
    encoded.headers.lookup name =
      message.headers.lookup name := by
  unfold encode at hEncode
  split at hEncode
  · cases hEncode
  · cases hEncode
    by_cases hCarries :
        target.bus.supportsContentTypeHeaders = true
    · simp only [if_pos hCarries]
      exact Headers.lookup_setContentType hName
    · simp only [if_neg hCarries]

end BrokerTarget

end Bus

end Qanat
