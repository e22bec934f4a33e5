import Qanat.Headers

/-
  The messages of the byte-oriented buses and the identity
  that their headers carry.

  Timestamps are left out.

  Main declarations:
    * `Envelope`, `RawMessage`
    * `messageIdFromHeaders`, `ensureMessageId`
    * `routeMessageFromBroker`, `brokerMessageFromRoute`
-/

------------------------------------------------------------
-- Messages
------------------------------------------------------------

namespace Qanat

namespace Bus

open Router (RouteMessage)

structure Envelope where
  subject : String
  id : UInt64
  messageId : String
  headers : Option Headers
  attempts : UInt32
deriving DecidableEq

structure RawMessage where
  envelope : Envelope
  payload : Bytes
deriving DecidableEq

/- The headers of a message, none if it has no map. -/
def RawMessage.headers (message : RawMessage) : Headers :=
  message.envelope.headers.getD ∅

/- `route_message_from_broker`. -/
def routeMessageFromBroker (message : RawMessage) :
    RouteMessage where
  address := message.envelope.subject
  id := message.envelope.id
  messageId := message.envelope.messageId
  headers := message.envelope.headers.getD ∅
  metadata := ∅
  attempts := message.envelope.attempts
  payload := message.payload

/- `broker_message_from_route`. -/
def brokerMessageFromRoute (message : RouteMessage) :
    RawMessage where
  envelope :=
    { subject := message.address
      id := message.id
      messageId := message.messageId
      headers :=
        if message.headers.entries.isEmpty then none
        else some message.headers
      attempts := message.attempts }
  payload := message.payload

/- An empty map stands for no map. -/
theorem headers_brokerMessageFromRoute
    (message : RouteMessage) :
    (brokerMessageFromRoute message).headers =
      message.headers := by
  unfold RawMessage.headers brokerMessageFromRoute
  by_cases hEmpty : message.headers.entries.isEmpty = true
  · rw [if_pos hEmpty]
    apply AList.ext
    rw [List.isEmpty_iff.mp hEmpty]
    rfl
  · rw [if_neg hEmpty]
    rfl

end Bus

end Qanat

------------------------------------------------------------
-- Message Ids
------------------------------------------------------------

namespace Qanat

namespace Bus

open Router (eqIgnoreAsciiCase)

def messageIdHeader : String := "qanat-message-id"

/- The name is that of the message id, whatever its case. -/
def IsMessageId (name : String) : Bool :=
  eqIgnoreAsciiCase name messageIdHeader

/- `message_id_from_headers`. -/
def messageIdFromHeaders (headers : Headers) :
    Option String :=
  ((headers.entries.find?
    (fun header => IsMessageId header.1)).map (·.2)).filter
      (fun value => !value.isEmpty)

/-
  `ensure_message_id`: the id and the headers that carry it.
  `fresh` is what `new_message_id` returns.
-/
def ensureMessageId (fresh : String) (headers : Headers) :
    String × Headers :=
  match messageIdFromHeaders headers with
  | some messageId =>
      (messageId,
        (FiniteMap.retain (fun name => !IsMessageId name)
          headers).insert messageIdHeader messageId)
  | none => (fresh, headers.insert messageIdHeader fresh)

end Bus

end Qanat
