import Qanat.Library.Logged
import Qanat.Router.Message

/-
  The processing of one message by a route: the handler, the
  success target, the error target and the settlement.

  What the route core calls but does not define is a
  parameter: the codecs of sources and targets, the handlers
  and the conversion to `serde_value::Value`.  Handlers and
  targets may unwind.  Tracing is left out.

  Main declarations:
    * `RouteSource`, `RouteTarget`, `RouteHandler`
    * `TypedRouteHandler`
    * `deliverFailure`, `settle`, `processRouteMessage`
-/

------------------------------------------------------------
-- Sources, Targets and Handlers
------------------------------------------------------------

namespace Qanat

namespace Router

variable {Value Args Output : Type}

abbrev Decoder (Value : Type) :=
  RouteMessage → Except BusError Value

structure RouteSource (Value : Type) where
  decode : Decoder Value := fun _ =>
    .error (.serialization
      "source does not support typed payload decoding")
  settle :
    RouteMessage → DeliveryDecision → Except BusError Unit :=
      fun _ _ => .ok ()

/-
  `encode` returns the message it has written to.  The
  callers drop the message when it fails.  `none` is a call
  that unwinds.
-/
structure RouteTarget (Value : Type) where
  encode :
    Value → RouteMessage →
      Option (Except BusError RouteMessage) :=
        fun _ _ =>
          some (.error (.serialization
            "target does not support typed payload encoding"))
  accepts : RouteMessage → Option Bool := fun _ => some true
  deliver : RouteMessage → Option (Except BusError Unit)

/- `none` is a handler that unwinds. -/
structure RouteHandler (Value : Type) where
  consume :
    RouteMessage → Decoder Value →
      Option (Except RouteError Unit) :=
        fun _ _ =>
          some (.error (RouteError.handler
            "custom handler does not support consume"))
  call :
    RouteMessage → Decoder Value → RouteTarget Value →
      Option (Except RouteError RouteMessage)

/- `encode_handler_output`. -/
def encodeHandlerOutput
    (toValue : Output → Except String Value)
    (output : Output) (message : RouteMessage)
    (encoder : RouteTarget Value) :
    Option (Except RouteError RouteMessage) :=
  let message :=
    { message with
      headers := message.headers.erase routeFailureHeader
      attempts := 0 }
  match toValue output with
  | .error text =>
      some (.error (RouteError.handler
        (BusError.serialization text).display))
  | .ok value =>
      match encoder.encode value message with
      | none => none
      | some (.error error) =>
          some (.error (RouteError.delivery error.display))
      | some (.ok encoded) => some (.ok encoded)

/-
  A typed function as a handler: the extraction of its
  arguments, the function and the serialization of its
  output.  The function preserves the headers of the message
  or replaces them; its errors are their texts.
-/
structure TypedRouteHandler
    (Value Args Output : Type) where
  extract :
    RouteMessage → Decoder Value → Except BusError Args
  handler :
    (Args → Option (Except String Output)) ⊕
      (Args → Option (Except String (Headers × Output)))
  toValue : Output → Except String Value

namespace TypedRouteHandler

/- The function applied: its headers, if any, and its output. -/
def apply
    (typed : TypedRouteHandler Value Args Output)
    (args : Args) :
    Option (Except String (Option Headers × Output)) :=
  match typed.handler with
  | .inl preserve =>
      (preserve args).map
        (Except.map (fun output => (none, output)))
  | .inr replace =>
      (replace args).map
        (Except.map
          (fun result => (some result.1, result.2)))

def consume
    (typed : TypedRouteHandler Value Args Output)
    (message : RouteMessage) (decoder : Decoder Value) :
    Option (Except RouteError Unit) :=
  match typed.extract message decoder with
  | .error error => some (.error (RouteError.ofBusError error))
  | .ok args =>
      match typed.apply args with
      | none => none
      | some (.error text) =>
          some (.error (RouteError.handler text))
      | some (.ok _) => some (.ok ())

def call
    (typed : TypedRouteHandler Value Args Output)
    (message : RouteMessage) (decoder : Decoder Value)
    (encoder : RouteTarget Value) :
    Option (Except RouteError RouteMessage) :=
  match typed.extract message decoder with
  | .error error => some (.error (RouteError.ofBusError error))
  | .ok args =>
      match typed.apply args with
      | none => none
      | some (.error text) =>
          some (.error (RouteError.handler text))
      | some (.ok (headers, output)) =>
          encodeHandlerOutput typed.toValue output
            { message with
              headers := headers.getD message.headers }
            encoder

def toRouteHandler
    (typed : TypedRouteHandler Value Args Output) :
    RouteHandler Value where
  consume := typed.consume
  call := typed.call

end TypedRouteHandler

end Router

end Qanat

------------------------------------------------------------
-- Outputs
------------------------------------------------------------

namespace Qanat

namespace Router

variable {Value Args Output : Type}

/- The failure marker is dropped before the encoding. -/
theorem encodeHandlerOutput_eq_ok
    {toValue : Output → Except String Value}
    {output : Output} {message encoded : RouteMessage}
    {encoder : RouteTarget Value}
    (hEncoded :
      encodeHandlerOutput toValue output message encoder =
        some (.ok encoded)) :
    ∃ value, toValue output = .ok value ∧
      encoder.encode value
          { message with
            headers :=
              message.headers.erase routeFailureHeader
            attempts := 0 } =
        some (.ok encoded) := by
  unfold encodeHandlerOutput at hEncoded
  cases hValue : toValue output with
  | error text =>
      simp only [hValue] at hEncoded
      cases hEncoded
  | ok value =>
      refine ⟨value, rfl, ?_⟩
      simp only [hValue] at hEncoded
      split at hEncoded
      · cases hEncoded
      · cases hEncoded
      · rename_i hEncode
        cases hEncoded
        exact hEncode

namespace TypedRouteHandler

/- What a typed handler returns is an encoded output. -/
theorem call_eq_ok
    {typed : TypedRouteHandler Value Args Output}
    {message encoded : RouteMessage} {decoder : Decoder Value}
    {encoder : RouteTarget Value}
    (hCall :
      typed.call message decoder encoder =
        some (.ok encoded)) :
    ∃ args headers output,
      typed.extract message decoder = .ok args ∧
      typed.apply args = some (.ok (headers, output)) ∧
      encodeHandlerOutput typed.toValue output
          { message with
            headers := headers.getD message.headers }
          encoder =
        some (.ok encoded) := by
  unfold call at hCall
  cases hExtract : typed.extract message decoder with
  | error error => simp [hExtract] at hCall
  | ok args =>
      cases hApply : typed.apply args with
      | none => simp [hExtract, hApply] at hCall
      | some result =>
          cases result with
          | error text => simp [hExtract, hApply] at hCall
          | ok pair =>
              rcases pair with ⟨headers, output⟩
              refine ⟨args, headers, output, rfl, hApply, ?_⟩
              simpa [hExtract, hApply] using hCall

/- A function that preserves the headers returns none. -/
theorem headers_of_preserve
    {typed : TypedRouteHandler Value Args Output}
    {preserve : Args → Option (Except String Output)}
    (hPreserve : typed.handler = .inl preserve)
    {args : Args} {headers : Option Headers} {output : Output}
    (hApply :
      typed.apply args = some (.ok (headers, output))) :
    headers = none := by
  unfold apply at hApply
  rw [hPreserve] at hApply
  rcases Option.map_eq_some_iff.mp hApply with
    ⟨result, _, hResult⟩
  cases result with
  | error text => cases hResult
  | ok value =>
      cases hResult
      rfl

end TypedRouteHandler

end Router

end Qanat

------------------------------------------------------------
-- Settlement and Failures
------------------------------------------------------------

namespace Qanat

namespace Router

open Transition

variable {Value : Type}

/-
  What a route does that others can see: it invokes its
  handler, delivers an output, delivers a failure to the
  error target, and settles a message at the source.
-/
inductive RouteEffect where
| handled (message : RouteMessage)
| delivered (output : RouteMessage)
| failureDelivered (message : RouteMessage)
| settled
    (message : RouteMessage) (decision : DeliveryDecision)
deriving DecidableEq

/- The result of a settlement is only logged. -/
def settle
    (source : RouteSource Value) (message : RouteMessage)
    (decision : DeliveryDecision) :
    Logged RouteEffect Unit := do
  Logged.perform (.settled message decision)
  match source.settle message decision with
  | .ok () => pure ()
  | .error _ => pure ()

/- The headers of a failure that forwards an HTTP response. -/
def httpFailureHeaders
    (original : RouteMessage) (response : HttpResponse) :
    Headers :=
  let forwarded := forwardedHttpErrorHeaders response.headers
  let correlated :=
    match original.headers.lookup correlationIdHeader with
    | some id => forwarded.insert correlationIdHeader id
    | none => forwarded
  let replying :=
    match original.headers.lookup replyToHeader with
    | some replyTo => correlated.insert replyToHeader replyTo
    | none => correlated
  replying.insert httpStatusHeader
    (toString response.status.toNat)

/-
  The message for the error target before its last header:
  the response, or the encoded failure.  The inner `none` is
  an early return, the outer one unwinds.
-/
def failurePayload
    (failureValue : RouteFailure → Except String Value)
    (target : RouteTarget Value) (original : RouteMessage)
    (error : RouteError) (response : Option HttpResponse) :
    Option (Option RouteMessage) :=
  match response with
  | some response =>
      some (some
        { original with
          payload := response.body
          headers := httpFailureHeaders original response })
  | none =>
      match failureValue
          ⟨error, FailedRouteMessage.ofMessage original⟩ with
      | .error _ => some none
      | .ok value =>
          match target.encode value original with
          | none => none
          | some (.error _) => some none
          | some (.ok message) => some (some message)

/- The message that is delivered to the error target, if any. -/
def failureMessage
    (failureValue : RouteFailure → Except String Value)
    (target : RouteTarget Value) (original : RouteMessage)
    (error : RouteError) (response : Option HttpResponse) :
    Option (Option RouteMessage) :=
  match failurePayload failureValue target original error
      response with
  | none => none
  | some none => some none
  | some (some message) =>
      let message :=
        { message with
          headers :=
            message.headers.insert routeFailureHeader "true" }
      match target.accepts message with
      | none => none
      | some true => some (some message)
      | some false => some none

/- `deliver_failure`. -/
def deliverFailure
    (failureValue : RouteFailure → Except String Value)
    (target : Option (RouteTarget Value))
    (original : RouteMessage) (error : RouteError)
    (response : Option HttpResponse) :
    Logged RouteEffect Unit :=
  match target with
  | none => pure ()
  | some target => do
      match ← Logged.ofOption
          (failureMessage failureValue target original error
            response) with
      | none => pure ()
      | some message => do
          Logged.perform (.failureDelivered message)
          match ← Logged.ofOption (target.deliver message) with
          | .ok () => pure ()
          | .error _ => pure ()

end Router

end Qanat

------------------------------------------------------------
-- One Message
------------------------------------------------------------

namespace Qanat

namespace Router

open Transition

variable {Value : Type}

/-
  The components of a route that process its messages, with
  the conversion of failures to values.
-/
structure RouteBinding (Value : Type) where
  source : RouteSource Value
  handler : RouteHandler Value
  target : Option (RouteTarget Value)
  errorTarget : Option (RouteTarget Value)
  failureDecision : DeliveryDecision
  failureValue : RouteFailure → Except String Value

namespace RouteBinding

/- `deliver_failure` followed by the failure decision. -/
def fail
    (route : RouteBinding Value) (message : RouteMessage)
    (error : RouteError) (response : Option HttpResponse) :
    Logged RouteEffect Unit := do
  deliverFailure route.failureValue route.errorTarget message
    error response
  settle route.source message route.failureDecision

end RouteBinding

/- The HTTP response in a delivery error. -/
def httpResponse? : BusError → Option HttpResponse
| .backend (.http response) => some response
| _ => none

/- `process_route_message`. -/
def processRouteMessage
    (route : RouteBinding Value) (message : RouteMessage) :
    Logged RouteEffect Unit :=
  match route.target with
  | none => do
      Logged.perform (.handled message)
      match ← Logged.ofOption
          (route.handler.consume message
            route.source.decode) with
      | .ok () => settle route.source message .ack
      | .error error => route.fail message error none
  | some target => do
      match ← Logged.ofOption (target.accepts message) with
      | true => do
          Logged.perform (.handled message)
          match ← Logged.ofOption
              (route.handler.call message
                route.source.decode target) with
          | .ok output => do
              Logged.perform (.delivered output)
              match ← Logged.ofOption
                  (target.deliver output) with
              | .ok () => settle route.source message .ack
              | .error error =>
                  route.fail message
                    (RouteError.delivery error.display)
                    (httpResponse? error)
          | .error error => route.fail message error none
      | false =>
          route.fail message
            (RouteError.delivery
              "target rejected the route message")
            none

end Router

end Qanat
