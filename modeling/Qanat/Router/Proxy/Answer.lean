import Qanat.Bus.Adapter
import Qanat.Router.Failures
import Qanat.Router.Proxy.Model

/-
  What a call of a broker proxy returns for its reply, and
  which failures of a route reach it as failures of the
  route.

  The failure of a route is an error of the caller's call:
  the marker in the headers says so, and the payload is the
  encoded `RouteFailure`.  A forwarded HTTP response has the
  marker, too, but its payload is the body of the response.

  Main declarations:
    * `ProxyError`, `ReplyDecoder.answer`
    * `RepliesTo`, `Readable`
    * `remote_iff_readable`
-/

------------------------------------------------------------
-- Answers
------------------------------------------------------------

namespace Qanat

namespace Router

namespace Proxy

open Bus (RawMessage)

inductive ProxyError where
| remote (failure : RouteFailure)
| timeout (correlationId : String) (timeout : Nat)
| transport (error : BusError)
| runtimeStopped (message : String)

/-
  How a proxy reads replies: its codec, whether its bus
  carries content types, and how it reads failures and
  outputs.
-/
structure ReplyDecoder (Ser De : Type → Type) (Output : Type)
    where
  codec : HeaderAwareCodec Ser De
  carriesContentType : Bool
  failure : De RouteFailure
  output : De Output

/- The reply has the marker of a failure. -/
def IsFailureReply (reply : RawMessage) : Bool :=
  (reply.envelope.headers.bind
    (fun headers =>
      headers.lookup routeFailureHeader)).isSome

namespace ReplyDecoder

variable {Ser De : Type → Type} {Output T : Type}

def decode
    (decoder : ReplyDecoder Ser De Output) (de : De T)
    (payload : Bytes) (contentType : Option String) :
    Except BusError T :=
  decoder.codec.decodeWithContentType de payload
    (if decoder.carriesContentType then contentType else none)

/- What `call_with_headers` makes of its reply. -/
def answer
    (decoder : ReplyDecoder Ser De Output)
    (reply : RawMessage) : Except ProxyError Output :=
  let contentType :=
    reply.envelope.headers.bind Headers.contentType
  if IsFailureReply reply then
    match decoder.decode decoder.failure reply.payload
        contentType with
    | .error error => .error (.transport error)
    | .ok failure => .error (.remote failure)
  else
    match decoder.decode decoder.output reply.payload
        contentType with
    | .error error => .error (.transport error)
    | .ok output => .ok output

end ReplyDecoder

/- What a call returns in the end; `none` if it is dropped. -/
def Outcome.result
    {Ser De : Type → Type} {Output : Type}
    (decoder : ReplyDecoder Ser De Output) (timeout : Nat)
    (request : Request) :
    Outcome → Option (Except ProxyError Output)
| .reply message => some (decoder.answer message)
| .encoding error => some (.error (.transport error))
| .transport error => some (.error (.transport error))
| .runtimeStopped text =>
    some (.error (.runtimeStopped text))
| .timedOut =>
    some (.error (.timeout request.correlationId timeout))
| .dropped => none

/- An absent map of headers is as good as an empty one. -/
theorem bind_headers
    {α : Type} (reply : RawMessage) (f : Headers → Option α)
    (hEmpty : f ∅ = none) :
    reply.envelope.headers.bind f = f reply.headers := by
  unfold RawMessage.headers
  cases reply.envelope.headers with
  | none => exact hEmpty.symm
  | some headers => rfl

theorem isFailureReply_eq (reply : RawMessage) :
    IsFailureReply reply =
      (reply.headers.lookup routeFailureHeader).isSome := by
  unfold IsFailureReply
  rw [bind_headers reply _ rfl]

variable {Ser De : Type → Type} {Output : Type}

/- The failure branch is taken for the marker alone. -/
theorem answer_eq_remote_iff
    {decoder : ReplyDecoder Ser De Output}
    {reply : RawMessage}
    (hMarked : IsFailureReply reply = true)
    (failure : RouteFailure) :
    decoder.answer reply = .error (.remote failure) ↔
      decoder.decode decoder.failure reply.payload
        (Headers.contentType reply.headers) =
          .ok failure := by
  unfold ReplyDecoder.answer
  rw [bind_headers reply _ rfl, if_pos hMarked]
  cases decoder.decode decoder.failure reply.payload
      (Headers.contentType reply.headers) with
  | error error => simp
  | ok other => simp

end Proxy

end Router

end Qanat

------------------------------------------------------------
-- Failures of the Route
------------------------------------------------------------

namespace Qanat

namespace Router

namespace Proxy

open Transition
open Bus (RawMessage BrokerTarget)

variable {Ser De : Type → Type} {Value Output : Type}

/-
  The error target of the route replies in a codec that the
  proxy knows: on a bus that carries content types it is
  found by its own, elsewhere by the default of the proxy.
  What it encodes can be read back.
-/
structure RepliesTo
    (route : RouteBinding Value)
    (target : BrokerTarget Ser De) (ser : Ser Value)
    (decoder : ReplyDecoder Ser De Output) : Prop where
  errorTarget :
    route.errorTarget = some (target.toRouteTarget ser)
  replyTo : target.destination = .replyTo
  sameBus :
    target.bus.supportsContentTypeHeaders =
      decoder.carriesContentType
  known :
    decoder.codec.codecs.select
        (if decoder.carriesContentType then
          target.codec.contentType
        else
          decoder.codec.default) =
      some target.codec
  roundTrip : ∀ failure value bytes,
    route.failureValue failure = .ok value →
    target.codec.encode ser value = .ok bytes →
    target.codec.decode decoder.failure bytes = .ok failure

/-
  The failure has no HTTP response, or the body of the
  response is itself an encoded failure with the error.
-/
def Readable
    (decoder : ReplyDecoder Ser De Output)
    (error : RouteError) :
    Option HttpResponse → Prop
| none => True
| some response =>
    ∃ failure,
      decoder.decode decoder.failure response.body
          (Headers.contentType
            (forwardedHttpErrorHeaders response.headers)) =
        .ok failure ∧
      failure.error = error

/- The codec of the error target is the one that is chosen. -/
theorem decode_of_known
    {route : RouteBinding Value}
    {target : BrokerTarget Ser De} {ser : Ser Value}
    {decoder : ReplyDecoder Ser De Output}
    (hReplies : RepliesTo route target ser decoder)
    {payload : Bytes} {contentType : Option String}
    (hCarried :
      decoder.carriesContentType = true →
        contentType = some target.codec.contentType) :
    decoder.decode decoder.failure payload contentType =
      target.codec.decode decoder.failure payload := by
  have hKnown := hReplies.known
  unfold ReplyDecoder.decode
    HeaderAwareCodec.decodeWithContentType
  rw [CodecCollection.decodeSelected_eq]
  cases hCarries : decoder.carriesContentType with
  | true =>
      rw [hCarries, if_pos rfl] at hKnown
      simp only [if_pos, hCarried hCarries, Option.getD_some,
        hKnown]
  | false =>
      rw [hCarries, if_neg Bool.false_ne_true] at hKnown
      simp only [Bool.false_eq_true, if_false,
        Option.getD_none, hKnown]

/- The failure that is read from an encoded failure. -/
theorem decode_of_encode
    {route : RouteBinding Value}
    {target : BrokerTarget Ser De} {ser : Ser Value}
    {decoder : ReplyDecoder Ser De Output}
    (hReplies : RepliesTo route target ser decoder)
    {failure : RouteFailure} {value : Value}
    {original message : RouteMessage}
    (hValue : route.failureValue failure = .ok value)
    (hEncode :
      target.encode ser value original = .ok message) :
    decoder.decode decoder.failure message.payload
        (Headers.contentType message.headers) =
      .ok failure := by
  unfold BrokerTarget.encode at hEncode
  cases hBytes : target.codec.encode ser value with
  | error error =>
      rw [hBytes] at hEncode
      cases hEncode
  | ok bytes =>
      rw [hBytes] at hEncode
      cases hEncode
      rw [decode_of_known hReplies]
      · exact hReplies.roundTrip failure value bytes hValue
          hBytes
      · intro hCarries
        rw [hReplies.sameBus, if_pos hCarries]
        exact Headers.contentType_setContentType _ _

/-
  Every failure that the error target is sent is dispatched
  as a reply to the request, and the proxy takes it for the
  failure of the route exactly if it is readable.
-/
theorem remote_iff_readable
    {route : RouteBinding Value}
    {target : BrokerTarget Ser De} {ser : Ser Value}
    {decoder : ReplyDecoder Ser De Output}
    (hReplies : RepliesTo route target ser decoder)
    {message failed : RouteMessage}
    (hFailed :
      .failureDelivered failed ∈
        (processRouteMessage route message).effects) :
    ∃ error response subject reply,
      route.Fails message error response ∧
      target.dispatched failed = .ok (subject, reply) ∧
      message.headers.lookup replyToHeader =
        some subject ∧
      ((∃ failure,
          decoder.answer reply = .error (.remote failure) ∧
            failure.error = error) ↔
        Readable decoder error response) := by
  rcases fails_of_failureDelivered hFailed with
    ⟨errorTarget, error, response, hTarget, hFails,
      hMessage⟩
  rw [hReplies.errorTarget, Option.some.injEq] at hTarget
  subst hTarget
  rcases failureMessage_eq_some hMessage with
    ⟨hAccepts, base, hPayload, rfl⟩
  rcases BrokerTarget.dispatched_of_accepts hReplies.replyTo
      (Option.some.inj hAccepts) with
    ⟨subject, reply, hDispatched⟩
  rcases BrokerTarget.dispatched_eq_ok hDispatched with
    ⟨hSubject, hHeaders, hBody⟩
  rw [BrokerTarget.subjectOf_replyTo hReplies.replyTo,
    AList.lookup_insert_ne (by decide)] at hSubject
  have hMarked : IsFailureReply reply = true := by
    rw [isFailureReply_eq, hHeaders,
      AList.lookup_erase_ne (by decide), AList.lookup_insert]
    rfl
  have hContentType :
      Headers.contentType reply.headers =
        Headers.contentType base.headers := by
    rw [hHeaders,
      Headers.contentType_erase_of_not (by decide),
      Headers.contentType_insert_of_not (by decide)]
  have hAnswer : ∀ failure,
      decoder.answer reply = .error (.remote failure) ↔
        decoder.decode decoder.failure base.payload
            (Headers.contentType base.headers) =
          .ok failure := by
    intro failure
    rw [answer_eq_remote_iff hMarked, hContentType, hBody]
  refine ⟨error, response, subject, reply, hFails,
    hDispatched, ?_, ?_⟩
  · rw [← hSubject]
    cases response with
    | some response =>
        cases hPayload
        exact (lookup_httpFailureHeaders (Or.inr rfl) message
          response).symm
    | none =>
        rcases failurePayload_none hPayload with
          ⟨value, _, hEncode⟩
        exact (BrokerTarget.lookup_of_encode
          (Option.some.inj hEncode) (by decide)).symm
  · simp only [hAnswer]
    cases response with
    | some response =>
        cases hPayload
        rw [contentType_httpFailureHeaders]
        rfl
    | none =>
        rcases failurePayload_none hPayload with
          ⟨value, hValue, hEncode⟩
        refine iff_of_true ?_ trivial
        exact ⟨_, decode_of_encode hReplies hValue
          (Option.some.inj hEncode), rfl⟩

/- A codec of one failure, which it writes as two bytes. -/
def sampleCodec :
    Codec (fun T => T → Except BusError Bytes)
      (fun T => Bytes → Except BusError T) where
  encode ser value := ser value
  decode de bytes := de bytes
  contentType := "application/json"

def sampleTarget :
    BrokerTarget (fun T => T → Except BusError Bytes)
      (fun T => Bytes → Except BusError T) where
  bus :=
    { supportsContentTypeHeaders := true
      dispatch := fun _ _ => .sent }
  destination := .replyTo
  codec := sampleCodec

def sampleDecoder (expected : RouteFailure) :
    ReplyDecoder (fun T => T → Except BusError Bytes)
      (fun T => Bytes → Except BusError T) Unit where
  codec :=
    { codecs := [sampleCodec], default := "application/json" }
  carriesContentType := true
  failure := fun bytes =>
    if bytes = [123, 125] then
      .ok expected
    else
      .error (.serialization "expected value")
  output := fun _ => .ok ()

def sampleSer (expected : RouteFailure) :
    Option RouteFailure → Except BusError Bytes
| some failure =>
    if failure = expected then
      .ok [123, 125]
    else
      .error (.serialization "unexpected value")
| none => .ok [110, 117, 108, 108]

def sampleRequestMessage : RouteMessage where
  address := "orders.total"
  id := 1
  messageId := "m"
  headers :=
    requestHeaders
      { pattern := "orders.total"
        replySubject := "replies"
        contentType := none }
      ∅ "a"
  metadata := ∅
  attempts := 0
  payload := []

/- A handler with the given result, and an HTTP target. -/
def sampleRoute
    (result : Except String Unit) (response : HttpResponse)
    (expected : RouteFailure) :
    RouteBinding (Option RouteFailure) where
  source := { decode := fun _ => .ok none }
  handler :=
    TypedRouteHandler.toRouteHandler
      { extract := fun message decoder => decoder message
        handler := .inl (fun _ => some result)
        toValue := fun _ => .ok none }
  target :=
    some
      { encode := fun _ message => some (.ok message)
        deliver := fun _ =>
          some (.error (.backend (.http response))) }
  errorTarget :=
    some (sampleTarget.toRouteTarget (sampleSer expected))
  failureDecision := .reject
  failureValue := fun failure => .ok (some failure)

def sampleRejection : RouteFailure where
  error := RouteError.handler "order rejected"
  original := FailedRouteMessage.ofMessage sampleRequestMessage

/- A response that no codec of the proxy can read. -/
def sampleResponse : HttpResponse where
  status := 422
  headers := ∅
  body := [255, 0]

theorem sample_repliesTo
    (result : Except String Unit) (response : HttpResponse)
    (expected : RouteFailure) :
    RepliesTo (sampleRoute result response expected)
      sampleTarget (sampleSer expected)
      (sampleDecoder expected) where
  errorTarget := rfl
  replyTo := rfl
  sameBus := rfl
  known := by
    have hMatches :
        matchesContentType "application/json"
          "application/json" = true := by
      decide
    exact List.find?_cons_of_pos hMatches
  roundTrip := by
    intro failure value bytes hValue hEncode
    cases hValue
    change sampleSer expected (some failure) = .ok bytes
      at hEncode
    by_cases hSame : failure = expected
    · rw [sampleSer, if_pos hSame] at hEncode
      cases hEncode
      rw [hSame]
      rfl
    · rw [sampleSer, if_neg hSame] at hEncode
      cases hEncode

def sampleEncoded : RouteMessage :=
  { sampleRequestMessage with
    payload := [123, 125]
    headers :=
      Headers.setContentType sampleRequestMessage.headers
        "application/json" }

/- What the proxy is sent when the handler fails. -/
def sampleFailed : RouteMessage :=
  { sampleEncoded with
    headers :=
      sampleEncoded.headers.insert routeFailureHeader
        "true" }

theorem sample_encode :
    sampleTarget.encode (sampleSer sampleRejection)
        (some sampleRejection) sampleRequestMessage =
      .ok sampleEncoded := by
  have hSer :
      sampleTarget.codec.encode (sampleSer sampleRejection)
          (some sampleRejection) =
        .ok [123, 125] :=
    if_pos rfl
  rw [BrokerTarget.encode, hSer]
  rfl

theorem sample_failed :
    failureMessage
        (sampleRoute (.error "order rejected") sampleResponse
          sampleRejection).failureValue
        (sampleTarget.toRouteTarget
          (sampleSer sampleRejection))
        sampleRequestMessage
        (RouteError.handler "order rejected") none =
      some (some sampleFailed) :=
  @failureMessage_of_encode _ _
    (sampleTarget.toRouteTarget (sampleSer sampleRejection))
    sampleRequestMessage sampleEncoded _
    (some sampleRejection) rfl
    (congrArg some sample_encode) rfl

/- The error target is sent the failure of the handler. -/
theorem sample_failureDelivered :
    .failureDelivered sampleFailed ∈
      (processRouteMessage
        (sampleRoute (.error "order rejected")
          sampleResponse sampleRejection)
        sampleRequestMessage).effects := by
  rw [effects_processRouteMessage]
  apply List.mem_append_right
  change _ ∈ (RouteBinding.aftermath _ _ (some
    (RouteError.handler "order rejected", none))).effects
  rw [← fail_eq]
  unfold RouteBinding.fail sampleRoute
  rw [deliverFailure_eq]
  have hFailed := sample_failed
  unfold sampleRoute at hFailed
  rw [hFailed]
  exact List.mem_cons_self

/- A call whose request is rejected returns the rejection. -/
theorem remote_iff_readable_rejection :
    ∃ subject reply failure,
      sampleTarget.dispatched sampleFailed =
        .ok (subject, reply) ∧
      (sampleDecoder sampleRejection).answer reply =
        .error (.remote failure) ∧
      failure.error = RouteError.handler "order rejected" := by
  rcases remote_iff_readable
      (sample_repliesTo (.error "order rejected")
        sampleResponse sampleRejection)
      sample_failureDelivered with
    ⟨error, response, subject, reply, hFails, hDispatched, _,
      hAnswer⟩
  cases hFails
  rcases hAnswer.mpr trivial with
    ⟨failure, hRemote, hError⟩
  exact ⟨subject, reply, failure, hDispatched, hRemote,
    hError⟩

/- The body of the response is no failure that can be read. -/
theorem response_is_transport_error :
    RepliesTo
        (sampleRoute (.ok ()) sampleResponse sampleRejection)
        sampleTarget (sampleSer sampleRejection)
        (sampleDecoder sampleRejection) ∧
    ∃ failed subject reply,
      RouteEffect.failureDelivered failed ∈
        (processRouteMessage
          (sampleRoute (.ok ()) sampleResponse
            sampleRejection)
          sampleRequestMessage).effects ∧
      sampleTarget.dispatched failed = .ok (subject, reply) ∧
      (sampleDecoder sampleRejection).answer reply =
        .error (.transport
          (.serialization "expected value")) := by
  exact ⟨sample_repliesTo _ _ _, _, _, _,
    List.mem_of_getElem? (i := 2) rfl, rfl, rfl⟩

end Proxy

end Router

end Qanat
