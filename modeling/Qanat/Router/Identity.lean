import Qanat.Bus.Publishing
import Qanat.Http.Adapter
import Qanat.Outbox.Model
import Qanat.Router.Failures

/-
  The identity of a message on its way through a route.

  A broker target writes the id of the message back into the
  headers that it publishes, and RabbitMQ takes another
  spelling for it.  An HTTP target does not, so its requests
  have the id exactly if the headers that reach it have.

  Main declarations:
    * `SourceInput`, `SourceInput.Identified`
    * `BuiltinTarget`, `Departure`, `BuiltinTarget.KeepsId`
    * `BuiltinTarget.leavesIdentified_iff`
    * `message_id_leaves_route`
-/

------------------------------------------------------------
-- Headers with an Id
------------------------------------------------------------

namespace Qanat

namespace Router

open Bus (IsMessageId messageIdHeader RawMessage
  isMessageId_canonical)

/- A header for the id, in any letter case, has this value. -/
def CarriesId (headers : Headers) (id : String) : Prop :=
  ∃ name, IsMessageId name = true ∧
    headers.lookup name = some id

theorem carriesId_congr
    {headers headers' : Headers}
    (hLookup : ∀ name, IsMessageId name = true →
      headers.lookup name = headers'.lookup name)
    (id : String) :
    CarriesId headers id ↔ CarriesId headers' id := by
  constructor
  · rintro ⟨name, hName, hValue⟩
    exact ⟨name, hName, by rw [← hLookup name hName, hValue]⟩
  · rintro ⟨name, hName, hValue⟩
    exact ⟨name, hName, by rw [hLookup name hName, hValue]⟩

theorem carriesId_of_lookup
    {headers : Headers} {id : String}
    (hLookup : headers.lookup messageIdHeader = some id) :
    CarriesId headers id :=
  ⟨messageIdHeader, isMessageId_canonical, hLookup⟩

/- A name that is no id can be dropped or added. -/
theorem ne_of_isMessageId
    {name other : String} (hName : IsMessageId name = true)
    (hOther : IsMessageId other = false) :
    name ≠ other := by
  rintro rfl
  rw [hName] at hOther
  cases hOther

theorem carriesId_insert_iff
    {other : String} (hOther : IsMessageId other = false)
    (headers : Headers) (value id : String) :
    CarriesId (headers.insert other value) id ↔
      CarriesId headers id :=
  carriesId_congr (fun _ hName => AList.lookup_insert_ne
    (ne_of_isMessageId hName hOther)) id

/- A response that is forwarded has lost its id. -/
theorem not_carriesId_forwarded
    (headers : Headers) (id : String) :
    ¬ CarriesId (forwardedHttpErrorHeaders headers) id := by
  rintro ⟨name, hName, hLookup⟩
  have hMem : name ∈ forwardedHttpErrorHeaders headers :=
    AList.lookup_isSome.mp (by rw [hLookup]; rfl)
  rcases of_mem_forwardedHttpErrorHeaders hMem with
    ⟨hLower, hKept⟩
  unfold IsMessageId eqIgnoreAsciiCase at hName
  rw [decide_eq_true_iff, hLower] at hName
  rw [hName] at hKept
  revert hKept
  decide

/- Nor has the failure that forwards it. -/
theorem not_carriesId_httpFailureHeaders
    (original : RouteMessage) (response : HttpResponse)
    (id : String) :
    ¬ CarriesId (httpFailureHeaders original response) id := by
  apply httpFailureHeaders_induction
    (P := fun headers => ¬ CarriesId headers id)
    (not_carriesId_forwarded response.headers id)
  intro headers name value hMem hNone
  have hName : IsMessageId name = false := by
    revert name
    decide
  rwa [carriesId_insert_iff hName]

theorem lookup_httpFailureHeaders_of_isMessageId
    (original : RouteMessage) (response : HttpResponse)
    {name : String} (hName : IsMessageId name = true) :
    (httpFailureHeaders original response).lookup name =
      none := by
  cases hLookup : (httpFailureHeaders original
      response).lookup name with
  | none => rfl
  | some id =>
      exact absurd ⟨name, hName, hLookup⟩
        (not_carriesId_httpFailureHeaders original response id)

end Router

end Qanat

------------------------------------------------------------
-- Inputs
------------------------------------------------------------

namespace Qanat

namespace Router

open Bus (RawMessage HeaderIteration routeMessageFromBroker
  isContentType_of_isMessageId)
open Http (IncomingRequest enqueueRequest)
open Outbox (OutboxRecord)

/- What the built-in sources make messages of. -/
inductive SourceInput where
| broker (message : RawMessage)
| http
    (iteration : HeaderIteration) (fresh : String)
    (number : UInt64) (bodyLimit : Nat)
    (request : IncomingRequest) (message : RouteMessage)
    (hMessage :
      enqueueRequest iteration fresh number bodyLimit
        request = some message)
| outbox (delivery : Nat) (record : OutboxRecord)

namespace SourceInput

def message : SourceInput → RouteMessage
| .broker message => routeMessageFromBroker message
| .http _ _ _ _ _ message _ => message
| .outbox delivery record =>
    Outbox.routeMessage delivery record

/-
  The input has its id in its headers, too.  An HTTP source
  puts it there, the others leave the headers alone.
-/
def Identified : SourceInput → Prop
| .broker message =>
    CarriesId message.headers message.envelope.messageId
| .http _ _ _ _ _ _ _ => True
| .outbox _ record => CarriesId record.headers record.id

/- The same of the headers that replace them, if there are. -/
def IdentifiedBy (input : SourceInput) :
    Option Headers → Prop
| none => input.Identified
| some headers => CarriesId headers input.message.messageId

end SourceInput

theorem carriesId_setContentType_iff
    (headers : Headers) (value id : String) :
    CarriesId (Headers.setContentType headers value) id ↔
      CarriesId headers id :=
  carriesId_congr (fun _ hName =>
    Headers.lookup_setContentType
      (isContentType_of_isMessageId hName)) id

theorem carriesId_message_iff (input : SourceInput) :
    CarriesId input.message.headers
        input.message.messageId ↔
      input.Identified := by
  cases input with
  | broker message => exact Iff.rfl
  | http iteration fresh number bodyLimit request message
      hMessage =>
      rcases Http.enqueueRequest_eq_some hMessage with
        ⟨payload, rfl⟩
      exact iff_true_intro
        (carriesId_of_lookup
          (Bus.lookup_ensureMessageId _ _))
  | outbox delivery record =>
      change CarriesId
          (Outbox.routeMessage delivery record).headers
          record.id ↔
        CarriesId record.headers record.id
      cases hType : record.contentType with
      | none => simp only [Outbox.routeMessage, hType]
      | some value =>
          simp only [Outbox.routeMessage, hType]
          exact carriesId_setContentType_iff _ _ _

theorem carriesId_getD_iff
    (input : SourceInput) (headers : Option Headers) :
    CarriesId (headers.getD input.message.headers)
        input.message.messageId ↔
      input.IdentifiedBy headers := by
  cases headers with
  | none => exact carriesId_message_iff input
  | some headers => exact Iff.rfl

end Router

end Qanat

------------------------------------------------------------
-- Targets
------------------------------------------------------------

namespace Qanat

namespace Router

open Bus (BrokerTarget BrokerDestination DispatchingBus
  IsMessageId Outgoing Readings
  isContentType_of_isMessageId)
open Http (HttpRequest HttpTarget)

variable {Ser De : Type → Type}
variable {Value Name HeaderValue : Type} [DecidableEq Name]

inductive BuiltinTarget
    (Ser De : Type → Type) (Name HeaderValue : Type) where
| broker
    (bus : DispatchingBus Name HeaderValue)
    (destination : BrokerDestination) (codec : Codec Ser De)
| http (target : HttpTarget Ser De)

/- What leaves a route: a message or a request. -/
inductive Departure (Name HeaderValue : Type) where
| sent (outgoing : Outgoing Name HeaderValue)
| requested (request : HttpRequest)

/-
  It has a header for the id with this value; the names of a
  request have no letter case.
-/
def Departure.Identified (id : String) :
    Departure Name HeaderValue → Prop
| .sent outgoing => outgoing.Identified id
| .requested request => CarriesId request.headers id

namespace BuiltinTarget

def Verbatim
    (target : BuiltinTarget Ser De Name HeaderValue) : Prop :=
  match target with
  | .broker bus _ _ => bus.Verbatim
  | .http _ => True

def brokerTarget
    (bus : DispatchingBus Name HeaderValue)
    (readings : Readings) (destination : BrokerDestination)
    (codec : Codec Ser De) : BrokerTarget Ser De where
  bus := (bus.toExternalBus readings).toMessageBus
  destination := destination
  codec := codec

def toRouteTarget
    (target : BuiltinTarget Ser De Name HeaderValue)
    (readings : Readings) (ser : Ser Value) :
    RouteTarget Value :=
  match target with
  | .broker bus destination codec =>
      (brokerTarget bus readings destination
        codec).toRouteTarget ser
  | .http target => target.toRouteTarget ser

/- What `deliver` hands over, if it comes that far. -/
def departure
    (target : BuiltinTarget Ser De Name HeaderValue)
    (readings : Readings) (output : RouteMessage) :
    Option (Departure Name HeaderValue) :=
  match target with
  | .broker bus destination codec =>
      match (brokerTarget bus readings destination
          codec).dispatched output with
      | .error _ => none
      | .ok (subject, message) =>
          (bus.outgoing readings subject message).map .sent
  | .http target =>
      some
        (.requested
          (target.request output.payload
            (output.headers.erase replyToHeader)))

/- The output leaves in some order of iteration. -/
def Leaves
    (target : BuiltinTarget Ser De Name HeaderValue)
    (output : RouteMessage) : Prop :=
  ∃ readings departure,
    target.departure readings output = some departure

/- Whatever leaves for the output has this id. -/
def LeavesIdentified
    (target : BuiltinTarget Ser De Name HeaderValue)
    (output : RouteMessage) (id : String) : Prop :=
  ∀ readings departure,
    target.departure readings output = some departure →
      departure.Identified id

/- Headers with which a message leaves under its own id. -/
def Keeps
    (target : BuiltinTarget Ser De Name HeaderValue)
    (headers : Headers) (id : String) : Prop :=
  match target with
  | .broker bus _ _ => bus.KeepsId headers id
  | .http _ => CarriesId headers id

omit [DecidableEq Name] in
theorem keeps_congr
    (target : BuiltinTarget Ser De Name HeaderValue)
    {headers headers' : Headers}
    (hLookup : ∀ name, IsMessageId name = true →
      headers.lookup name = headers'.lookup name)
    (id : String) :
    target.Keeps headers id ↔ target.Keeps headers' id := by
  cases target with
  | broker bus destination codec =>
      exact bus.keepsId_congr hLookup id
  | http target => exact carriesId_congr hLookup id

/- Where nothing leaves, the delivery does not succeed. -/
theorem deliver_of_departure_eq_none
    {target : BuiltinTarget Ser De Name HeaderValue}
    {readings : Readings} {output : RouteMessage}
    (ser : Ser Value)
    (hNone : target.departure readings output = none) :
    (target.toRouteTarget readings ser).deliver output ≠
      some (.ok ()) := by
  cases target with
  | http target => cases hNone
  | broker bus destination codec =>
      change (brokerTarget bus readings destination
        codec).deliver output ≠ _
      unfold BrokerTarget.deliver
      unfold departure at hNone
      cases hDispatched :
          (brokerTarget bus readings destination
            codec).dispatched output with
      | error error =>
          intro hDelivered
          cases hDelivered
      | ok sent =>
          rcases sent with ⟨subject, message⟩
          simp only [hDispatched] at hNone
          exact (Bus.DispatchingBus.unsent_of_outgoing_eq_none
            (Option.map_eq_none_iff.mp hNone)).2

/- An HTTP target asks for a response and judges it. -/
theorem deliver_of_requested
    {target : HttpTarget Ser De} {readings : Readings}
    {output : RouteMessage} {request : HttpRequest}
    (ser : Ser Value)
    (hDeparture :
      (http target :
        BuiltinTarget Ser De Name HeaderValue).departure
          readings output =
        some (.requested request)) :
    ((http target :
        BuiltinTarget Ser De Name HeaderValue).toRouteTarget
          readings ser).deliver output =
      match target.invoker request with
      | .error error => some (.error error)
      | .ok response =>
          if Http.IsSuccess response then some (.ok ())
          else some (.error (.backend (.http response))) := by
  cases hDeparture
  change some (target.deliver output) = _
  unfold HttpTarget.deliver HttpTarget.send
  cases target.invoker (target.request output.payload
      (output.headers.erase replyToHeader)) with
  | error error => rfl
  | ok response =>
      dsimp only
      split <;> rfl

/- Encoding leaves the headers for the id alone. -/
theorem lookup_of_encode
    {target : BuiltinTarget Ser De Name HeaderValue}
    {readings : Readings} {ser : Ser Value} {value : Value}
    {message encoded : RouteMessage}
    (hEncode :
      (target.toRouteTarget readings ser).encode value
          message =
        some (.ok encoded))
    {name : String} (hName : IsMessageId name = true) :
    encoded.headers.lookup name =
      message.headers.lookup name := by
  have hOther := isContentType_of_isMessageId hName
  cases target with
  | broker bus destination codec =>
      exact BrokerTarget.lookup_of_encode
        (Option.some.inj hEncode) hOther
  | http target =>
      exact HttpTarget.lookup_of_encode
        (Option.some.inj hEncode) hOther

theorem messageId_of_encode
    {target : BuiltinTarget Ser De Name HeaderValue}
    {readings : Readings} {ser : Ser Value} {value : Value}
    {message encoded : RouteMessage}
    (hEncode :
      (target.toRouteTarget readings ser).encode value
          message =
        some (.ok encoded)) :
    encoded.messageId = message.messageId := by
  cases target with
  | broker bus destination codec =>
      have hOk :
          (brokerTarget bus readings destination codec).encode
            ser value message = .ok encoded :=
        Option.some.inj hEncode
      unfold BrokerTarget.encode at hOk
      split at hOk <;> cases hOk
      rfl
  | http target =>
      have hOk :
          target.encode ser value message = .ok encoded :=
        Option.some.inj hEncode
      unfold HttpTarget.encode at hOk
      split at hOk <;> cases hOk
      rfl

/- What is dispatched has the headers for the id. -/
theorem lookup_of_dispatched
    {target : BrokerTarget Ser De} {output : RouteMessage}
    {subject : String} {message : Bus.RawMessage}
    (hDispatched :
      target.dispatched output = .ok (subject, message))
    {name : String} (hName : IsMessageId name = true) :
    message.headers.lookup name =
      output.headers.lookup name := by
  rw [(BrokerTarget.dispatched_eq_ok hDispatched).2.1]
  exact AList.lookup_erase_ne
    (ne_of_isMessageId hName (by decide))

/-
  What leaves for an output has its id exactly if the target
  keeps it with the headers of the output.
-/
theorem leavesIdentified_iff
    {target : BuiltinTarget Ser De Name HeaderValue}
    (hVerbatim : target.Verbatim) {output : RouteMessage}
    (hLeaves : target.Leaves output) :
    target.LeavesIdentified output output.messageId ↔
      target.Keeps output.headers output.messageId := by
  cases target with
  | http target =>
      have hRequest :
          CarriesId (target.request output.payload
              (output.headers.erase replyToHeader)).headers
              output.messageId ↔
            CarriesId output.headers output.messageId := by
        apply carriesId_congr
        intro name hName
        rw [target.lookup_request
          (isContentType_of_isMessageId hName)]
        exact AList.lookup_erase_ne
          (ne_of_isMessageId hName (by decide))
      constructor
      · intro hAll
        rcases hLeaves with ⟨readings, departure, hDeparture⟩
        have hIdentified := hAll readings departure hDeparture
        cases hDeparture
        exact hRequest.mp hIdentified
      · rintro hCarries readings _ ⟨⟩
        exact hRequest.mpr hCarries
  | broker bus destination codec =>
      -- the subject and the message are those of any reading
      have hSame : ∀ readings,
          (brokerTarget bus readings destination
              codec).dispatched output =
            (brokerTarget bus
              ⟨.identity, .identity, .identity, ""⟩
              destination codec).dispatched output :=
        fun _ => rfl
      cases hDispatched : (brokerTarget bus
          ⟨.identity, .identity, .identity, ""⟩ destination
          codec).dispatched output with
      | error error =>
          rcases hLeaves with
            ⟨readings, departure, hDeparture⟩
          unfold BuiltinTarget.departure at hDeparture
          dsimp only at hDeparture
          rw [hSame, hDispatched] at hDeparture
          cases hDeparture
      | ok dispatched =>
          rcases dispatched with ⟨subject, message⟩
          have hDeparture : ∀ readings departure,
              (broker bus destination codec).departure
                  readings output = some departure ↔
                ∃ out,
                  bus.outgoing readings subject message =
                      some out ∧
                    .sent out = departure := by
            intro readings departure
            unfold BuiltinTarget.departure
            dsimp only
            rw [hSame, hDispatched]
            exact Option.map_eq_some_iff
          have hId :=
            BrokerTarget.messageId_of_dispatched hDispatched
          have hKeeps := bus.keepsId_congr
            (fun _ hName => lookup_of_dispatched hDispatched
              hName) output.messageId
          have hOut : ∃ readings out,
              bus.outgoing readings subject message =
                some out := by
            rcases hLeaves with ⟨readings, left, hLeft⟩
            rcases (hDeparture readings left).mp hLeft with
              ⟨out, hOut, _⟩
            exact ⟨readings, out, hOut⟩
          have hIff := Bus.DispatchingBus.identified_iff
            hVerbatim hOut
          rw [hId] at hIff
          refine Iff.trans ?_ (hIff.trans hKeeps)
          constructor
          · intro hAll readings out hSent
            exact hAll readings _
              ((hDeparture readings _).mpr ⟨out, hSent, rfl⟩)
          · intro hAll readings departure hLeft
            rcases (hDeparture readings departure).mp hLeft
              with ⟨out, hSent, rfl⟩
            exact hAll readings out hSent

end BuiltinTarget

end Router

end Qanat

------------------------------------------------------------
-- Routes
------------------------------------------------------------

namespace Qanat

namespace Router

open Bus (IsMessageId Outgoing Readings)

variable {Ser De : Type → Type} {Value Args Output : Type}
variable {Name HeaderValue : Type} [DecidableEq Name]

/- A typed handler between built-in targets. -/
def builtinRoute
    (source : RouteSource Value)
    (typed : TypedRouteHandler Value Args Output)
    (success failure :
      BuiltinTarget Ser De Name HeaderValue)
    (readings readings' : Readings) (ser : Ser Value)
    (failureDecision : DeliveryDecision)
    (failureValue : RouteFailure → Except String Value) :
    RouteBinding Value where
  source := source
  handler := typed.toRouteHandler
  target := some (success.toRouteTarget readings ser)
  errorTarget := some (failure.toRouteTarget readings' ser)
  failureDecision := failureDecision
  failureValue := failureValue

/-
  The target keeps the id of the input with the headers that
  replace its own, if there are any.
-/
def BuiltinTarget.KeepsId
    (target : BuiltinTarget Ser De Name HeaderValue)
    (input : SourceInput) (headers : Option Headers) : Prop :=
  match target with
  | .broker bus _ _ =>
      bus.KeepsId (headers.getD input.message.headers)
        input.message.messageId
  | .http _ => input.IdentifiedBy headers

omit [DecidableEq Name] in
theorem BuiltinTarget.keepsId_iff
    (target : BuiltinTarget Ser De Name HeaderValue)
    (input : SourceInput) (headers : Option Headers) :
    target.KeepsId input headers ↔
      target.Keeps (headers.getD input.message.headers)
        input.message.messageId := by
  cases target with
  | broker bus destination codec => exact Iff.rfl
  | http target => exact (carriesId_getD_iff input headers).symm

/-
  Of the headers that the handler passes on: `none` are those
  of the input, and others its function returns.
-/
def TypedRouteHandler.Passes
    (typed : TypedRouteHandler Value Args Output)
    (decoder : Decoder Value) (input : SourceInput)
    (Keeps : Option Headers → Prop) : Prop :=
  ∀ args headers output,
    typed.extract input.message decoder = .ok args →
      typed.apply args = some (.ok (headers, output)) →
        Keeps headers

/-
  The same of the headers of a failure, which has none of
  the input's own if it forwards a response.
-/
def RouteBinding.FailurePasses
    (route : RouteBinding Value) (message : RouteMessage)
    (Keeps : Option Headers → Prop) : Prop :=
  ((∀ error response,
      ¬ route.Fails message error (some response)) →
    Keeps none) ∧
  ∀ error response,
    route.Fails message error (some response) →
      Keeps (some ∅)

theorem passes_iff_of_call
    {source : RouteSource Value}
    {typed : TypedRouteHandler Value Args Output}
    {success : BuiltinTarget Ser De Name HeaderValue}
    {readings : Readings} {ser : Ser Value}
    {input : SourceInput} {output : RouteMessage}
    (hCall :
      typed.call input.message source.decode
          (success.toRouteTarget readings ser) =
        some (.ok output)) :
    output.messageId = input.message.messageId ∧
      (success.Keeps output.headers input.message.messageId ↔
        typed.Passes source.decode input
          (success.KeepsId input)) := by
  rcases TypedRouteHandler.call_eq_ok hCall with
    ⟨args, headers, value, hExtract, hApply, hEncoded⟩
  rcases encodeHandlerOutput_eq_ok hEncoded with
    ⟨_, _, hEncode⟩
  have hPassed :
      success.Keeps output.headers input.message.messageId ↔
        success.KeepsId input headers := by
    rw [success.keepsId_iff]
    apply success.keeps_congr
    intro name hName
    rw [BuiltinTarget.lookup_of_encode hEncode hName]
    exact AList.lookup_erase_ne
      (ne_of_isMessageId hName (by decide))
  have hId := BuiltinTarget.messageId_of_encode hEncode
  refine ⟨hId, ?_⟩
  rw [hPassed]
  constructor
  · intro hKeeps args' headers' output' hExtract' hApply'
    rw [hExtract] at hExtract'
    cases hExtract'
    rw [hApply] at hApply'
    cases hApply'
    exact hKeeps
  · intro hPasses
    exact hPasses args headers value hExtract hApply

/- What an error target of either kind is given. -/
theorem keeps_failureMessage_iff
    {failureValue : RouteFailure → Except String Value}
    {failure : BuiltinTarget Ser De Name HeaderValue}
    {readings : Readings} {ser : Ser Value}
    {original failed : RouteMessage} {error : RouteError}
    {response : Option HttpResponse}
    (hFailed :
      failureMessage failureValue
          (failure.toRouteTarget readings ser) original error
          response =
        some (some failed)) :
    failed.messageId = original.messageId ∧
      ∀ id, failure.Keeps failed.headers id ↔
        failure.Keeps
          (if response = none then original.headers else ∅)
          id := by
  rcases failureMessage_eq_some hFailed with
    ⟨_, message, hPayload, rfl⟩
  have hMarked : ∀ name, IsMessageId name = true →
      (message.headers.insert routeFailureHeader
          "true").lookup name =
        message.headers.lookup name :=
    fun name hName => AList.lookup_insert_ne
      (ne_of_isMessageId hName (by decide))
  cases response with
  | none =>
      rcases failurePayload_none hPayload with
        ⟨value, _, hEncode⟩
      have hId := BuiltinTarget.messageId_of_encode hEncode
      refine ⟨hId, ?_⟩
      intro id
      apply failure.keeps_congr
      intro name hName
      rw [hMarked name hName,
        BuiltinTarget.lookup_of_encode hEncode hName,
        if_pos rfl]
  | some response =>
      cases hPayload
      refine ⟨rfl, ?_⟩
      intro id
      apply failure.keeps_congr
      intro name hName
      rw [hMarked name hName, if_neg nofun]
      exact lookup_httpFailureHeaders_of_isMessageId
        original response hName

/-
  What leaves a route has the id of the input exactly if its
  target keeps the id with the headers that are passed on: an
  HTTP target if they have it, RabbitMQ if they have no other
  spelling with another value, and the other buses always.
  The last part is about an input whose partition cannot be
  resolved.
-/
theorem message_id_leaves_route
    (input : SourceInput) (source : RouteSource Value)
    (typed : TypedRouteHandler Value Args Output)
    {success failure :
      BuiltinTarget Ser De Name HeaderValue}
    (hSuccess : success.Verbatim)
    (hFailure : failure.Verbatim)
    (readings readings' : Readings) (ser : Ser Value)
    (failureDecision : DeliveryDecision)
    (failureValue : RouteFailure → Except String Value) :
    let route := builtinRoute source typed success failure
      readings readings' ser failureDecision failureValue
    (∀ output,
      .delivered output ∈
          (processRouteMessage route input.message).effects →
        success.Leaves output →
          (success.LeavesIdentified output
              input.message.messageId ↔
            typed.Passes source.decode input
              (success.KeepsId input))) ∧
      (∀ failed,
        .failureDelivered failed ∈
            (processRouteMessage route
              input.message).effects →
          failure.Leaves failed →
            (failure.LeavesIdentified failed
                input.message.messageId ↔
              route.FailurePasses input.message
                (failure.KeepsId input))) ∧
      (∀ error failed,
        .failureDelivered failed ∈
            (route.fail input.message error none).effects →
          failure.Leaves failed →
            (failure.LeavesIdentified failed
                input.message.messageId ↔
              failure.KeepsId input none)) := by
  intro route
  refine ⟨?_, ?_, ?_⟩
  · intro output hDelivered hLeaves
    rcases call_of_delivered hDelivered with
      ⟨target, hTarget, _, hCall⟩
    cases hTarget
    have hTyped :
        typed.call input.message source.decode
            (success.toRouteTarget readings ser) =
          some (.ok output) := hCall
    rcases passes_iff_of_call hTyped with ⟨hId, hPasses⟩
    rw [← hPasses, ← hId]
    exact BuiltinTarget.leavesIdentified_iff hSuccess hLeaves
  · intro failed hDelivered hLeaves
    rcases fails_of_failureDelivered hDelivered with
      ⟨target, error, response, hTarget, hFails, hFailed⟩
    cases hTarget
    rcases keeps_failureMessage_iff hFailed with
      ⟨hId, hKeeps⟩
    have hIff :=
      BuiltinTarget.leavesIdentified_iff hFailure hLeaves
    rw [hId, hKeeps] at hIff
    rw [hIff]
    cases response with
    | none =>
        have hNone := (eq_none_iff_of_fails hFails).mp rfl
        rw [if_pos rfl]
        constructor
        · intro hOwn
          refine ⟨fun _ =>
            (failure.keepsId_iff input none).mpr hOwn, ?_⟩
          intro error' response' hFails'
          exact absurd hFails' (hNone error' response')
        · intro hPasses
          exact (failure.keepsId_iff input none).mp
            (hPasses.1 hNone)
    | some response =>
        rw [if_neg nofun]
        constructor
        · intro hEmpty
          refine ⟨fun hNone =>
            absurd hFails (hNone error response), ?_⟩
          intro _ _ _
          exact (failure.keepsId_iff input (some ∅)).mpr
            hEmpty
        · intro hPasses
          exact (failure.keepsId_iff input (some ∅)).mp
            (hPasses.2 error response hFails)
  · intro error failed hDelivered hLeaves
    rcases failureDelivered_of_fail hDelivered with
      ⟨target, hTarget, hFailed⟩
    cases hTarget
    rcases keeps_failureMessage_iff hFailed with
      ⟨hId, hKeeps⟩
    have hIff :=
      BuiltinTarget.leavesIdentified_iff hFailure hLeaves
    rw [hId, hKeeps, if_pos rfl] at hIff
    exact hIff.trans (failure.keepsId_iff input none).symm

/- A codec that writes one byte for every value. -/
def byteCodec : Codec (fun _ => Unit) (fun _ => Unit) where
  encode := fun _ _ => .ok [1]
  decode := fun _ _ => .error (.serialization "no value")

/- A record that has its id in its own field only. -/
def outboxInput : SourceInput :=
  .outbox 0
    { id := "event-1"
      address := "orders"
      payload := []
      contentType := none
      headers := ∅
      metadata := ∅
      attempts := 0 }

def unitHandler : TypedRouteHandler Unit Unit Unit where
  extract := fun _ _ => .ok ()
  handler := .inl (fun _ => some (.ok ()))
  toValue := fun _ => .ok ()

/- A target whose server has the given status. -/
def statusTarget (status : UInt16) :
    BuiltinTarget (fun _ => Unit) (fun _ => Unit) String
      String :=
  .http
    { method := .post
      url := "/orders"
      invoker := fun _ =>
        .ok { status := status, headers := ∅, body := [] }
      codec := byteCodec }

/- Maps are read in the order of their entries. -/
def plainReadings : Readings :=
  ⟨.identity, .identity, .identity, ""⟩

/- The server is unavailable, that of the errors is not. -/
def unavailableRoute : RouteBinding Unit :=
  builtinRoute {} unitHandler (statusTarget 503)
    (statusTarget 200) plainReadings plainReadings () .reject
    (fun _ => .ok ())

theorem unavailableRoute_effects :
    (processRouteMessage unavailableRoute
        outboxInput.message).effects =
      [.handled outboxInput.message,
        .delivered
          { outboxInput.message with
            payload := [1]
            headers :=
              (∅ : Headers).insert "content-type"
                "application/octet-stream" },
        .failureDelivered
          { outboxInput.message with
            headers :=
              ((∅ : Headers).insert httpStatusHeader
                "503").insert routeFailureHeader "true" },
        .settled outboxInput.message .reject] :=
  rfl

/- A target on a RabbitMQ bus that takes every message. -/
def ordersTarget :
    BuiltinTarget (fun _ => Unit) (fun _ => Unit) String
      String :=
  .broker (.rabbitMq (fun _ => .sent))
    (.subject "orders.done") byteCodec

def ordersRoute : RouteBinding Unit :=
  builtinRoute {} unitHandler ordersTarget
    (statusTarget 200) plainReadings plainReadings () .reject
    (fun _ => .ok ())

/- The output for an input, encoded for the bus. -/
def ordersOutput (input : SourceInput) : RouteMessage :=
  { input.message with
    payload := [1]
    headers :=
      Headers.setContentType
        (input.message.headers.erase routeFailureHeader)
        byteCodec.contentType
    attempts := 0 }

/- A message that has its id `m` and another spelling. -/
def spelledInput : SourceInput :=
  .broker (Bus.messageWithHeader "Qanat-Message-Id" "n")

/- The spelling comes first when the headers are read. -/
def spelledReadings : Readings :=
  ⟨.first "Qanat-Message-Id", .identity, .identity, ""⟩

def spelledSent : Bus.RawMessage :=
  Bus.brokerMessageFromRoute
    { ordersOutput spelledInput with
      headers :=
        (ordersOutput spelledInput).headers.erase replyToHeader
      address := "orders.done" }

theorem spelledSent_isSome :
    (Bus.publishedOn spelledReadings "orders.done"
      spelledSent).isSome = true := by
  decide +kernel

theorem requests_lack_message_id :
    (∃ output departure,
      .delivered output ∈
          (processRouteMessage unavailableRoute
            outboxInput.message).effects ∧
        (statusTarget 503).departure plainReadings output =
          some departure ∧
        ¬ departure.Identified "event-1") ∧
      (∃ failed departure,
        .failureDelivered failed ∈
            (processRouteMessage unavailableRoute
              outboxInput.message).effects ∧
          (statusTarget 200).departure plainReadings failed =
            some departure ∧
          ¬ departure.Identified "event-1") ∧
      ∃ output departure,
        .delivered output ∈
            (processRouteMessage ordersRoute
              spelledInput.message).effects ∧
          ordersTarget.departure spelledReadings output =
            some departure ∧
          ¬ departure.Identified "m" := by
  have hEmpty : ¬ CarriesId (∅ : Headers) "event-1" := by
    rintro ⟨name, _, hLookup⟩
    cases hLookup
  rw [unavailableRoute_effects]
  refine ⟨?_, ?_, ?_⟩
  · refine ⟨_, _, List.mem_cons_of_mem _ List.mem_cons_self,
      rfl, ?_⟩
    change ¬ CarriesId ((∅ : Headers).insert "content-type"
      "application/octet-stream") _
    rwa [carriesId_insert_iff (by decide)]
  · refine ⟨_, _, List.mem_cons_of_mem _
      (List.mem_cons_of_mem _ List.mem_cons_self), rfl, ?_⟩
    change ¬ CarriesId
      ((((∅ : Headers).insert httpStatusHeader
        "503").insert routeFailureHeader "true").insert
        "content-type" "application/octet-stream") _
    rwa [carriesId_insert_iff (by decide),
      carriesId_insert_iff (by decide),
      carriesId_insert_iff (by decide)]
  · have hDelivered :
        .delivered (ordersOutput spelledInput) ∈
          (processRouteMessage ordersRoute
            spelledInput.message).effects :=
      List.mem_of_getElem? (i := 1) rfl
    rcases Option.isSome_iff_exists.mp spelledSent_isSome
      with ⟨published, hPublished⟩
    have hDeparture :
        ordersTarget.departure spelledReadings
            (ordersOutput spelledInput) =
          some (.sent (.published published)) :=
      congrArg (Option.map Departure.sent)
        (congrArg (Option.map Outgoing.published) hPublished)
    refine ⟨_, _, hDelivered, hDeparture, ?_⟩
    intro hIdentified
    have hId :=
      (@Bus.identified_of_published String String _ _ _ _
        hPublished "m").mp hIdentified
    revert hId
    decide +kernel

theorem message_id_leaves_route_outbox :
    ∃ output,
      .delivered output ∈
          (processRouteMessage ordersRoute
            outboxInput.message).effects ∧
        ordersTarget.Leaves output ∧
        ordersTarget.LeavesIdentified output "event-1" := by
  have hDelivered :
      .delivered (ordersOutput outboxInput) ∈
        (processRouteMessage ordersRoute
          outboxInput.message).effects :=
    List.mem_of_getElem? (i := 1) rfl
  have hSome :
      (ordersTarget.departure plainReadings
        (ordersOutput outboxInput)).isSome = true := by
    decide +kernel
  have hLeaves :
      ordersTarget.Leaves (ordersOutput outboxInput) :=
    ⟨plainReadings, Option.isSome_iff_exists.mp hSome⟩
  refine ⟨_, hDelivered, hLeaves, ?_⟩
  apply ((@message_id_leaves_route _ _ _ _ _ _ _ _
    outboxInput {} unitHandler ordersTarget
    (statusTarget 200) trivial trivial plainReadings
    plainReadings () .reject (fun _ => .ok ())).1 _
    hDelivered hLeaves).mpr
  rintro _ headers _ _ ⟨⟩
  refine ⟨by decide, ?_⟩
  intro name value _ _ hLookup
  cases hLookup

end Router

end Qanat
