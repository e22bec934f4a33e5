import Qanat.Bus.Hop
import Qanat.Router.Extractors

/-
  Chains of typed routes with buses between them.

  Each route hands what it returns to a broker, and the next
  route takes it from there.  A chain of routes computes the
  composition of what their handlers compute, and what fails
  on the way can be read as a failure.

  Main declarations:
    * `Stage`, `Linked`, `Path`
    * `Stage.delivered_iff`, `Stage.passes`
    * `pipeline_computes`
    * `failures_reach_readers`
-/

------------------------------------------------------------
-- Chains of Routes
------------------------------------------------------------

namespace Qanat

namespace Router

open Transition
open Bus (RawMessage BrokerSource BrokerTarget BusKind Hop Reads
  routeMessageFromBroker)

variable {Ser De : Type → Type} {Value : Type}

/- A broker source with the type of its values. -/
structure Reader (Ser De : Type → Type) (Value : Type) where
  source : BrokerSource Ser De
  de : De Value

/-
  A typed route from a broker to a bus, and the function of
  letters that its handler implements.
-/
structure Stage
    (Ser De : Type → Type) {Value : Type}
    (Same : Value → Value → Prop) where
  reader : Reader Ser De Value
  Args : Type
  Output : Type
  typed : TypedRouteHandler Value Args Output
  bus : BusKind
  target : BrokerTarget Ser De
  ser : Ser Value
  errorTarget : Option (RouteTarget Value)
  failureDecision : DeliveryDecision
  failureValue : RouteFailure → Except String Value
  meaning : Letter Value → Option (Letter Value)
  implements : typed.Implements Same meaning

variable {Same : Value → Value → Prop}

def Stage.route (stage : Stage Ser De Same) :
    RouteBinding Value where
  source := stage.reader.source.toRouteSource stage.reader.de
  handler := stage.typed.toRouteHandler
  target := some (stage.target.toRouteTarget stage.ser)
  errorTarget := stage.errorTarget
  failureDecision := stage.failureDecision
  failureValue := stage.failureValue

/- The message is read as the letter. -/
def Reader.Sees
    (reader : Reader Ser De Value)
    (Same : Value → Value → Prop)
    (message : RouteMessage) (letter : Letter Value) : Prop :=
  ∃ value,
    reader.source.decode reader.de message = .ok value ∧
      SameLetter Same letter ⟨message.headers, value⟩

/- Who receives what is sent to the stages. -/
def nextReader
    (stages : List (Stage Ser De Same))
    (sink : Reader Ser De Value) : Reader Ser De Value :=
  match stages with
  | [] => sink
  | stage :: _ => stage.reader

/- Each stage is read by the next one, the last by `sink`. -/
def Linked
    (stages : List (Stage Ser De Same))
    (sink : Reader Ser De Value) : Prop :=
  match stages with
  | [] => True
  | stage :: rest =>
      Reads Same stage.bus stage.target stage.ser
        (nextReader rest sink).source
        (nextReader rest sink).de ∧
      Linked rest sink

/- What can become of a message that the first stage takes. -/
inductive Path
    {Name HeaderValue : Type} [DecidableEq Name]
    (library : Bus.Nats.HeaderSyntax Name HeaderValue)
    (service : Bus.Nats.Service Name HeaderValue) :
    List (Stage Ser De Same) → RouteMessage → RouteMessage →
      Prop where
| arrived (message : RouteMessage) :
    Path library service [] message message
| passed
    {stage : Stage Ser De Same}
    {rest : List (Stage Ser De Same)}
    {message output last : RouteMessage} {subject : String}
    {sent got : RawMessage} :
    .delivered output ∈
      (processRouteMessage stage.route message).effects →
    stage.target.dispatched output = .ok (subject, sent) →
    Hop library service stage.bus subject sent got →
    Path library service rest (routeMessageFromBroker got) last →
    Path library service (stage :: rest) message last

end Router

end Qanat

------------------------------------------------------------
-- Chains That Are Split
------------------------------------------------------------

namespace Qanat

namespace Router

variable {Ser De : Type → Type} {Value : Type}
variable {Same : Value → Value → Prop}

theorem nextReader_append
    (done : List (Stage Ser De Same))
    (stage : Stage Ser De Same)
    (rest : List (Stage Ser De Same))
    (sink : Reader Ser De Value) :
    nextReader (done ++ stage :: rest) sink =
      nextReader done stage.reader := by
  cases done <;> rfl

/- A beginning of a chain ends at the reader of the rest. -/
theorem Linked.beginning
    {done : List (Stage Ser De Same)}
    {stage : Stage Ser De Same}
    {rest : List (Stage Ser De Same)}
    {sink : Reader Ser De Value}
    (hLinked : Linked (done ++ stage :: rest) sink) :
    Linked done stage.reader := by
  induction done with
  | nil => trivial
  | cons first done ih =>
      rcases hLinked with ⟨hReads, hRest⟩
      exact ⟨nextReader_append done stage rest sink ▸ hReads,
        ih hRest⟩

end Router

end Qanat

------------------------------------------------------------
-- One Stage
------------------------------------------------------------

namespace Qanat

namespace Router

open Transition
open Bus (RawMessage BrokerTarget BusKind Hop Reads
  routeMessageFromBroker)

variable {Ser De : Type → Type} {Value : Type}
variable {Same : Value → Value → Prop}

/- A call whose target accepts the message is delivered. -/
theorem delivered_of_call
    {route : RouteBinding Value} {target : RouteTarget Value}
    {message output : RouteMessage}
    (hTarget : route.target = some target)
    (hAccepts : target.accepts message = some true)
    (hCall :
      route.handler.call message route.source.decode target =
        some (.ok output)) :
    .delivered output ∈
      (processRouteMessage route message).effects := by
  rw [processRouteMessage_eq]
  unfold RouteBinding.attempt
  rw [hTarget]
  simp only [hAccepts, hCall]
  cases target.deliver output with
  | none => simp
  | some result => cases result <;> simp

/- What is delivered is what the handler says, encoded. -/
theorem Stage.delivered_iff
    {stage : Stage Ser De Same}
    {message output : RouteMessage} :
    .delivered output ∈
        (processRouteMessage stage.route message).effects ↔
      stage.target.accepts message = true ∧
        ∃ letter,
          stage.typed.returned message
              (stage.reader.source.decode stage.reader.de) =
            some letter ∧
          stage.target.encode stage.ser letter.value
              (letter.onto message) =
            .ok output := by
  constructor
  · intro hDelivered
    rcases call_of_delivered hDelivered with
      ⟨target, hTarget, hAccepts, hCall⟩
    change some (stage.target.toRouteTarget stage.ser) =
      some target at hTarget
    rw [Option.some.injEq] at hTarget
    subst hTarget
    rcases TypedRouteHandler.call_eq_ok_iff.mp hCall with
      ⟨letter, hReturned, hEncode⟩
    exact ⟨Option.some.inj hAccepts, letter, hReturned,
      Option.some.inj hEncode⟩
  · rintro ⟨hAccepts, letter, hReturned, hEncode⟩
    have hCall :
        stage.typed.call message
            (stage.reader.source.decode stage.reader.de)
            (stage.target.toRouteTarget stage.ser) =
          some (.ok output) :=
      TypedRouteHandler.call_eq_ok_iff.mpr
        ⟨letter, hReturned, congrArg some hEncode⟩
    exact @delivered_of_call _ stage.route _ _ _ rfl
      (congrArg some hAccepts) hCall

/- Ordinary headers of what is dispatched are carried. -/
theorem sameHeaders_of_dispatched
    {Name HeaderValue : Type} [DecidableEq Name]
    {library : Bus.Nats.HeaderSyntax Name HeaderValue}
    {service : Bus.Nats.Service Name HeaderValue}
    (hCarries : service.Carries library)
    {target : BrokerTarget Ser De} {output : RouteMessage}
    {bus : BusKind} {subject : String}
    {sent got : RawMessage}
    (hDispatched :
      target.dispatched output = .ok (subject, sent))
    (hHop : Hop library service bus subject sent got) :
    SameHeaders output.headers got.headers := by
  intro name hName
  rcases hName with ⟨hId, hType, hReply, _⟩
  rcases BrokerTarget.dispatched_eq_ok hDispatched with
    ⟨_, hHeaders, _⟩
  rw [(Bus.carried_of_hop hCarries hHop).headers name hId
      hType, hHeaders, AList.lookup_erase_ne hReply]

/- A result has no marker of failures and asks no reply. -/
theorem unmarked_of_hop
    {Name HeaderValue : Type} [DecidableEq Name]
    {library : Bus.Nats.HeaderSyntax Name HeaderValue}
    {service : Bus.Nats.Service Name HeaderValue}
    (hCarries : service.Carries library)
    {stage : Stage Ser De Same}
    {message output : RouteMessage} {subject : String}
    {sent got : RawMessage}
    (hDelivered :
      .delivered output ∈
        (processRouteMessage stage.route message).effects)
    (hDispatched :
      stage.target.dispatched output = .ok (subject, sent))
    (hHop : Hop library service stage.bus subject sent got) :
    got.headers.lookup routeFailureHeader = none ∧
      got.headers.lookup replyToHeader = none := by
  rcases Stage.delivered_iff.mp hDelivered with
    ⟨_, letter, _, hEncode⟩
  rcases BrokerTarget.dispatched_eq_ok hDispatched with
    ⟨_, hHeaders, _⟩
  have hCarried := Bus.carried_of_hop hCarries hHop
  constructor
  · rw [hCarried.headers _ (by decide) (by decide), hHeaders,
      AList.lookup_erase_ne (by decide),
      BrokerTarget.lookup_of_encode hEncode (by decide)]
    exact AList.lookup_erase _ _
  · rw [hCarried.headers _ (by decide) (by decide), hHeaders]
    exact AList.lookup_erase _ _

end Router

end Qanat

------------------------------------------------------------
-- All Stages
------------------------------------------------------------

namespace Qanat

namespace Router

open Transition

variable {Ser De : Type → Type} {Value : Type}
variable {Same : Value → Value → Prop}

/- What comes out of a chain comes from its last stage. -/
theorem Path.unmarked
    {Name HeaderValue : Type} [DecidableEq Name]
    {library : Bus.Nats.HeaderSyntax Name HeaderValue}
    {service : Bus.Nats.Service Name HeaderValue}
    (hCarries : service.Carries library)
    {stages : List (Stage Ser De Same)}
    {message last : RouteMessage}
    (hPath : Path library service stages message last)
    (hStages : stages ≠ []) :
    last.headers.lookup routeFailureHeader = none ∧
      last.headers.lookup replyToHeader = none := by
  induction hPath with
  | arrived message => exact absurd rfl hStages
  | @passed stage rest _ _ _ _ _ _ hDelivered hDispatched
      hHop hRest ih =>
      cases rest with
      | nil =>
          cases hRest
          exact unmarked_of_hop hCarries hDelivered
            hDispatched hHop
      | cons next rest => exact ih (List.cons_ne_nil _ _)

/- A codec for numbers; their widths are not encoded. -/
def unaryCodec :
    Codec (fun T => T → Nat) (fun T => Nat → T) where
  encode := fun ser value =>
    .ok (List.replicate (ser value) 0)
  decode := fun de bytes => .ok (de bytes.length)
  contentType := "application/unary"

/- The same number, of any width. -/
def SameNumber (number number' : Nat × Bool) : Prop :=
  number.1 = number'.1

instance : IsTrans (Nat × Bool) SameNumber where
  trans := fun _ _ _ => Eq.trans

def countingBus : Bus.MessageBus where
  supportsContentTypeHeaders := true
  dispatch := fun _ _ => .sent

def numberReader :
    Reader (fun T => T → Nat) (fun T => Nat → T)
      (Nat × Bool) where
  source :=
    { bus := countingBus
      codec := HeaderAwareCodec.new unaryCodec }
  de := fun number => (number, true)

/- Adds one and says so in a header. -/
def addOne :
    TypedRouteHandler (Nat × Bool) (Headers × Nat) Nat where
  extract :=
    FromRouteMessage.both FromRouteMessage.routeHeaders
      (FromRouteMessage.deserialize
        (fun number => .ok number.1))
  handler := .inr (fun args =>
    some (.ok (args.1.insert "added" "1", args.2 + 1)))
  toValue := fun number => .ok (number, false)

theorem addOne_implements :
    addOne.Implements SameNumber
      (fun letter =>
        ((some letter.headers).bind (fun headers =>
          (Except.toOption (ε := String)
            (.ok letter.value.1)).bind (fun number =>
              some (headers, number)))).bind
          (addOne.result letter.headers)) := by
  apply TypedRouteHandler.implements_of_dependsOn
    (FromRouteMessage.both_dependsOn
      FromRouteMessage.routeHeaders_dependsOn
      (FromRouteMessage.deserialize_dependsOn
        (fun _ _ hSame => congrArg Except.ok hSame)))
  rintro headers headers' ⟨given, number⟩ ⟨given', number'⟩ _
    ⟨hGiven, rfl⟩
  refine .some ⟨?_, rfl⟩
  intro name hName
  by_cases hAdded : name = "added"
  · rw [hAdded]
    exact (AList.lookup_insert given).trans
      (AList.lookup_insert given').symm
  · exact (AList.lookup_insert_ne hAdded).trans
      ((hGiven name hName).trans
        (AList.lookup_insert_ne hAdded).symm)

def addingStage :
    Stage (fun T => T → Nat) (fun T => Nat → T)
      SameNumber where
  reader := numberReader
  Args := Headers × Nat
  Output := Nat
  typed := addOne
  bus := .rabbitMq
  target :=
    { bus := countingBus
      destination := .subject "numbers"
      codec := unaryCodec }
  ser := fun number => number.1
  errorTarget := none
  failureDecision := .reject
  failureValue := fun _ => .error "no failures"
  meaning := _
  implements := addOne_implements

theorem addingStage_reads :
    Bus.Reads SameNumber .rabbitMq addingStage.target
      addingStage.ser numberReader.source numberReader.de where
  sends := rfl
  receives := rfl
  decodes := by
    refine ⟨unaryCodec, rfl, ?_⟩
    rintro value _ ⟨⟩
    refine ⟨_, rfl, ?_⟩
    exact (List.length_replicate ..).symm

/- Three ones, as they come from a broker. -/
def threeMessage : RouteMessage where
  address := "numbers"
  id := 1
  messageId := "m"
  headers :=
    Headers.setContentType ∅ "application/unary"
  metadata := ∅
  attempts := 0
  payload := [0, 0, 0]

/- What leaves the stage for a message on the bus. -/
def numbersSent
    (output : RouteMessage) : Bus.RawMessage :=
  Bus.brokerMessageFromRoute
    { output with
      headers := output.headers.erase replyToHeader
      address := "numbers" }

def numbersPublished (sent : Bus.RawMessage) :
    Option Bus.RabbitMq.Published :=
  Bus.RabbitMq.publishBytes FiniteMap.Iteration.identity
    FiniteMap.Iteration.identity
    FiniteMap.Iteration.identity "" "numbers" sent.payload
    (some (Bus.dispatchRawHeaders sent))

/- It is received if its texts are short enough. -/
theorem addingStage_hop
    {sent : Bus.RawMessage}
    (hShort : (numbersPublished sent).isSome = true) :
    Bus.Hop Bus.Nats.sampleLibrary Bus.Nats.sampleService
      .rabbitMq "numbers" sent
      (Bus.RabbitMq.deliveryToRaw
        FiniteMap.Iteration.identity ""
        ((numbersPublished sent).get hShort) false 0) :=
  Bus.Hop.rabbitMq FiniteMap.Iteration.identity
    FiniteMap.Iteration.identity
    FiniteMap.Iteration.identity
    FiniteMap.Iteration.identity "" "" false 0
    (Option.some_get hShort).symm

end Router

end Qanat

------------------------------------------------------------
-- Failures
------------------------------------------------------------

namespace Qanat

namespace Router

open Transition
open Bus (RawMessage BrokerTarget BusKind Hop Reads
  routeMessageFromBroker)

variable {Ser De : Type → Type} {Value : Type}

/-
  What is received of a failure: the value of the failure
  with the headers of its message, or the response that the
  target of the route has got.
-/
def ArrivesAsFailure
    (Same : Value → Value → Prop)
    (route : RouteBinding Value)
    (reader : Reader Ser De Value) (message : RouteMessage)
    (error : RouteError) (got : RawMessage) :
    Option HttpResponse → Prop
| none =>
    ∃ value,
      route.failureValue
          ⟨error, FailedRouteMessage.ofMessage message⟩ =
        .ok value ∧
      reader.Sees Same (routeMessageFromBroker got)
        ⟨message.headers, value⟩
| some response =>
    got.payload = response.body ∧
      SameHeaders (httpFailureHeaders message response)
        got.headers

/-
  A failure that a route sends to a broker is read on every
  bus as what it is, and is marked.
-/
theorem failures_reach_readers
    {Name HeaderValue : Type} [DecidableEq Name]
    {library : Bus.Nats.HeaderSyntax Name HeaderValue}
    {service : Bus.Nats.Service Name HeaderValue}
    (hCarries : service.Carries library)
    {Same : Value → Value → Prop}
    {route : RouteBinding Value}
    {target : BrokerTarget Ser De} {ser : Ser Value}
    (hTarget :
      route.errorTarget = some (target.toRouteTarget ser))
    {bus : BusKind} {reader : Reader Ser De Value}
    (hReads :
      Reads Same bus target ser reader.source reader.de)
    {message failed : RouteMessage}
    (hFailed :
      .failureDelivered failed ∈
        (processRouteMessage route message).effects)
    {subject : String} {sent got : RawMessage}
    (hDispatched :
      target.dispatched failed = .ok (subject, sent))
    (hHop : Hop library service bus subject sent got) :
    got.headers.lookup routeFailureHeader = some "true" ∧
    ∃ error response, route.Fails message error response ∧
      ArrivesAsFailure Same route reader message error got
        response := by
  rcases fails_of_failureDelivered hFailed with
    ⟨target', error, response, hTarget', hFails, hMessage⟩
  rw [hTarget, Option.some.injEq] at hTarget'
  subst hTarget'
  rcases failureMessage_eq_some hMessage with
    ⟨_, base, hPayload, rfl⟩
  have hCarried := Bus.carried_of_hop hCarries hHop
  rcases BrokerTarget.dispatched_eq_ok hDispatched with
    ⟨_, hHeaders, hSent⟩
  have hBase : SameHeaders base.headers got.headers := by
    intro name hName
    rw [← sameHeaders_of_dispatched hCarries hDispatched
      hHop name hName, AList.lookup_insert_ne hName.2.2.2]
  refine ⟨?_, error, response, hFails, ?_⟩
  · rw [hCarried.headers _ (by decide) (by decide), hHeaders,
      AList.lookup_erase_ne (by decide), AList.lookup_insert]
  cases response with
  | some response =>
      cases hPayload
      exact ⟨hCarried.payload.trans hSent, hBase⟩
  | none =>
      rcases failurePayload_none hPayload with
        ⟨value, hValue, hEncode⟩
      have hTypes : ∀ name,
          Headers.IsContentType name = true →
            (base.headers.insert routeFailureHeader
                "true").lookup name =
              base.headers.lookup name := by
        intro name hType
        apply AList.lookup_insert_ne
        rintro rfl
        revert hType
        decide
      have hBody :
          { base with
            headers := base.headers.insert
              routeFailureHeader "true" }.payload =
            base.payload := rfl
      have hEncoded := Option.some.inj hEncode
      rcases Bus.decode_of_hop hCarries hReads hEncoded hBody
          hTypes hDispatched hHop with
        ⟨value', hDecode, hSame⟩
      refine ⟨value, hValue, value', hDecode, ?_, hSame⟩
      intro name hName
      change message.headers.lookup name =
        got.headers.lookup name
      rw [← hBase name hName,
        BrokerTarget.lookup_of_encode hEncoded hName.2.1]

/- A route that takes no number and says so as seven. -/
def refusingRoute : RouteBinding (Nat × Bool) where
  source := numberReader.source.toRouteSource numberReader.de
  handler :=
    { call := fun _ _ _ =>
        some (.error (RouteError.handler "no numbers")) }
  target := some (addingStage.target.toRouteTarget
    addingStage.ser)
  errorTarget := some (addingStage.target.toRouteTarget
    addingStage.ser)
  failureDecision := .reject
  failureValue := fun _ => .ok (7, false)

def refusedMessage : RouteMessage :=
  { threeMessage with
    headers := (Headers.setContentType threeMessage.headers
      "application/unary").insert routeFailureHeader "true"
    payload := List.replicate 7 0 }

theorem refusedSent_short :
    (numbersPublished (numbersSent refusedMessage)).isSome =
      true := by
  decide +kernel

theorem failures_reach_readers_refused :
    ∃ got,
      got.headers.lookup routeFailureHeader = some "true" ∧
      ∃ error response,
        refusingRoute.Fails threeMessage error response ∧
        ArrivesAsFailure SameNumber refusingRoute
          numberReader threeMessage error got response := by
  have hFailed :
      .failureDelivered refusedMessage ∈
        (processRouteMessage refusingRoute
          threeMessage).effects :=
    List.mem_of_getElem? (i := 1) rfl
  exact ⟨_, failures_reach_readers
    Bus.Nats.carries_sampleService rfl addingStage_reads
    hFailed rfl (addingStage_hop refusedSent_short)⟩

end Router

end Qanat
