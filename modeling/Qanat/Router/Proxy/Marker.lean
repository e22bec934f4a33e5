import Qanat.Bus.Nng
import Qanat.Router.Proxy.Answer
import Qanat.Router.Proxy.Replies

/-
  The marker of failures, on the whole way from the caller
  through a route and back.

  A bus carries the headers unchanged.  It may have sent a
  message whose dispatch returns an error.

  Main declarations:
    * `RepliesWith`, `BrokerTarget.Carries`
    * `unmarked_of_delivered`, `marked_of_failureDelivered`
    * `Marked`, `replies_marked`
-/

------------------------------------------------------------
-- Replies to a Request
------------------------------------------------------------

namespace Qanat

namespace Router

namespace Proxy

open Transition
open Bus (RawMessage BrokerTarget routeMessageFromBroker)

variable {Ser De : Type → Type} {Value Args Output : Type}

/- Both targets of a route with a typed handler reply. -/
structure RepliesWith
    (route : RouteBinding Value)
    (typed : TypedRouteHandler Value Args Output)
    (target errorTarget : BrokerTarget Ser De)
    (ser : Ser Value) : Prop where
  handler : route.handler = typed.toRouteHandler
  success : route.target = some (target.toRouteTarget ser)
  successReplies : target.destination = .replyTo
  failure :
    route.errorTarget = some (errorTarget.toRouteTarget ser)
  failureReplies : errorTarget.destination = .replyTo

/- The request of a call, as the route sees it. -/
def Request.received
    (config : Config) (request : Request) (payload : Bytes) :
    RouteMessage :=
  routeMessageFromBroker (request.message config payload)

theorem lookup_correlationId_received
    (config : Config) (request : Request) (payload : Bytes) :
    (request.received config payload).headers.lookup
      correlationIdHeader = some request.correlationId :=
  lookup_correlationId_requestHeaders _ _ _

theorem lookup_replyTo_received
    (config : Config) (request : Request) (payload : Bytes) :
    (request.received config payload).headers.lookup
      replyToHeader = some config.replySubject :=
  lookup_replyTo_requestHeaders _ _ _

/- The output of a typed handler keeps its own headers. -/
theorem lookup_of_call
    {typed : TypedRouteHandler Value Args Output}
    {target : BrokerTarget Ser De} {ser : Ser Value}
    {message output : RouteMessage} {decoder : Decoder Value}
    (hCall :
      typed.call message decoder (target.toRouteTarget ser) =
        some (.ok output)) :
    ∃ args headers value,
      typed.apply args = some (.ok (headers, value)) ∧
      ∀ name, Headers.IsContentType name = false →
        output.headers.lookup name =
          ((headers.getD message.headers).erase
            routeFailureHeader).lookup name := by
  rcases TypedRouteHandler.call_eq_ok hCall with
    ⟨args, headers, value, _, hApply, hEncoded⟩
  rcases encodeHandlerOutput_eq_ok hEncoded with
    ⟨_, _, hEncode⟩
  refine ⟨args, headers, value, hApply, ?_⟩
  intro name hName
  exact BrokerTarget.lookup_of_encode
    (Option.some.inj hEncode) hName

/- What a reply target dispatches has no reply subject. -/
theorem headers_of_reply
    {target : BrokerTarget Ser De} {output : RouteMessage}
    {subject : String} {reply : RawMessage}
    (hReplies : target.destination = .replyTo)
    (hDispatched :
      target.dispatched output = .ok (subject, reply)) :
    replyToHeader ∉ reply.headers ∧
      output.headers.lookup replyToHeader = some subject ∧
      ∀ name, name ≠ replyToHeader →
        reply.headers.lookup name =
          output.headers.lookup name := by
  rcases BrokerTarget.dispatched_eq_ok hDispatched with
    ⟨hSubject, hHeaders, _⟩
  rw [BrokerTarget.subjectOf_replyTo hReplies] at hSubject
  refine ⟨?_, hSubject, ?_⟩
  · rw [hHeaders, AList.mem_erase]
    exact fun hMem => hMem.1 rfl
  · intro name hName
    rw [hHeaders, AList.lookup_erase_ne hName]

end Proxy

end Router

end Qanat

------------------------------------------------------------
-- The Marker
------------------------------------------------------------

namespace Qanat

namespace Router

namespace Proxy

open Transition
open Bus (RawMessage BrokerTarget)

variable {Ser De : Type → Type} {Value Args Output : Type}
variable {route : RouteBinding Value}
variable {typed : TypedRouteHandler Value Args Output}
variable {target errorTarget : BrokerTarget Ser De}
variable {ser : Ser Value}

/- The success target never dispatches the marker. -/
theorem unmarked_of_delivered
    (hRoute : RepliesWith route typed target errorTarget ser)
    {message output : RouteMessage} {subject : String}
    {reply : RawMessage}
    (hDelivered :
      .delivered output ∈
        (processRouteMessage route message).effects)
    (hDispatched :
      target.dispatched output = .ok (subject, reply)) :
    IsFailureReply reply = false := by
  rcases call_of_delivered hDelivered with
    ⟨target', hTarget, _, hCall⟩
  rw [hRoute.success, Option.some.injEq] at hTarget
  subst hTarget
  rw [hRoute.handler] at hCall
  rcases lookup_of_call hCall with
    ⟨_, headers, _, _, hLookup⟩
  have hReply := (headers_of_reply hRoute.successReplies
    hDispatched).2.2 routeFailureHeader (by decide)
  rw [isFailureReply_eq, hReply, hLookup _ (by decide),
    AList.lookup_erase]
  rfl

/- The error target always does. -/
theorem marked_of_failureDelivered
    (hRoute : RepliesWith route typed target errorTarget ser)
    {message failed : RouteMessage} {subject : String}
    {reply : RawMessage}
    (hDelivered :
      .failureDelivered failed ∈
        (processRouteMessage route message).effects)
    (hDispatched :
      errorTarget.dispatched failed =
        .ok (subject, reply)) :
    IsFailureReply reply = true := by
  rcases fails_of_failureDelivered hDelivered with
    ⟨_, _, _, _, _, hMessage⟩
  rcases failureMessage_eq_some hMessage with
    ⟨_, base, _, rfl⟩
  have hReply := (headers_of_reply hRoute.failureReplies
    hDispatched).2.2 routeFailureHeader (by decide)
  rw [isFailureReply_eq, hReply, AList.lookup_insert]
  rfl

/- A failure keeps the request and the subject of replies. -/
theorem lookup_of_failureDelivered
    (hRoute : RepliesWith route typed target errorTarget ser)
    {message failed : RouteMessage} {name : String}
    (hDelivered :
      .failureDelivered failed ∈
        (processRouteMessage route message).effects)
    (hName :
      name = correlationIdHeader ∨ name = replyToHeader) :
    failed.headers.lookup name =
      message.headers.lookup name := by
  have hOther :
      name ≠ routeFailureHeader ∧
        Headers.IsContentType name = false := by
    rcases hName with rfl | rfl <;> decide
  rcases fails_of_failureDelivered hDelivered with
    ⟨target', error, response, hTarget, _, hMessage⟩
  rw [hRoute.failure, Option.some.injEq] at hTarget
  subst hTarget
  rcases failureMessage_eq_some hMessage with
    ⟨_, base, hPayload, rfl⟩
  rw [AList.lookup_insert_ne hOther.1]
  cases response with
  | some response =>
      cases hPayload
      exact lookup_httpFailureHeaders hName message response
  | none =>
      rcases failurePayload_none hPayload with
        ⟨value, _, hEncode⟩
      exact BrokerTarget.lookup_of_encode
        (Option.some.inj hEncode) hOther.2

/- So does an output whose headers are preserved. -/
theorem lookup_of_delivered
    (hRoute : RepliesWith route typed target errorTarget ser)
    {preserve : Args → Option (Except String Output)}
    (hPreserve : typed.handler = .inl preserve)
    {message output : RouteMessage} {name : String}
    (hDelivered :
      .delivered output ∈
        (processRouteMessage route message).effects)
    (hName :
      name = correlationIdHeader ∨ name = replyToHeader) :
    output.headers.lookup name =
      message.headers.lookup name := by
  have hOther :
      name ≠ routeFailureHeader ∧
        Headers.IsContentType name = false := by
    rcases hName with rfl | rfl <;> decide
  rcases call_of_delivered hDelivered with
    ⟨target', hTarget, _, hCall⟩
  rw [hRoute.success, Option.some.injEq] at hTarget
  subst hTarget
  rw [hRoute.handler] at hCall
  rcases lookup_of_call hCall with
    ⟨args, headers, value, hApply, hLookup⟩
  have hNone := TypedRouteHandler.headers_of_preserve
    hPreserve hApply
  subst hNone
  rw [hLookup name hOther.2,
    AList.lookup_erase_ne hOther.1]
  rfl

end Proxy

end Router

end Qanat

------------------------------------------------------------
-- Success and Failure
------------------------------------------------------------

namespace Qanat

namespace Bus

namespace BrokerTarget

variable {Ser De : Type → Type}

/- The bus sends the message that the output becomes. -/
def Carries
    (target : BrokerTarget Ser De)
    (output : Router.RouteMessage) (subject : String)
    (reply : RawMessage) : Prop :=
  target.dispatched output = .ok (subject, reply) ∧
    (target.bus.dispatch subject reply).carried = true

theorem deliver_of_dispatched
    {target : BrokerTarget Ser De}
    {output : Router.RouteMessage} {subject : String}
    {reply : RawMessage}
    (hDispatched :
      target.dispatched output = .ok (subject, reply)) :
    target.deliver output =
      (target.bus.dispatch subject reply).result := by
  unfold deliver
  rw [hDispatched]

end BrokerTarget

end Bus

namespace Router

namespace RouteBinding

/- The route takes its failure branch for the message. -/
def TakesFailureBranch
    {Value : Type} (route : RouteBinding Value)
    (message : RouteMessage) : Prop :=
  ∃ error response, route.Fails message error response

end RouteBinding

namespace Proxy

open Transition
open Bus (RawMessage BrokerTarget)

variable {Ser De : Type → Type} {Value Args Output : Type}

/-
  The replies of a route to one request.  `unmarked` and
  `marked` are about everything that the two targets
  dispatch, `success` and `failure` about the replies that
  the buses carry: a reply of the error target tells that
  the route failed, and one of the success target leaves
  open only whether the dispatch that sent it has gone on
  to return an error.
-/
structure Marked
    (route : RouteBinding Value)
    (typed : TypedRouteHandler Value Args Output)
    (target errorTarget : BrokerTarget Ser De)
    (config : Config) (request : Request)
    (message : RouteMessage) : Prop where
  unmarked : ∀ output subject reply,
    .delivered output ∈
      (processRouteMessage route message).effects →
    target.dispatched output = .ok (subject, reply) →
    IsFailureReply reply = false
  marked : ∀ failed subject reply,
    .failureDelivered failed ∈
      (processRouteMessage route message).effects →
    errorTarget.dispatched failed = .ok (subject, reply) →
    IsFailureReply reply = true
  preserved : ∀ preserve, typed.handler = .inl preserve →
    ∀ output subject reply,
      (.delivered output ∈
          (processRouteMessage route message).effects ∧
        target.dispatched output = .ok (subject, reply)) ∨
      (.failureDelivered output ∈
          (processRouteMessage route message).effects ∧
        errorTarget.dispatched output =
          .ok (subject, reply)) →
    reply.headers.lookup correlationIdHeader =
        some request.correlationId ∧
      replyToHeader ∉ reply.headers ∧
      subject = config.replySubject
  success : ∀ output subject reply,
    .delivered output ∈
      (processRouteMessage route message).effects →
    target.Carries output subject reply →
    IsFailureReply reply = false ∧
      (route.TakesFailureBranch message ↔
        ∃ error,
          (target.bus.dispatch subject reply).result =
            some (.error error))
  failure : ∀ failed subject reply,
    .failureDelivered failed ∈
      (processRouteMessage route message).effects →
    errorTarget.Carries failed subject reply →
    IsFailureReply reply = true ∧
      route.TakesFailureBranch message

variable {route : RouteBinding Value}
variable {typed : TypedRouteHandler Value Args Output}
variable {target errorTarget : BrokerTarget Ser De}
variable {ser : Ser Value}

/- With an output, all depends on what the target returns. -/
theorem takesFailureBranch_of_delivered
    (hRoute : RepliesWith route typed target errorTarget ser)
    {message output : RouteMessage} {subject : String}
    {reply : RawMessage}
    (hDelivered :
      .delivered output ∈
        (processRouteMessage route message).effects)
    (hDispatched :
      target.dispatched output = .ok (subject, reply)) :
    route.TakesFailureBranch message ↔
      ∃ error,
        (target.bus.dispatch subject reply).result =
          some (.error error) := by
  rcases call_of_delivered hDelivered with
    ⟨target', hTarget, hAccepts, hCall⟩
  have hSame := hTarget
  rw [hRoute.success, Option.some.injEq] at hSame
  subst hSame
  have hOutcome := outcome_of_call hTarget hAccepts hCall
  have hDeliver :
      (target.toRouteTarget ser).deliver output =
        (target.bus.dispatch subject reply).result :=
    BrokerTarget.deliver_of_dispatched hDispatched
  rw [hDeliver] at hOutcome
  unfold RouteBinding.TakesFailureBranch RouteBinding.Fails
  rw [hOutcome]
  cases (target.bus.dispatch subject reply).result with
  | none => simp
  | some result =>
      cases result with
      | ok => simp
      | error error => simp

/-
  Whatever headers the caller and the handler have supplied,
  replies of success and of failure are told apart.
-/
theorem replies_marked
    (hRoute : RepliesWith route typed target errorTarget ser)
    (config : Config) (request : Request) (payload : Bytes) :
    Marked route typed target errorTarget config request
      (request.received config payload) where
  unmarked := by
    intro output subject reply hDelivered hDispatched
    exact unmarked_of_delivered hRoute hDelivered hDispatched
  marked := by
    intro failed subject reply hDelivered hDispatched
    exact marked_of_failureDelivered hRoute hDelivered
      hDispatched
  preserved := by
    intro preserve hPreserve output subject reply hReply
    have hHeaders :
        (∀ name, name = correlationIdHeader ∨
            name = replyToHeader →
          output.headers.lookup name =
            (request.received config payload).headers.lookup
              name) ∧
        replyToHeader ∉ reply.headers ∧
        output.headers.lookup replyToHeader = some subject ∧
        ∀ name, name ≠ replyToHeader →
          reply.headers.lookup name =
            output.headers.lookup name := by
      rcases hReply with
        ⟨hDelivered, hDispatched⟩ | ⟨hDelivered, hDispatched⟩
      · refine ⟨?_, headers_of_reply hRoute.successReplies
          hDispatched⟩
        intro name hName
        exact lookup_of_delivered hRoute hPreserve hDelivered
          hName
      · refine ⟨?_, headers_of_reply hRoute.failureReplies
          hDispatched⟩
        intro name hName
        exact lookup_of_failureDelivered hRoute hDelivered
          hName
    rcases hHeaders with ⟨hKept, hAbsent, hSubject, hLookup⟩
    refine ⟨?_, hAbsent, ?_⟩
    · rw [hLookup _ (by decide), hKept _ (Or.inl rfl),
        lookup_correlationId_received]
    · rw [hKept _ (Or.inr rfl), lookup_replyTo_received,
        Option.some.injEq] at hSubject
      exact hSubject.symm
  success := by
    intro output subject reply hDelivered hCarries
    exact
      ⟨unmarked_of_delivered hRoute hDelivered hCarries.1,
        takesFailureBranch_of_delivered hRoute hDelivered
          hCarries.1⟩
  failure := by
    intro failed subject reply hDelivered hCarries
    rcases fails_of_failureDelivered hDelivered with
      ⟨_, error, response, _, hFails, _⟩
    exact
      ⟨marked_of_failureDelivered hRoute hDelivered
          hCarries.1,
        error, response, hFails⟩

def sampleTyped :
    TypedRouteHandler (Option RouteFailure) Unit Unit where
  extract := fun _ _ => .ok ()
  handler := .inl (fun _ => some (.ok ()))
  toValue := fun _ => .ok none

/- A route that echoes the headers of its requests. -/
def sampleEcho
    (target : BrokerTarget (fun T => T → Except BusError Bytes)
      (fun T => Bytes → Except BusError T)) :
    RouteBinding (Option RouteFailure) where
  source := {}
  handler := sampleTyped.toRouteHandler
  target :=
    some (target.toRouteTarget (sampleSer sampleRejection))
  errorTarget :=
    some (target.toRouteTarget (sampleSer sampleRejection))
  failureDecision := .reject
  failureValue := fun failure => .ok (some failure)

/- A request whose caller forges the marker. -/
def forgedRequest : Request :=
  { sampleRequest "a" "b" with
    headers := (∅ : Headers).insert routeFailureHeader "true" }

theorem replies_marked_forged :
    Marked (sampleEcho sampleTarget) sampleTyped sampleTarget
        sampleTarget sampleConfig forgedRequest
        (forgedRequest.received sampleConfig []) ∧
      ∃ output subject reply,
        .delivered output ∈
          (processRouteMessage (sampleEcho sampleTarget)
            (forgedRequest.received sampleConfig
              [])).effects ∧
        sampleTarget.Carries output subject reply := by
  have hRoute :
      RepliesWith (sampleEcho sampleTarget) sampleTyped
        sampleTarget sampleTarget
        (sampleSer sampleRejection) :=
    ⟨rfl, rfl, rfl, rfl, rfl⟩
  exact ⟨replies_marked hRoute sampleConfig forgedRequest [],
    _, _, _, List.mem_of_getElem? (i := 1) rfl, rfl, rfl⟩

/- A node one of whose own streams has no room left. -/
def crowdedTarget :
    BrokerTarget (fun T => T → Except BusError Bytes)
      (fun T => Bytes → Except BusError T) where
  bus :=
    Bus.Nng.toMessageBus (fun _ => .ok ()) .identity
      (fun message =>
        .error (.backpressure
          ("subscriber queue is full for subject '" ++
            message.envelope.subject ++ "'")))
  destination := .replyTo
  codec := sampleCodec

/- Its route fails, and yet a success reply has been sent. -/
theorem success_reply_of_failed_route :
    RepliesWith (sampleEcho crowdedTarget) sampleTyped
        crowdedTarget crowdedTarget
        (sampleSer sampleRejection) ∧
      (sampleEcho crowdedTarget).TakesFailureBranch
        ((sampleRequest "a" "b").received sampleConfig []) ∧
      ∃ output subject reply,
        .delivered output ∈
          (processRouteMessage (sampleEcho crowdedTarget)
            ((sampleRequest "a" "b").received sampleConfig
              [])).effects ∧
        crowdedTarget.Carries output subject reply ∧
        IsFailureReply reply = false :=
  ⟨⟨rfl, rfl, rfl, rfl, rfl⟩, ⟨_, _, rfl⟩,
    _, _, _, List.mem_of_getElem? (i := 1) rfl, ⟨rfl, rfl⟩,
    rfl⟩

end Proxy

end Router

end Qanat
