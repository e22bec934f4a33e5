import Qanat.Headers
import Qanat.Router.Settlement

/-
  What an error target is sent for a failure.

  Main declarations:
    * `fails_of_failureDelivered`, `call_of_delivered`
    * `failureMessage_eq_some`
    * `of_mem_forwardedHttpErrorHeaders`
    * `lookup_httpFailureHeaders`
-/

------------------------------------------------------------
-- Failed Attempts
------------------------------------------------------------

namespace Qanat

namespace Router

open Transition

variable {Value : Type}

/- An attempt fails in one way only. -/
theorem fails_unique
    {route : RouteBinding Value} {message : RouteMessage}
    {error error' : RouteError}
    {response response' : Option HttpResponse}
    (hFails : route.Fails message error response)
    (hFails' : route.Fails message error' response') :
    error = error' ∧ response = response' := by
  unfold RouteBinding.Fails at hFails hFails'
  rw [hFails] at hFails'
  cases hFails'
  exact ⟨rfl, rfl⟩

theorem eq_none_iff_of_fails
    {route : RouteBinding Value} {message : RouteMessage}
    {error : RouteError} {response : Option HttpResponse}
    (hFails : route.Fails message error response) :
    response = none ↔
      ∀ error response,
        ¬ route.Fails message error (some response) := by
  constructor
  · rintro rfl error' response' hFails'
    cases (fails_unique hFails hFails').2
  · intro hNone
    cases response with
    | none => rfl
    | some response => exact absurd hFails (hNone _ _)

/- A failure is delivered for a failed attempt only. -/
theorem fails_of_failureDelivered
    {route : RouteBinding Value}
    {message failed : RouteMessage}
    (hDelivered :
      .failureDelivered failed ∈
        (processRouteMessage route message).effects) :
    ∃ target error response,
      route.errorTarget = some target ∧
        route.Fails message error response ∧
        failureMessage route.failureValue target message
          error response = some (some failed) := by
  rw [effects_processRouteMessage] at hDelivered
  rcases List.mem_append.mp hDelivered with hOf | hAfter
  · have hNot :=
      List.filterMap_eq_nil_iff.mp
        (route.attempt_effects message).2.1 _ hOf
    cases hNot
  · cases hOutcome : (route.attempt message).outcome with
    | none => simp [hOutcome] at hAfter
    | some failure =>
        simp only [hOutcome] at hAfter
        rcases failureDelivered_of_aftermath hAfter with
          ⟨target, error, response, rfl, hTarget, hMessage⟩
        exact ⟨target, error, response, hTarget, hOutcome,
          hMessage⟩

/- The same of a message without a partition key. -/
theorem failureDelivered_of_fail
    {route : RouteBinding Value}
    {message failed : RouteMessage} {error : RouteError}
    {response : Option HttpResponse}
    (hDelivered :
      .failureDelivered failed ∈
        (route.fail message error response).effects) :
    ∃ target,
      route.errorTarget = some target ∧
        failureMessage route.failureValue target message
          error response = some (some failed) := by
  rw [fail_eq] at hDelivered
  rcases failureDelivered_of_aftermath hDelivered with
    ⟨target, _, _, hCause, hTarget, hMessage⟩
  cases hCause
  exact ⟨target, hTarget, hMessage⟩

/- What is delivered is what the handler has returned. -/
theorem call_of_delivered
    {route : RouteBinding Value}
    {message output : RouteMessage}
    (hDelivered :
      .delivered output ∈
        (processRouteMessage route message).effects) :
    ∃ target, route.target = some target ∧
      target.accepts message = some true ∧
      route.handler.call message route.source.decode target =
        some (.ok output) := by
  have hAftermath : ∀ failure,
      .delivered output ∉
        (route.aftermath message failure).effects := by
    intro failure hMem
    rcases failureDelivery_effects route message failure with
      ⟨sent, hEffects, _⟩
    rw [aftermath_eq, hEffects] at hMem
    cases sent <;> split at hMem <;> simp at hMem
  have hAttempt :
      .delivered output ∈
        (route.attempt message).effects := by
    rw [effects_processRouteMessage] at hDelivered
    rcases List.mem_append.mp hDelivered with hOf | hAfter
    · exact hOf
    · split at hAfter
      · cases hAfter
      · exact absurd hAfter (hAftermath _)
  unfold RouteBinding.attempt at hAttempt
  cases hTarget : route.target with
  | none =>
      rw [hTarget] at hAttempt
      cases hConsume : route.handler.consume message
          route.source.decode with
      | none => simp [hConsume] at hAttempt
      | some result =>
          cases result <;> simp [hConsume] at hAttempt
  | some target =>
      rw [hTarget] at hAttempt
      refine ⟨target, rfl, ?_⟩
      cases hAccepts : target.accepts message with
      | none => simp [hAccepts] at hAttempt
      | some accepts =>
          cases accepts with
          | false => simp [hAccepts] at hAttempt
          | true =>
              refine ⟨rfl, ?_⟩
              cases hCall : route.handler.call message
                  route.source.decode target with
              | none => simp [hAccepts, hCall] at hAttempt
              | some result =>
                  cases result with
                  | error error =>
                      simp [hAccepts, hCall] at hAttempt
                  | ok output' =>
                      have hSame : output = output' := by
                        simpa [hAccepts, hCall] using hAttempt
                      rw [hSame]

/- The target of an output decides what comes of it. -/
theorem outcome_of_call
    {route : RouteBinding Value} {target : RouteTarget Value}
    {message output : RouteMessage}
    (hTarget : route.target = some target)
    (hAccepts : target.accepts message = some true)
    (hCall :
      route.handler.call message route.source.decode target =
        some (.ok output)) :
    (route.attempt message).outcome =
      (target.deliver output).map (fun result =>
        match result with
        | .ok () => none
        | .error error =>
            some
              (RouteError.delivery error.display,
                httpResponse? error)) := by
  unfold RouteBinding.attempt
  simp only [hTarget, hAccepts, hCall]
  cases target.deliver output with
  | none => rfl
  | some result => cases result <;> rfl

end Router

end Qanat

------------------------------------------------------------
-- The Message of a Failure
------------------------------------------------------------

namespace Qanat

namespace Router

variable {Value : Type}

/- It is marked, and the error target accepts it. -/
theorem failureMessage_eq_some
    {failureValue : RouteFailure → Except String Value}
    {target : RouteTarget Value}
    {original failed : RouteMessage} {error : RouteError}
    {response : Option HttpResponse}
    (hMessage :
      failureMessage failureValue target original error
        response = some (some failed)) :
    target.accepts failed = some true ∧
      ∃ message,
        failurePayload failureValue target original error
            response = some (some message) ∧
          failed =
            { message with
              headers := message.headers.insert
                routeFailureHeader "true" } := by
  unfold failureMessage at hMessage
  cases hPayload : failurePayload failureValue target
      original error response with
  | none =>
      rw [hPayload] at hMessage
      cases hMessage
  | some sent =>
      cases sent with
      | none =>
          rw [hPayload] at hMessage
          cases hMessage
      | some message =>
          simp only [hPayload] at hMessage
          split at hMessage
          · cases hMessage
          · rename_i hAccepts
            cases hMessage
            exact ⟨hAccepts, message, rfl, rfl⟩
          · cases hMessage

/- A failure that is encoded and accepted is delivered. -/
theorem failureMessage_of_encode
    {failureValue : RouteFailure → Except String Value}
    {target : RouteTarget Value}
    {original message : RouteMessage} {error : RouteError}
    {value : Value}
    (hValue :
      failureValue
          ⟨error, FailedRouteMessage.ofMessage original⟩ =
        .ok value)
    (hEncode :
      target.encode value original = some (.ok message))
    (hAccepts :
      target.accepts
          { message with
            headers := message.headers.insert
              routeFailureHeader "true" } = some true) :
    failureMessage failureValue target original error none =
      some (some
        { message with
          headers := message.headers.insert
            routeFailureHeader "true" }) := by
  unfold failureMessage failurePayload
  simp only [hValue, hEncode, hAccepts]

/- Without a response, it is the encoded failure. -/
theorem failurePayload_none
    {failureValue : RouteFailure → Except String Value}
    {target : RouteTarget Value}
    {original message : RouteMessage} {error : RouteError}
    (hPayload :
      failurePayload failureValue target original error none =
        some (some message)) :
    ∃ value,
      failureValue
          ⟨error, FailedRouteMessage.ofMessage original⟩ =
        .ok value ∧
      target.encode value original = some (.ok message) := by
  unfold failurePayload at hPayload
  cases hValue : failureValue
      ⟨error, FailedRouteMessage.ofMessage original⟩ with
  | error text =>
      simp only [hValue] at hPayload
      cases hPayload
  | ok value =>
      simp only [hValue] at hPayload
      split at hPayload
      · cases hPayload
      · cases hPayload
      · rename_i hEncode
        cases hPayload
        exact ⟨value, rfl, hEncode⟩

end Router

end Qanat

------------------------------------------------------------
-- The Headers of a Response
------------------------------------------------------------

namespace Qanat

namespace Router

/- The names that a response does not forward. -/
def IsWithheld (name : String) : Bool :=
  excludedHttpErrorHeaders.contains name ||
    "qanat-".toList.isPrefixOf name.toList ||
    name = correlationIdHeader ||
    name = replyToHeader

/- A header of the response that is forwarded. -/
def IsForwarded
    (headers : Headers) (header : Σ _ : String, String) :
    Bool :=
  !(IsWithheld (toAsciiLowercase header.1) ||
    (connectionHeaders headers).contains
      (toAsciiLowercase header.1))

/- What is forwarded stands under names in lower case. -/
theorem forwardedHttpErrorHeaders_eq (headers : Headers) :
    forwardedHttpErrorHeaders headers =
      FiniteMap.gather (IsForwarded headers)
        (fun header => toAsciiLowercase header.1)
        (fun header => header.2) headers.entries ∅ := by
  unfold forwardedHttpErrorHeaders FiniteMap.gather
  congr 1
  funext forwarded header
  by_cases hKept : IsForwarded headers header = true
  · rw [if_pos hKept]
    rw [IsForwarded, Bool.not_eq_true'] at hKept
    exact if_neg (Bool.eq_false_iff.mp hKept)
  · rw [if_neg hKept]
    rw [IsForwarded, Bool.not_eq_true',
      Bool.not_eq_false] at hKept
    exact if_pos hKept

/- Every forwarded name is in lower case and not withheld. -/
theorem of_mem_forwardedHttpErrorHeaders
    {name : String} {headers : Headers}
    (hMem : name ∈ forwardedHttpErrorHeaders headers) :
    toAsciiLowercase name = name ∧
      IsWithheld name = false := by
  rw [forwardedHttpErrorHeaders_eq,
    FiniteMap.mem_gather_iff] at hMem
  rcases hMem with ⟨header, _, hKept, rfl⟩ | hMem
  · refine ⟨toAsciiLowercase_idem _, ?_⟩
    rw [IsForwarded, Bool.not_eq_true', Bool.or_eq_false_iff]
      at hKept
    exact hKept.1
  · exact absurd hMem (AList.notMem_empty name)

theorem lookup_forwardedHttpErrorHeaders
    {name : String} (hWithheld : IsWithheld name = true)
    (headers : Headers) :
    (forwardedHttpErrorHeaders headers).lookup name =
      none := by
  rw [AList.lookup_eq_none]
  intro hMem
  have hKept := (of_mem_forwardedHttpErrorHeaders hMem).2
  rw [hWithheld] at hKept
  cases hKept

/- What else is inserted keeps a property of the headers. -/
theorem httpFailureHeaders_induction
    {P : Headers → Prop}
    {original : RouteMessage} {response : HttpResponse}
    (hForwarded :
      P (forwardedHttpErrorHeaders response.headers))
    (hInsert : ∀ headers name value,
      name ∈ [correlationIdHeader, replyToHeader,
        httpStatusHeader] →
        P headers → P (headers.insert name value)) :
    P (httpFailureHeaders original response) := by
  unfold httpFailureHeaders
  apply hInsert _ _ _ (by simp)
  cases original.headers.lookup replyToHeader with
  | none =>
      cases original.headers.lookup correlationIdHeader with
      | none => exact hForwarded
      | some id => exact hInsert _ _ _ (by simp) hForwarded
  | some replyTo =>
      apply hInsert _ _ _ (by simp)
      cases original.headers.lookup correlationIdHeader with
      | none => exact hForwarded
      | some id => exact hInsert _ _ _ (by simp) hForwarded

/- The request and its reply stay those of the original. -/
theorem lookup_httpFailureHeaders
    {name : String}
    (hName :
      name = correlationIdHeader ∨ name = replyToHeader)
    (original : RouteMessage) (response : HttpResponse) :
    (httpFailureHeaders original response).lookup name =
      original.headers.lookup name := by
  unfold httpFailureHeaders
  have hForwarded :
      (forwardedHttpErrorHeaders response.headers).lookup
        name = none := by
    apply lookup_forwardedHttpErrorHeaders
    rcases hName with rfl | rfl <;> decide
  rcases hName with rfl | rfl
  · rw [AList.lookup_insert_ne (by decide)]
    cases original.headers.lookup replyToHeader with
    | none =>
        cases original.headers.lookup correlationIdHeader with
        | none => exact hForwarded
        | some id => exact AList.lookup_insert _
    | some replyTo =>
        rw [AList.lookup_insert_ne (by decide)]
        cases original.headers.lookup
            correlationIdHeader with
        | none => exact hForwarded
        | some id => exact AList.lookup_insert _
  · rw [AList.lookup_insert_ne (by decide)]
    cases original.headers.lookup replyToHeader with
    | some replyTo => exact AList.lookup_insert _
    | none =>
        cases original.headers.lookup
            correlationIdHeader with
        | none => exact hForwarded
        | some id =>
            rw [AList.lookup_insert_ne (by decide)]
            exact hForwarded

/- The content type stays that of the response. -/
theorem contentType_httpFailureHeaders
    (original : RouteMessage) (response : HttpResponse) :
    Headers.contentType
        (httpFailureHeaders original response) =
      Headers.contentType
        (forwardedHttpErrorHeaders response.headers) := by
  refine httpFailureHeaders_induction
    (P := fun headers =>
      Headers.contentType headers =
        Headers.contentType
          (forwardedHttpErrorHeaders response.headers))
    rfl ?_
  intro headers name value hMem hSame
  have hName : Headers.IsContentType name = false := by
    revert name
    decide
  rw [Headers.contentType_insert_of_not hName, hSame]

end Router

end Qanat
