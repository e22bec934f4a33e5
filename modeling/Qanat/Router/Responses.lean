import Qanat.Router.Identity

/-
  HTTP responses at the error target: what they can put into
  the headers, and how they are told from encoded failures.

  Main declarations:
    * `IsTrusted`, `trustedHeader`, `NamedByConnection`
    * `Forwards`, `response_cannot_steer`
    * `ToldApart`, `failures_told_apart_iff`
-/

------------------------------------------------------------
-- Trusted Headers
------------------------------------------------------------

namespace Qanat

namespace Router

/- The names that the route itself answers for. -/
def IsTrusted (name : String) : Bool :=
  "qanat-".toList.isPrefixOf name.toList ||
    name = correlationIdHeader ||
    name = replyToHeader

/- What stands under them for a response of this status. -/
def trustedHeader
    (original : RouteMessage) (status : UInt16)
    (name : String) : Option String :=
  if name = correlationIdHeader ∨ name = replyToHeader then
    original.headers.lookup name
  else if name = httpStatusHeader then
    some (toString status.toNat)
  else if name = routeFailureHeader then
    some "true"
  else
    none

theorem isWithheld_eq (name : String) :
    IsWithheld name =
      (excludedHttpErrorHeaders.contains name ||
        IsTrusted name) := by
  unfold IsWithheld IsTrusted
  rw [Bool.or_assoc, Bool.or_assoc, Bool.or_assoc]

/- The headers that are inserted are trusted ones. -/
theorem isTrusted_of_inserted
    {name : String}
    (hMem :
      name ∈ [correlationIdHeader, replyToHeader,
        httpStatusHeader]) :
    IsTrusted name = true := by
  revert name
  decide

/- A name that is not inserted is that of the response. -/
theorem lookup_httpFailureHeaders_of_not_mem
    {name : String}
    (hNot :
      name ∉ [correlationIdHeader, replyToHeader,
        httpStatusHeader])
    (original : RouteMessage) (response : HttpResponse) :
    (httpFailureHeaders original response).lookup name =
      (forwardedHttpErrorHeaders response.headers).lookup
        name := by
  refine httpFailureHeaders_induction
    (P := fun headers =>
      headers.lookup name =
        (forwardedHttpErrorHeaders response.headers).lookup
          name)
    rfl ?_
  intro headers inserted value hMem hSame
  have hNe : name ≠ inserted := by
    rintro rfl
    exact hNot hMem
  rw [AList.lookup_insert_ne hNe, hSame]

theorem lookup_failureHeaders_of_trusted
    {name : String} (hTrusted : IsTrusted name = true)
    (original : RouteMessage) (response : HttpResponse) :
    ((httpFailureHeaders original response).insert
        routeFailureHeader "true").lookup name =
      trustedHeader original response.status name := by
  unfold trustedHeader
  by_cases hRequest :
      name = correlationIdHeader ∨ name = replyToHeader
  · have hNe : name ≠ routeFailureHeader := by
      rcases hRequest with rfl | rfl <;> decide
    rw [if_pos hRequest, AList.lookup_insert_ne hNe,
      lookup_httpFailureHeaders hRequest]
  · rw [if_neg hRequest]
    by_cases hStatus : name = httpStatusHeader
    · subst hStatus
      rw [if_pos rfl, AList.lookup_insert_ne (by decide)]
      exact AList.lookup_insert _
    · rw [if_neg hStatus]
      by_cases hMarker : name = routeFailureHeader
      · subst hMarker
        rw [if_pos rfl]
        exact AList.lookup_insert _
      · have hNot :
            name ∉ [correlationIdHeader, replyToHeader,
              httpStatusHeader] := by
          rw [not_or] at hRequest
          simp [hRequest.1, hRequest.2, hStatus]
        have hWithheld : IsWithheld name = true := by
          rw [isWithheld_eq, hTrusted, Bool.or_true]
        rw [if_neg hMarker, AList.lookup_insert_ne hMarker,
          lookup_httpFailureHeaders_of_not_mem hNot,
          lookup_forwardedHttpErrorHeaders hWithheld]

theorem lookup_failureHeaders_of_not_trusted
    {name : String} (hTrusted : IsTrusted name = false)
    (original : RouteMessage) (response : HttpResponse) :
    ((httpFailureHeaders original response).insert
        routeFailureHeader "true").lookup name =
      (forwardedHttpErrorHeaders response.headers).lookup
        name := by
  have hNe : name ≠ routeFailureHeader := by
    rintro rfl
    revert hTrusted
    decide
  rw [AList.lookup_insert_ne hNe]
  apply lookup_httpFailureHeaders_of_not_mem
  intro hMem
  rw [isTrusted_of_inserted hMem] at hTrusted
  cases hTrusted

end Router

end Qanat

------------------------------------------------------------
-- Forwarded Headers
------------------------------------------------------------

namespace Qanat

namespace Router

variable {Value : Type}

/- A `Connection` header names it, whatever the letter case. -/
def NamedByConnection
    (headers : Headers) (name : String) : Prop :=
  ∃ header ∈ headers.entries,
    eqIgnoreAsciiCase header.1 "connection" = true ∧
      ∃ part ∈ header.2.toList.splitOn ',',
        eqIgnoreAsciiCase (String.ofList (trim part)) name =
          true

theorem mem_connectionHeaders_iff
    {headers : Headers} {name : String} :
    toAsciiLowercase name ∈ connectionHeaders headers ↔
      NamedByConnection headers name := by
  unfold connectionHeaders NamedByConnection
  simp only [List.mem_flatMap, List.mem_filter, List.mem_map,
    and_assoc]
  simp only [eqIgnoreAsciiCase, decide_eq_true_eq]

/-
  The headers at the error target for a response: under the
  trusted names what the route puts there, and otherwise what
  the response has under a name that may be forwarded.
-/
structure Forwards
    (original : RouteMessage) (response : HttpResponse)
    (headers : Headers) : Prop where
  trusted :
    ∀ name, IsTrusted name = true →
      headers.lookup name =
        trustedHeader original response.status name
  others :
    ∀ name value, IsTrusted name = false →
      headers.lookup name = some value →
        toAsciiLowercase name ∉ excludedHttpErrorHeaders ∧
          ¬ NamedByConnection response.headers name ∧
          ∃ header ∈ response.headers.entries,
            toAsciiLowercase header.1 = name ∧
              header.2 = value
  complete :
    ∀ header ∈ response.headers.entries,
      toAsciiLowercase header.1 ∉ excludedHttpErrorHeaders →
      IsTrusted (toAsciiLowercase header.1) = false →
      ¬ NamedByConnection response.headers header.1 →
        ∃ other ∈ response.headers.entries,
          toAsciiLowercase other.1 =
              toAsciiLowercase header.1 ∧
            headers.lookup (toAsciiLowercase header.1) =
              some other.2

theorem isForwarded_iff
    {headers : Headers}
    {header : Σ _ : String, String} :
    IsForwarded headers header = true ↔
      toAsciiLowercase header.1 ∉ excludedHttpErrorHeaders ∧
        IsTrusted (toAsciiLowercase header.1) = false ∧
        ¬ NamedByConnection headers header.1 := by
  rw [IsForwarded, isWithheld_eq, Bool.not_eq_true',
    Bool.or_eq_false_iff, Bool.or_eq_false_iff,
    ← mem_connectionHeaders_iff, and_assoc]
  simp

theorem lookup_forwarded_eq_some
    {headers : Headers} {name value : String}
    (hLookup :
      (forwardedHttpErrorHeaders headers).lookup name =
        some value) :
    ∃ header ∈ headers.entries,
      IsForwarded headers header = true ∧
        toAsciiLowercase header.1 = name ∧
        header.2 = value := by
  rw [forwardedHttpErrorHeaders_eq] at hLookup
  rcases FiniteMap.exists_of_lookup_gather hLookup with
    hFound | hEmpty
  · exact hFound
  · cases hEmpty

/- Every header that may be forwarded is, or one like it. -/
theorem lookup_forwarded_of_mem
    {headers : Headers} {header : Σ _ : String, String}
    (hMem : header ∈ headers.entries)
    (hForwarded : IsForwarded headers header = true) :
    ∃ other ∈ headers.entries,
      toAsciiLowercase other.1 = toAsciiLowercase header.1 ∧
        (forwardedHttpErrorHeaders headers).lookup
            (toAsciiLowercase header.1) =
          some other.2 := by
  have hThere :
      toAsciiLowercase header.1 ∈
        forwardedHttpErrorHeaders headers := by
    rw [forwardedHttpErrorHeaders_eq,
      FiniteMap.mem_gather_iff]
    exact Or.inl ⟨header, hMem, hForwarded, rfl⟩
  rcases Option.isSome_iff_exists.mp
      (AList.lookup_isSome.mpr hThere) with ⟨value, hLookup⟩
  rcases lookup_forwarded_eq_some hLookup with
    ⟨other, hOther, _, hName, rfl⟩
  exact ⟨other, hOther, hName, hLookup⟩

theorem forwards_failureHeaders
    (original : RouteMessage) (response : HttpResponse) :
    Forwards original response
      ((httpFailureHeaders original response).insert
        routeFailureHeader "true") where
  trusted := by
    intro name hTrusted
    exact lookup_failureHeaders_of_trusted hTrusted
      original response
  others := by
    intro name value hTrusted hLookup
    rw [lookup_failureHeaders_of_not_trusted hTrusted]
      at hLookup
    rcases lookup_forwarded_eq_some hLookup with
      ⟨header, hMem, hForwarded, rfl, hValue⟩
    rcases isForwarded_iff.mp hForwarded with
      ⟨hListed, _, hNamed⟩
    refine ⟨?_, ?_, header, hMem, rfl, hValue⟩
    · rwa [toAsciiLowercase_idem]
    · rwa [← mem_connectionHeaders_iff,
        toAsciiLowercase_idem, mem_connectionHeaders_iff]
  complete := by
    intro header hMem hListed hTrusted hNamed
    rw [lookup_failureHeaders_of_not_trusted hTrusted]
    exact lookup_forwarded_of_mem hMem
      (isForwarded_iff.mpr ⟨hListed, hTrusted, hNamed⟩)

/- What `deliver_failure` hands over for a response. -/
theorem headers_of_response
    {failureValue : RouteFailure → Except String Value}
    {target : RouteTarget Value}
    {original failed : RouteMessage} {error : RouteError}
    {response : HttpResponse}
    (hDelivered :
      .failureDelivered failed ∈
        (deliverFailure failureValue (some target) original
          error (some response)).effects) :
    failed.payload = response.body ∧
      failed.headers =
        (httpFailureHeaders original response).insert
          routeFailureHeader "true" := by
  rw [deliverFailure_eq] at hDelivered
  have hMessage :
      failureMessage failureValue target original error
        (some response) = some (some failed) := by
    split at hDelivered
    · cases hDelivered
    · cases hDelivered
    · rename_i hSent
      cases List.mem_singleton.mp hDelivered
      exact hSent
  rcases failureMessage_eq_some hMessage with
    ⟨_, message, hPayload, rfl⟩
  cases hPayload
  exact ⟨rfl, rfl⟩

/-
  A response has no say in the trusted headers at the error
  target, which depend on its status alone, and what it puts
  into the others may be forwarded and is its own.
-/
theorem response_cannot_steer
    {failureValue : RouteFailure → Except String Value}
    {target : RouteTarget Value}
    {original failed : RouteMessage} {error : RouteError}
    {response : HttpResponse}
    (hDelivered :
      .failureDelivered failed ∈
        (deliverFailure failureValue (some target) original
          error (some response)).effects) :
    Forwards original response failed.headers ∧
      ∀ (target' : RouteTarget Value) error' response'
        failed',
        response'.status = response.status →
        .failureDelivered failed' ∈
            (deliverFailure failureValue (some target')
              original error' (some response')).effects →
          ∀ name, IsTrusted name = true →
            failed'.headers.lookup name =
              failed.headers.lookup name := by
  have hForwards :
      ∀ {target : RouteTarget Value} {error response failed},
        .failureDelivered failed ∈
            (deliverFailure failureValue (some target)
              original error (some response)).effects →
          Forwards original response failed.headers := by
    intro target error response failed hDelivered
    rw [(headers_of_response hDelivered).2]
    exact forwards_failureHeaders original response
  have hFirst := hForwards hDelivered
  refine ⟨hFirst, ?_⟩
  intro target' error' response' failed' hStatus hDelivered'
    name hTrusted
  rw [hFirst.trusted name hTrusted,
    (hForwards hDelivered').trusted name hTrusted, hStatus]

/- A request that is to be answered at a reply subject. -/
def correlatedMessage : RouteMessage where
  address := "orders"
  id := 1
  messageId := "message-1"
  headers :=
    Headers.collect
      [("correlation_id", "request-1"), ("x-origin", "mine")]
  metadata := ∅
  attempts := 0
  payload := []

/- A response that names what it would like to be. -/
def forgingResponse : HttpResponse where
  status := 422
  headers :=
    Headers.collect
      [("Connection", "close, X-Hop"), ("X-Hop", "hop"),
        ("Qanat-Http-Status", "200"),
        ("CORRELATION_ID", "other"), ("Set-Cookie", "c"),
        ("X-Detail", "total")]
  body := [1, 2]

/- A broker target on a bus that takes every message. -/
def builtinSubject :
    BuiltinTarget (fun _ => Unit) (fun _ => Unit) String
      String :=
  .broker (.external { publishBytes := fun _ _ _ => .sent })
    (.subject "orders.done") byteCodec

def subjectTarget : RouteTarget Unit :=
  builtinSubject.toRouteTarget plainReadings ()

theorem response_cannot_steer_forging :
    ∃ failed,
      .failureDelivered failed ∈
          (deliverFailure (fun _ => .ok ())
            (some subjectTarget)
            correlatedMessage (RouteError.delivery "HTTP 422")
            (some forgingResponse)).effects ∧
        failed.headers.lookup httpStatusHeader =
          some "422" ∧
        failed.headers.lookup correlationIdHeader =
          some "request-1" ∧
        failed.headers.lookup "x-detail" = some "total" := by
  have hDelivered :
      .failureDelivered
          { correlatedMessage with
            payload := [1, 2]
            headers :=
              (httpFailureHeaders correlatedMessage
                forgingResponse).insert routeFailureHeader
                  "true" } ∈
        (deliverFailure (fun _ => .ok ())
          (some subjectTarget)
          correlatedMessage (RouteError.delivery "HTTP 422")
          (some forgingResponse)).effects :=
    List.mem_cons_self
  have hForwards := (response_cannot_steer hDelivered).1
  exact ⟨_, hDelivered, hForwards.trusted _ rfl,
    hForwards.trusted _ rfl, rfl⟩

end Router

end Qanat

------------------------------------------------------------
-- Responses and Encoded Failures
------------------------------------------------------------

namespace Qanat

namespace Router

variable {Value : Type}

/- Encoding neither adds nor drops the status header. -/
def RouteTarget.KeepsHttpStatus
    (target : RouteTarget Value) : Prop :=
  ∀ value message encoded,
    target.encode value message = some (.ok encoded) →
      encoded.headers.lookup httpStatusHeader =
        message.headers.lookup httpStatusHeader

theorem BuiltinTarget.keepsHttpStatus
    {Ser De : Type → Type} {Name HeaderValue : Type}
    [DecidableEq Name]
    (target : BuiltinTarget Ser De Name HeaderValue)
    (readings : Bus.Readings) (ser : Ser Value) :
    (target.toRouteTarget readings ser).KeepsHttpStatus := by
  intro value message encoded hEncode
  have hOther :
      Headers.IsContentType httpStatusHeader = false := by
    decide
  cases target with
  | broker bus destination codec =>
      exact Bus.BrokerTarget.lookup_of_encode
        (Option.some.inj hEncode) hOther
  | http target =>
      exact Http.HttpTarget.lookup_of_encode
        (Option.some.inj hEncode) hOther

/-
  The message at the error target has the status header
  exactly if it has the body of the response, whose status
  it is then, and otherwise it has the encoded failure.
-/
def ToldApart
    (failureValue : RouteFailure → Except String Value)
    (target : RouteTarget Value)
    (original : RouteMessage) (error : RouteError)
    (failed : RouteMessage) :
    Option HttpResponse → Prop
| some response =>
    failed.payload = response.body ∧
      failed.headers.lookup httpStatusHeader =
        some (toString response.status.toNat)
| none =>
    (∃ value encoded,
      failureValue
          ⟨error, FailedRouteMessage.ofMessage original⟩ =
        .ok value ∧
      target.encode value original = some (.ok encoded) ∧
      failed.payload = encoded.payload) ∧
    httpStatusHeader ∉ failed.headers

theorem toldApart_iff
    {failureValue : RouteFailure → Except String Value}
    {target : RouteTarget Value}
    {original failed : RouteMessage} {error : RouteError}
    {response : Option HttpResponse}
    (hKeeps : target.KeepsHttpStatus)
    (hMessage :
      failureMessage failureValue target original error
        response = some (some failed)) :
    ToldApart failureValue target original error failed
        response ↔
      response ≠ none ∨
        httpStatusHeader ∉ original.headers := by
  rcases failureMessage_eq_some hMessage with
    ⟨_, message, hPayload, rfl⟩
  cases response with
  | some response =>
      cases hPayload
      refine iff_of_true ⟨rfl, ?_⟩ (Or.inl nofun)
      exact lookup_failureHeaders_of_trusted rfl original
        response
  | none =>
      rcases failurePayload_none hPayload with
        ⟨value, hValue, hEncode⟩
      have hStatus :
          httpStatusHeader ∉
              message.headers.insert routeFailureHeader
                "true" ↔
            httpStatusHeader ∉ original.headers := by
        rw [← AList.lookup_eq_none, ← AList.lookup_eq_none,
          AList.lookup_insert_ne (by decide),
          hKeeps value original message hEncode]
      unfold ToldApart
      rw [hStatus]
      constructor
      · rintro ⟨_, hAbsent⟩
        exact Or.inr hAbsent
      · rintro (hNone | hAbsent)
        · exact absurd rfl hNone
        · exact ⟨⟨value, message, hValue, hEncode, rfl⟩,
            hAbsent⟩

/-
  The error target can tell responses from failures as long
  as no failure without a response is that of a message that
  has a status header itself.  The last part is about a
  message whose partition cannot be resolved.
-/
theorem failures_told_apart_iff
    {route : RouteBinding Value} {target : RouteTarget Value}
    (hTarget : route.errorTarget = some target)
    (hKeeps : target.KeepsHttpStatus)
    (message : RouteMessage) :
    (∀ failed,
      .failureDelivered failed ∈
          (processRouteMessage route message).effects →
        ∃ error response,
          route.Fails message error response ∧
            (ToldApart route.failureValue target message
                error failed response ↔
              response ≠ none ∨
                httpStatusHeader ∉ message.headers)) ∧
      ∀ error failed,
        .failureDelivered failed ∈
            (route.fail message error none).effects →
          (ToldApart route.failureValue target message error
              failed none ↔
            httpStatusHeader ∉ message.headers) := by
  constructor
  · intro failed hDelivered
    rcases fails_of_failureDelivered hDelivered with
      ⟨target', error, response, hTarget', hFails, hMessage⟩
    rw [hTarget, Option.some.injEq] at hTarget'
    subst hTarget'
    exact ⟨error, response, hFails,
      toldApart_iff hKeeps hMessage⟩
  · intro error failed hDelivered
    rcases failureDelivered_of_fail hDelivered with
      ⟨target', hTarget', hMessage⟩
    rw [hTarget, Option.some.injEq] at hTarget'
    subst hTarget'
    rw [toldApart_iff hKeeps hMessage]
    exact or_iff_right (fun hNone => hNone rfl)

/- A message that has been sent to an error target before. -/
def failedBefore : RouteMessage :=
  { correlatedMessage with
    headers :=
      Headers.collect
        [("qanat-route-failure", "true"),
          ("qanat-http-status", "503")] }

/- A route that rejects every message. -/
def rejectingRoute : RouteBinding Unit where
  source := {}
  handler :=
    { call := fun _ _ _ =>
        some (.error (RouteError.handler "rejected")) }
  target := some subjectTarget
  errorTarget := some subjectTarget
  failureDecision := .reject
  failureValue := fun _ => .ok ()

/- The encoded failure that looks like a response. -/
theorem status_of_failure_forged :
    ∃ failed,
      .failureDelivered failed ∈
          (processRouteMessage rejectingRoute
            failedBefore).effects ∧
        (∀ error response,
          ¬ rejectingRoute.Fails failedBefore error
            (some response)) ∧
        failed.payload = [1] ∧
        failed.headers.lookup httpStatusHeader =
          some "503" := by
  refine ⟨{ failedBefore with
      payload := [1]
      headers :=
        failedBefore.headers.insert routeFailureHeader
          "true" },
    List.mem_cons_of_mem _ List.mem_cons_self, ?_, rfl, rfl⟩
  intro error response hFails
  cases hFails

theorem failures_told_apart_iff_correlated :
    ∃ failed error,
      .failureDelivered failed ∈
          (processRouteMessage rejectingRoute
            correlatedMessage).effects ∧
        ToldApart rejectingRoute.failureValue
          subjectTarget correlatedMessage error
          failed none := by
  have hDelivered :
      .failureDelivered
          { correlatedMessage with
            payload := [1]
            headers :=
              correlatedMessage.headers.insert
                routeFailureHeader "true" } ∈
        (processRouteMessage rejectingRoute
          correlatedMessage).effects :=
    List.mem_cons_of_mem _ List.mem_cons_self
  rcases (@failures_told_apart_iff _ rejectingRoute _ rfl
      (builtinSubject.keepsHttpStatus plainReadings ())
      correlatedMessage).1 _ hDelivered with
    ⟨error, response, hFails, hIff⟩
  cases hFails
  refine ⟨_, _, hDelivered, hIff.mpr (Or.inr ?_)⟩
  decide

end Router

end Qanat
