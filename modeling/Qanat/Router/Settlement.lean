import Qanat.Router.Process

/-
  Every processed message is settled exactly once, at the
  end, and acknowledged exactly if it was handled and its
  output delivered.

  Main declarations:
    * `RouteBinding.attempt`, `RouteBinding.aftermath`
    * `RouteBinding.Unwinds`, `RouteBinding.Succeeds`
    * `processRouteMessage_eq`
    * `processRouteMessage_settles`
-/

------------------------------------------------------------
-- Attempts
------------------------------------------------------------

namespace Qanat

namespace Router

open Transition

variable {Value : Type}

/- Why an attempt fails, with an HTTP response that caused it. -/
abbrev Failure := RouteError × Option HttpResponse

namespace RouteBinding

/-
  The purpose of processing a message: an attempt to handle
  it and to deliver the output, which may end in a failure
  or unwind.
-/
def attempt
    (route : RouteBinding Value) (message : RouteMessage) :
    Logged RouteEffect (Option Failure) :=
  match route.target with
  | none =>
      match route.handler.consume message
          route.source.decode with
      | none => ⟨[.handled message], none⟩
      | some (.ok ()) => ⟨[.handled message], some none⟩
      | some (.error error) =>
          ⟨[.handled message], some (some (error, none))⟩
  | some target =>
      match target.accepts message with
      | none => ⟨[], none⟩
      | some false =>
          ⟨[], some (some (RouteError.delivery
            "target rejected the route message", none))⟩
      | some true =>
          match route.handler.call message
              route.source.decode target with
          | none => ⟨[.handled message], none⟩
          | some (.error error) =>
              ⟨[.handled message],
                some (some (error, none))⟩
          | some (.ok output) =>
              ⟨[.handled message, .delivered output],
                match target.deliver output with
                | none => none
                | some (.ok ()) => some none
                | some (.error error) =>
                    some (some
                      (RouteError.delivery error.display,
                        httpResponse? error))⟩

/- The decision an attempt leads to. -/
def decision
    (route : RouteBinding Value)
    (failure : Option Failure) :
    DeliveryDecision :=
  match failure with
  | none => .ack
  | some _ => route.failureDecision

/- The failure of an attempt, if any, is delivered. -/
def failureDelivery
    (route : RouteBinding Value) (message : RouteMessage)
    (failure : Option Failure) :
    Logged RouteEffect Unit :=
  match failure with
  | none => pure ()
  | some (error, response) =>
      deliverFailure route.failureValue route.errorTarget
        message error response

/-
  What follows an attempt: the failure, if any, is delivered
  and the message is settled.
-/
def aftermath
    (route : RouteBinding Value) (message : RouteMessage)
    (failure : Option Failure) :
    Logged RouteEffect Unit := do
  route.failureDelivery message failure
  settle route.source message (route.decision failure)

end RouteBinding

/- A settlement performs one effect, whatever comes of it. -/
theorem settle_eq
    (source : RouteSource Value) (message : RouteMessage)
    (decision : DeliveryDecision) :
    settle source message decision =
      ⟨[.settled message decision], some ()⟩ := by
  unfold settle
  cases hResult : source.settle message decision <;>
    simp [Logged.perform]

/- Delivering a failure performs at most one effect. -/
theorem deliverFailure_eq
    (failureValue : RouteFailure → Except String Value)
    (target : RouteTarget Value)
    (original : RouteMessage) (error : RouteError)
    (response : Option HttpResponse) :
    deliverFailure failureValue (some target) original error
        response =
      match failureMessage failureValue target original error
          response with
      | none => ⟨[], none⟩
      | some none => ⟨[], some ()⟩
      | some (some message) =>
          ⟨[.failureDelivered message],
            (target.deliver message).map (fun _ => ())⟩ := by
  unfold deliverFailure
  cases hMessage : failureMessage failureValue target
      original error response with
  | none => simp [hMessage, Logged.ofOption]
  | some sent =>
      cases sent with
      | none => simp [hMessage, Logged.ofOption]
      | some message =>
          cases hResult : target.deliver message with
          | none =>
              simp [hMessage, hResult, Logged.perform,
                Logged.ofOption]
          | some result =>
              cases result <;>
                simp [hMessage, hResult, Logged.perform,
                  Logged.ofOption]

/- A failure is delivered and settled with its decision. -/
theorem fail_eq
    (route : RouteBinding Value) (message : RouteMessage)
    (error : RouteError) (response : Option HttpResponse) :
    route.fail message error response =
      route.aftermath message (some (error, response)) :=
  rfl

/- Processing is an attempt followed by its aftermath. -/
theorem processRouteMessage_eq
    (route : RouteBinding Value) (message : RouteMessage) :
    processRouteMessage route message =
      route.attempt message >>= route.aftermath message := by
  have hSuccess :
      route.aftermath message none =
        settle route.source message .ack := by
    unfold RouteBinding.aftermath RouteBinding.failureDelivery
    simp [RouteBinding.decision]
  unfold processRouteMessage RouteBinding.attempt
  cases hTarget : route.target with
  | none =>
      cases hConsume : route.handler.consume message
          route.source.decode with
      | none => simp [Logged.perform, Logged.ofOption]
      | some result =>
          cases result <;>
            simp [Logged.perform, Logged.ofOption, hSuccess,
              fail_eq]
  | some target =>
      cases hAccepts : target.accepts message with
      | none => simp [hAccepts, Logged.ofOption]
      | some accepts =>
          cases accepts with
          | false => simp [hAccepts, Logged.ofOption, fail_eq]
          | true =>
              cases hCall : route.handler.call message
                  route.source.decode target with
              | none =>
                  simp [hAccepts, hCall, Logged.perform,
                    Logged.ofOption]
              | some result =>
                  cases result with
                  | error error =>
                      simp [hAccepts, hCall, Logged.perform,
                        Logged.ofOption, fail_eq]
                  | ok output =>
                      cases hDeliver :
                          target.deliver output with
                      | none =>
                          simp [hAccepts, hCall, hDeliver,
                            Logged.perform, Logged.ofOption]
                      | some delivery =>
                          cases delivery <;>
                            simp [hAccepts, hCall, hDeliver,
                              Logged.perform,
                              Logged.ofOption, hSuccess,
                              fail_eq]

end Router

end Qanat

------------------------------------------------------------
-- Success
------------------------------------------------------------

namespace Qanat

namespace Router

open Transition

variable {Value Args Output : Type}

namespace RouteBinding

/-
  The handler or the success target is reached by the message
  and unwinds.
-/
def AttemptUnwinds
    (route : RouteBinding Value) (message : RouteMessage) :
    Prop :=
  match route.target with
  | none =>
      route.handler.consume message route.source.decode = none
  | some target =>
      target.accepts message = none ∨
        target.accepts message = some true ∧
          (route.handler.call message route.source.decode
              target = none ∨
            ∃ output,
              route.handler.call message route.source.decode
                  target = some (.ok output) ∧
                target.deliver output = none)

/- The attempt ends in a failure, with its HTTP response. -/
def Fails
    (route : RouteBinding Value) (message : RouteMessage)
    (error : RouteError) (response : Option HttpResponse) :
    Prop :=
  (route.attempt message).outcome =
    some (some (error, response))

/- The error target is given a failure and unwinds. -/
def FailureUnwinds
    (route : RouteBinding Value) (message : RouteMessage)
    (error : RouteError) (response : Option HttpResponse) :
    Prop :=
  ∃ target, route.errorTarget = some target ∧
    (failureMessage route.failureValue target message error
        response = none ∨
      ∃ failed,
        failureMessage route.failureValue target message error
            response = some (some failed) ∧
          target.deliver failed = none)

/- Something that the message reaches unwinds. -/
def Unwinds
    (route : RouteBinding Value) (message : RouteMessage) :
    Prop :=
  route.AttemptUnwinds message ∨
    ∃ error response,
      route.Fails message error response ∧
        route.FailureUnwinds message error response

/-
  The handler succeeds and, if there is a success target, it
  accepts the input and takes the output.
-/
def Succeeds
    (route : RouteBinding Value) (message : RouteMessage) :
    Prop :=
  match route.target with
  | none =>
      route.handler.consume message route.source.decode =
        some (.ok ())
  | some target =>
      target.accepts message = some true ∧
        ∃ output,
          route.handler.call message route.source.decode
              target = some (.ok output) ∧
            target.deliver output = some (.ok ())

/-
  The same for a typed handler: its arguments are there, its
  function succeeds and, if there is a success target, the
  output is encoded, too.
-/
def TypedSucceeds
    (route : RouteBinding Value)
    (typed : TypedRouteHandler Value Args Output)
    (message : RouteMessage) :
    Prop :=
  match route.target with
  | none =>
      ∃ args result,
        typed.extract message route.source.decode = .ok args ∧
          typed.apply args = some (.ok result)
  | some target =>
      target.accepts message = some true ∧
        ∃ args headers output encoded,
          typed.extract message route.source.decode =
              .ok args ∧
            typed.apply args =
              some (.ok (headers, output)) ∧
            encodeHandlerOutput typed.toValue output
                { message with
                  headers := headers.getD message.headers }
                target = some (.ok encoded) ∧
            target.deliver encoded = some (.ok ())

end RouteBinding

/- The output of a delivery to the success target. -/
def RouteEffect.delivered? : RouteEffect → Option RouteMessage
| .delivered output => some output
| _ => none

/- The message of a delivery to the error target. -/
def RouteEffect.failureDelivered? :
    RouteEffect → Option RouteMessage
| .failureDelivered message => some message
| _ => none

/- The message and the decision of a settlement. -/
def RouteEffect.settled? :
    RouteEffect → Option (RouteMessage × DeliveryDecision)
| .settled message decision => some (message, decision)
| _ => none

namespace RouteBinding

/-
  What an attempt can do: it handles the message at most,
  and delivers at most one output.
-/
theorem attempt_effects
    (route : RouteBinding Value) (message : RouteMessage) :
    (route.attempt message).effects.filterMap
        RouteEffect.settled? = [] ∧
      (route.attempt message).effects.filterMap
        RouteEffect.failureDelivered? = [] ∧
      ((route.attempt message).effects.filterMap
        RouteEffect.delivered?).length ≤ 1 ∧
      (route.attempt message).effects.length ≤ 2 := by
  unfold attempt
  cases route.target with
  | none =>
      cases route.handler.consume message
          route.source.decode with
      | none =>
          simp [List.filterMap_cons, RouteEffect.settled?,
            RouteEffect.failureDelivered?,
            RouteEffect.delivered?]
      | some result =>
          cases result <;>
            simp [List.filterMap_cons, RouteEffect.settled?,
              RouteEffect.failureDelivered?,
              RouteEffect.delivered?]
  | some target =>
      cases hAccepts : target.accepts message with
      | none => simp [hAccepts]
      | some accepts =>
          cases accepts with
          | false => simp [hAccepts]
          | true =>
              cases hCall : route.handler.call message
                  route.source.decode target with
              | none =>
                  simp [hAccepts, hCall, List.filterMap_cons,
                    RouteEffect.settled?,
                    RouteEffect.failureDelivered?,
                    RouteEffect.delivered?]
              | some result =>
                  cases result <;>
                    simp [hAccepts, hCall,
                      List.filterMap_cons,
                      RouteEffect.settled?,
                      RouteEffect.failureDelivered?,
                      RouteEffect.delivered?]

/- How it ends: it unwinds, succeeds or fails. -/
theorem attempt_outcome
    (route : RouteBinding Value) (message : RouteMessage) :
    ((route.attempt message).outcome = none ↔
        route.AttemptUnwinds message) ∧
      ((route.attempt message).outcome = some none ↔
        route.Succeeds message) := by
  unfold attempt AttemptUnwinds Succeeds
  cases route.target with
  | none =>
      cases hConsume : route.handler.consume message
          route.source.decode with
      | none => simp
      | some result => cases result <;> simp
  | some target =>
      cases hAccepts : target.accepts message with
      | none => simp [hAccepts]
      | some accepts =>
          cases accepts with
          | false => simp [hAccepts]
          | true =>
              cases hCall : route.handler.call message
                  route.source.decode target with
              | none => simp [hAccepts, hCall]
              | some result =>
                  cases result with
                  | error error => simp [hAccepts, hCall]
                  | ok output =>
                      cases hDeliver :
                          target.deliver output with
                      | none =>
                          simp [hAccepts, hCall, hDeliver]
                      | some delivery =>
                          cases delivery <;>
                            simp [hAccepts, hCall, hDeliver]

/- A typed handler succeeds through all of its stages. -/
theorem succeeds_iff_typedSucceeds
    {route : RouteBinding Value}
    {typed : TypedRouteHandler Value Args Output}
    (hHandler : route.handler = typed.toRouteHandler)
    (message : RouteMessage) :
    route.Succeeds message ↔
      route.TypedSucceeds typed message := by
  unfold Succeeds TypedSucceeds
  rw [hHandler]
  unfold TypedRouteHandler.toRouteHandler
    TypedRouteHandler.consume TypedRouteHandler.call
  cases route.target with
  | none =>
      cases hExtract : typed.extract message
          route.source.decode with
      | error error => simp [hExtract]
      | ok args =>
          cases hApply : typed.apply args with
          | none => simp [hExtract, hApply]
          | some result =>
              cases result with
              | error text => simp [hExtract, hApply]
              | ok pair =>
                  rcases pair with ⟨headers, output⟩
                  simp [hExtract, hApply]
  | some target =>
      cases hExtract : typed.extract message
          route.source.decode with
      | error error => simp [hExtract]
      | ok args =>
          cases hApply : typed.apply args with
          | none => simp [hExtract, hApply]
          | some result =>
              cases result with
              | error text => simp [hExtract, hApply]
              | ok pair =>
                  rcases pair with ⟨headers, output⟩
                  simp [hExtract, hApply]

/-
  Neither the error target nor the result of settlements
  matters to an attempt.
-/
theorem attempt_congr
    (route : RouteBinding Value) (message : RouteMessage)
    (errorTarget : Option (RouteTarget Value))
    (settle :
      RouteMessage → DeliveryDecision →
        Except BusError Unit) :
    ({ route with
        errorTarget := errorTarget
        source := { route.source with settle := settle } } :
      RouteBinding Value).attempt message =
        route.attempt message := rfl

end RouteBinding

end Router

end Qanat

------------------------------------------------------------
-- Settlement
------------------------------------------------------------

namespace Qanat

namespace Router

open Transition

variable {Value Args Output : Type}

/- The effects of a failure are one delivery at most. -/
theorem failureDelivery_effects
    (route : RouteBinding Value) (message : RouteMessage)
    (failure : Option Failure) :
    ∃ sent : Option RouteMessage,
      (route.failureDelivery message failure).effects =
          (sent.map RouteEffect.failureDelivered).toList ∧
        ∀ failed, sent = some failed →
          ∃ target error response,
            failure = some (error, response) ∧
              route.errorTarget = some target ∧
              failureMessage route.failureValue target message
                error response = some (some failed) := by
  unfold RouteBinding.failureDelivery
  cases failure with
  | none => exact ⟨none, rfl, by simp⟩
  | some cause =>
      rcases cause with ⟨error, response⟩
      dsimp only
      cases hTarget : route.errorTarget with
      | none => exact ⟨none, rfl, by simp⟩
      | some target =>
          rw [deliverFailure_eq]
          cases hMessage : failureMessage route.failureValue
              target message error response with
          | none => exact ⟨none, rfl, by simp⟩
          | some sent =>
              refine ⟨sent, ?_, ?_⟩
              · cases sent <;> rfl
              · rintro failed rfl
                exact ⟨target, error, response, rfl, rfl,
                  hMessage⟩

/- It unwinds with the error target. -/
theorem failureDelivery_outcome
    (route : RouteBinding Value) (message : RouteMessage)
    (failure : Option Failure) :
    (route.failureDelivery message failure).outcome = none ↔
      ∃ error response, failure = some (error, response) ∧
        route.FailureUnwinds message error response := by
  unfold RouteBinding.failureDelivery
    RouteBinding.FailureUnwinds
  cases failure with
  | none => simp
  | some cause =>
      rcases cause with ⟨error, response⟩
      dsimp only
      cases hTarget : route.errorTarget with
      | none => simp [deliverFailure]
      | some target =>
          rw [deliverFailure_eq]
          cases hMessage : failureMessage route.failureValue
              target message error response with
          | none => simp [hMessage]
          | some sent =>
              cases sent <;> simp [hMessage]

/- The settlement follows unless the error target unwinds. -/
theorem aftermath_eq
    (route : RouteBinding Value) (message : RouteMessage)
    (failure : Option Failure) :
    route.aftermath message failure =
      match (route.failureDelivery message
          failure).outcome with
      | none =>
          ⟨(route.failureDelivery message failure).effects,
            none⟩
      | some () =>
          ⟨(route.failureDelivery message failure).effects ++
              [.settled message (route.decision failure)],
            some ()⟩ := by
  unfold RouteBinding.aftermath
  cases hOutcome :
      (route.failureDelivery message failure).outcome with
  | none => rw [Logged.bind_of_outcome_none hOutcome]
  | some value =>
      rw [Logged.bind_of_outcome_some hOutcome, settle_eq]

/- The failure that is delivered is one of the message. -/
theorem failureDelivered_of_aftermath
    {route : RouteBinding Value} {message failed : RouteMessage}
    {failure : Option Failure}
    (hMem :
      .failureDelivered failed ∈
        (route.aftermath message failure).effects) :
    ∃ target error response,
      failure = some (error, response) ∧
        route.errorTarget = some target ∧
        failureMessage route.failureValue target message
          error response = some (some failed) := by
  rcases failureDelivery_effects route message failure with
    ⟨sent, hEffects, hSent⟩
  have hDelivered :
      .failureDelivered failed ∈
        (route.failureDelivery message failure).effects := by
    rw [aftermath_eq] at hMem
    split at hMem
    · exact hMem
    · simpa using hMem
  rw [hEffects] at hDelivered
  exact hSent failed (by simpa using hDelivered)

/- What is done for a message, up to where it unwinds. -/
theorem effects_processRouteMessage
    (route : RouteBinding Value) (message : RouteMessage) :
    (processRouteMessage route message).effects =
      (route.attempt message).effects ++
        match (route.attempt message).outcome with
        | none => []
        | some failure =>
            (route.aftermath message failure).effects := by
  rw [processRouteMessage_eq]
  cases hOutcome : (route.attempt message).outcome with
  | none => simp [Logged.bind_of_outcome_none hOutcome]
  | some failure => simp [Logged.bind_of_outcome_some hOutcome]

/- Processing unwinds exactly with one of the components. -/
theorem outcome_eq_none_iff
    (route : RouteBinding Value) (message : RouteMessage) :
    (processRouteMessage route message).outcome = none ↔
      route.Unwinds message := by
  unfold RouteBinding.Unwinds RouteBinding.Fails
  rw [processRouteMessage_eq,
    ← (route.attempt_outcome message).1]
  cases hOutcome : (route.attempt message).outcome with
  | none => simp [Logged.bind_of_outcome_none hOutcome]
  | some failure =>
      have hDelivery :=
        failureDelivery_outcome route message failure
      rw [Logged.bind_of_outcome_some hOutcome, aftermath_eq]
      cases hFailure :
          (route.failureDelivery message failure).outcome with
      | none => simpa [hFailure] using hDelivery
      | some value => simpa [hFailure] using hDelivery

/- All of what is done for a message that does not unwind. -/
theorem processRouteMessage_of_returns
    {route : RouteBinding Value} {message : RouteMessage}
    (hReturns : ¬ route.Unwinds message) :
    ∃ failure,
      (route.attempt message).outcome = some failure ∧
        (failure = none ↔ route.Succeeds message) ∧
        processRouteMessage route message =
          ⟨(route.attempt message).effects ++
              (route.failureDelivery message
                failure).effects ++
              [.settled message (route.decision failure)],
            some ()⟩ := by
  have hAttempt := route.attempt_outcome message
  cases hOutcome : (route.attempt message).outcome with
  | none =>
      exact absurd (Or.inl (hAttempt.1.mp hOutcome)) hReturns
  | some failure =>
      refine ⟨failure, rfl, ?_, ?_⟩
      · rw [← hAttempt.2, hOutcome, Option.some.injEq]
      · rw [processRouteMessage_eq,
          Logged.bind_of_outcome_some hOutcome, aftermath_eq]
        cases hFailure :
            (route.failureDelivery message
              failure).outcome with
        | none =>
            rcases (failureDelivery_outcome route message
                failure).mp hFailure with
              ⟨error, response, rfl, hUnwinds⟩
            exact absurd
              (Or.inr ⟨error, response, hOutcome, hUnwinds⟩)
              hReturns
        | some value => simp

/- All of what is done for a failure that does not unwind. -/
theorem fail_of_returns
    {route : RouteBinding Value} {message : RouteMessage}
    {error : RouteError} {response : Option HttpResponse}
    (hReturns :
      ¬ route.FailureUnwinds message error response) :
    route.fail message error response =
      ⟨(route.failureDelivery message
          (some (error, response))).effects ++
          [.settled message route.failureDecision],
        some ()⟩ := by
  rw [fail_eq, aftermath_eq]
  cases hOutcome :
      (route.failureDelivery message
        (some (error, response))).outcome with
  | none =>
      rcases (failureDelivery_outcome route message _).mp
          hOutcome with ⟨_, _, hCause, hUnwinds⟩
      cases hCause
      exact absurd hUnwinds hReturns
  | some value => rfl

/- The delivery of a failure settles nothing. -/
theorem settled_of_failureDelivery
    (route : RouteBinding Value) (message : RouteMessage)
    (failure : Option Failure) :
    (route.failureDelivery message
      failure).effects.filterMap RouteEffect.settled? = [] := by
  rcases failureDelivery_effects route message failure with
    ⟨sent, hEffects, _⟩
  rw [hEffects]
  cases sent <;> rfl

/- A failure settles its message, unless it unwinds. -/
theorem settled_of_fail
    {route : RouteBinding Value} {message : RouteMessage}
    {error : RouteError} {response : Option HttpResponse}
    (hReturns :
      ¬ route.FailureUnwinds message error response) :
    (route.fail message error response).outcome = some () ∧
      (route.fail message error response).effects.filterMap
          RouteEffect.settled? =
        [(message, route.failureDecision)] := by
  rw [fail_of_returns hReturns]
  refine ⟨rfl, ?_⟩
  rw [List.filterMap_append, settled_of_failureDelivery]
  rfl

/- An error target that unwinds leaves it unsettled. -/
theorem settled_of_failureUnwinds
    {route : RouteBinding Value} {message : RouteMessage}
    {error : RouteError} {response : Option HttpResponse}
    (hUnwinds :
      route.FailureUnwinds message error response) :
    (route.fail message error response).outcome = none ∧
      (route.fail message error response).effects.filterMap
          RouteEffect.settled? = [] := by
  have hOutcome :=
    (failureDelivery_outcome route message
      (some (error, response))).mpr ⟨_, _, rfl, hUnwinds⟩
  rw [fail_eq, aftermath_eq, hOutcome]
  exact ⟨rfl, settled_of_failureDelivery route message _⟩

/- A message whose processing returns is settled. -/
theorem settled_of_returns
    {route : RouteBinding Value} {message : RouteMessage}
    (hReturns : ¬ route.Unwinds message) :
    (processRouteMessage route message).outcome = some () ∧
      ∃ decision,
        (processRouteMessage route message).effects.filterMap
            RouteEffect.settled? =
          [(message, decision)] := by
  rcases processRouteMessage_of_returns hReturns with
    ⟨failure, _, _, hProcess⟩
  rw [hProcess]
  refine ⟨rfl, route.decision failure, ?_⟩
  rw [List.filterMap_append, List.filterMap_append,
    (route.attempt_effects message).1,
    settled_of_failureDelivery]
  rfl

/- A message whose processing unwinds is not settled. -/
theorem settled_of_unwinds
    {route : RouteBinding Value} {message : RouteMessage}
    (hUnwinds : route.Unwinds message) :
    (processRouteMessage route message).effects.filterMap
      RouteEffect.settled? = [] := by
  have hAttempt := (route.attempt_effects message).1
  rw [effects_processRouteMessage, List.filterMap_append,
    hAttempt, List.nil_append]
  rcases hUnwinds with
    hHandler | ⟨error, response, hFails, hFailure⟩
  · rw [(route.attempt_outcome message).1.mpr hHandler]
    rfl
  · have hOutcome :
        (route.attempt message).outcome =
          some (some (error, response)) := hFails
    rw [hOutcome]
    exact (settled_of_failureUnwinds hFailure).2

/-
  A message whose processing does not unwind is settled
  exactly once, as the last effect.  It is acknowledged if it
  was handled and its output, if it has a target, delivered,
  and meets the failure decision otherwise.  The error target
  is delivered at most one failure of the unmodified message,
  and nothing it or a settlement returns changes the rest.
-/
theorem processRouteMessage_settles
    (route : RouteBinding Value) (message : RouteMessage)
    (hReturns : ¬ route.Unwinds message) :
    ∃ (before : List RouteEffect)
      (decision : DeliveryDecision),
      processRouteMessage route message =
          ⟨before ++ [.settled message decision],
            some ()⟩ ∧
      before.filterMap RouteEffect.settled? = [] ∧
      (route.Succeeds message → decision = .ack) ∧
      (¬ route.Succeeds message →
        decision = route.failureDecision) ∧
      (before.filterMap RouteEffect.delivered?).length ≤ 1 ∧
      (before.filterMap
        RouteEffect.failureDelivered?).length ≤ 1 ∧
      (∀ failed, .failureDelivered failed ∈ before →
        ¬ route.Succeeds message ∧
        ∃ target error response,
          route.errorTarget = some target ∧
            failureMessage route.failureValue target message
              error response = some (some failed)) ∧
      (∀ errorTarget settle,
        ¬ ({ route with errorTarget := errorTarget } :
            RouteBinding Value).Unwinds message →
        ∃ before',
        processRouteMessage
            { route with
              errorTarget := errorTarget
              source :=
                { route.source with settle := settle } }
            message =
          ⟨before' ++ [.settled message decision],
            some ()⟩ ∧
        before'.filter
            (fun e => e.failureDelivered?.isNone) =
          before.filter
            (fun e => e.failureDelivered?.isNone) ∧
        (errorTarget = route.errorTarget →
          before' = before)) ∧
      (∀ typed : TypedRouteHandler Value Args Output,
        route.handler = typed.toRouteHandler →
          (route.Succeeds message ↔
            route.TypedSucceeds typed message)) := by
  rcases processRouteMessage_of_returns hReturns with
    ⟨failure, hOutcome, hSuccess, hProcess⟩
  rcases route.attempt_effects message with
    ⟨hSettled, hFailed, hDelivered, _⟩
  rcases failureDelivery_effects route message failure with
    ⟨sent, hEffects, hSent⟩
  refine ⟨(route.attempt message).effects ++
      (route.failureDelivery message failure).effects,
    route.decision failure, hProcess,
    ?_, ?_, ?_, ?_, ?_, ?_, ?_, ?_⟩
  · rw [List.filterMap_append, hSettled,
      settled_of_failureDelivery]
    rfl
  · intro hSucceeds
    rw [hSuccess.mpr hSucceeds]
    rfl
  · intro hFails
    cases hCause : failure with
    | none => exact absurd (hSuccess.mp hCause) hFails
    | some cause => rfl
  · have hNone :
        (route.failureDelivery message
          failure).effects.filterMap RouteEffect.delivered? =
            [] := by
      rw [hEffects]
      cases sent <;> rfl
    rw [List.filterMap_append, hNone, List.append_nil]
    exact hDelivered
  · rw [List.filterMap_append, hFailed, hEffects]
    cases sent <;>
      simp [RouteEffect.failureDelivered?]
  · intro failed hMem
    have hListed :
        failed ∈
          ((route.attempt message).effects ++
            (route.failureDelivery message
              failure).effects).filterMap
            RouteEffect.failureDelivered? :=
      List.mem_filterMap.mpr ⟨_, hMem, rfl⟩
    rw [List.filterMap_append, hFailed, hEffects,
      List.nil_append] at hListed
    have hIs : sent = some failed := by
      cases sent with
      | none => cases hListed
      | some other =>
          have hSame : failed = other := by
            simpa [RouteEffect.failureDelivered?]
              using hListed
          rw [hSame]
    rcases hSent failed hIs with
      ⟨target, error, response, hCause, hTarget, hMessage⟩
    refine ⟨?_, target, error, response, hTarget, hMessage⟩
    intro hSucceeds
    rw [hSuccess.mpr hSucceeds] at hCause
    cases hCause
  · intro errorTarget settle hStill
    have hOther :
        ¬ ({ route with
              errorTarget := errorTarget
              source :=
                { route.source with settle := settle } } :
            RouteBinding Value).Unwinds message := hStill
    rcases processRouteMessage_of_returns hOther with
      ⟨failure', hOutcome', _, hProcess'⟩
    rw [route.attempt_congr, hOutcome,
      Option.some.injEq] at hOutcome'
    subst hOutcome'
    rcases failureDelivery_effects
        ({ route with
            errorTarget := errorTarget
            source :=
              { route.source with settle := settle } } :
          RouteBinding Value) message failure with
      ⟨sent', hEffects', _⟩
    refine ⟨_, hProcess', ?_, ?_⟩
    · rw [route.attempt_congr, List.filter_append,
        List.filter_append, hEffects, hEffects']
      cases sent <;> cases sent' <;> rfl
    · rintro rfl
      rfl
  · intro typed hHandler
    exact RouteBinding.succeeds_iff_typedSucceeds hHandler
      message

def sampleMessage : RouteMessage where
  address := "orders"
  id := 7
  messageId := "message-7"
  headers := ∅
  metadata := ∅
  attempts := 2
  payload := []

/- A route whose target is down. -/
def brokenRoute : RouteBinding Unit where
  source := { decode := fun _ => .ok () }
  handler :=
    TypedRouteHandler.toRouteHandler
      { extract := fun message decoder => decoder message
        handler := .inl (fun args => some (.ok args))
        toValue := fun output => .ok output }
  target :=
    some
      { encode := fun _ message => some (.ok message)
        deliver := fun _ =>
          some (.error (.connection "down")) }
  errorTarget :=
    some
      { encode := fun _ message => some (.ok message)
        deliver := fun _ => some (.ok ()) }
  failureDecision := .retry
  failureValue := fun _ => .ok ()

/- The message of the broken route is to be retried. -/
theorem processRouteMessage_settles_broken :
    ∃ before,
      processRouteMessage brokenRoute sampleMessage =
          ⟨before ++ [.settled sampleMessage .retry],
            some ()⟩ ∧
        before.filterMap RouteEffect.settled? = [] := by
  have hReturns : ¬ brokenRoute.Unwinds sampleMessage := by
    rw [← outcome_eq_none_iff]
    intro hNone
    cases hNone
  have hFails : ¬ brokenRoute.Succeeds sampleMessage := by
    rintro ⟨_, output, _, hDeliver⟩
    cases hDeliver
  rcases @processRouteMessage_settles Unit Unit Unit
      brokenRoute sampleMessage hReturns with
    ⟨before, decision, hProcess, hOnce, _, hDecision, _⟩
  refine ⟨before, ?_, hOnce⟩
  rw [hProcess, hDecision hFails]
  rfl

end Router

end Qanat
