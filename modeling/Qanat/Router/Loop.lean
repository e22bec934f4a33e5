import Qanat.Router.Install.Model
import Qanat.Router.Settlement

/-
  The loop of an unpartitioned route, one effect at a time.

  Main declarations:
    * `runRoute`
    * `Loop.Phase`, `Loop.Progress`
-/

------------------------------------------------------------
-- The Loop
------------------------------------------------------------

namespace Qanat

namespace Router

open Transition

variable {Value : Type}

/-
  The loop of the route.  Its components may return something
  else for every message.
-/
def runRoute
    (binding : Nat → RouteBinding Value)
    (messages : List RouteMessage) :
    Logged RouteEffect Unit :=
  messages.zipIdx.forM
    (fun entry =>
      processRouteMessage (binding entry.2) entry.1)

/- It is the loop of `install` if they do not. -/
theorem runRoute_const
    (binding : RouteBinding Value)
    (messages : List RouteMessage) :
    runRoute (fun _ => binding) messages =
      runUnpartitioned binding messages := by
  have hShifted :
      ∀ n, (messages.zipIdx n).forM
          (fun entry =>
            processRouteMessage binding entry.1) =
        messages.forM (processRouteMessage binding) := by
    induction messages with
    | nil => intro n; rfl
    | cons message rest ih =>
        intro n
        rw [List.zipIdx_cons, Logged.forM_cons,
          Logged.forM_cons, ih]
  exact hShifted 0

/- One more message for a loop that has not unwound. -/
theorem runRoute_concat
    {binding : Nat → RouteBinding Value}
    {messages : List RouteMessage}
    (hReturned :
      (runRoute binding messages).outcome = some ())
    (message : RouteMessage) :
    (runRoute binding (messages ++ [message])).effects =
        (runRoute binding messages).effects ++
          (processRouteMessage (binding messages.length)
            message).effects ∧
      (runRoute binding (messages ++ [message])).outcome =
        (processRouteMessage (binding messages.length)
          message).outcome := by
  unfold runRoute at hReturned ⊢
  rw [List.zipIdx_append, Logged.forM_append,
    Logged.bind_of_outcome_some hReturned]
  simp only [List.zipIdx_singleton, Nat.zero_add,
    Logged.forM_cons]
  cases hLast : (processRouteMessage
      (binding messages.length) message).outcome with
  | none => simp [Logged.bind_of_outcome_none hLast]
  | some value =>
      rw [Logged.bind_of_outcome_some hLast]
      simp [List.forM]

/- A loop that has unwound does nothing more. -/
theorem runRoute_of_unwound
    {binding : Nat → RouteBinding Value}
    {messages : List RouteMessage}
    (hUnwound : (runRoute binding messages).outcome = none)
    (more : List RouteMessage) :
    (runRoute binding (messages ++ more)).effects =
      (runRoute binding messages).effects := by
  unfold runRoute at hUnwound ⊢
  rw [List.zipIdx_append, Logged.forM_append,
    Logged.bind_of_outcome_none hUnwound]

theorem runRoute_mono
    (binding : Nat → RouteBinding Value)
    (messages more : List RouteMessage) :
    (runRoute binding messages).effects <+:
      (runRoute binding (messages ++ more)).effects := by
  unfold runRoute
  rw [List.zipIdx_append]
  exact Logged.effects_forM_mono _ _ _

end Router

end Qanat

------------------------------------------------------------
-- Where the Loop Is
------------------------------------------------------------

namespace Qanat

namespace Router

namespace Loop

open Transition

variable {Value : Type}

/-
  Where the task of the route is.  `working` has effects left
  to perform for the message at a position, and may unwind
  after them.
-/
inductive Phase where
| notInstalled
| waiting
| working
    (position : Nat) (rest : List RouteEffect)
    (panics : Bool)
| ended
deriving DecidableEq

/- The task has taken the message at a position. -/
def Phase.take
    (binding : Nat → RouteBinding Value)
    (position : Nat) (message : RouteMessage) : Phase :=
  .working position
    (processRouteMessage (binding position) message).effects
    (processRouteMessage (binding position)
      message).outcome.isNone

/- What is left of a message, and leaving it. -/
def Phase.dues : Phase → Nat
| .working _ rest _ => rest.length + 1
| _ => 0

variable {binding : Nat → RouteBinding Value}
variable {messages : List RouteMessage}
variable {performed rest : List RouteEffect}
variable {position : Nat}

/-
  The effects so far, with those the route has still to
  perform, are those of the loop over the messages taken.
-/
def Progress
    (binding : Nat → RouteBinding Value)
    (messages : List RouteMessage)
    (performed : List RouteEffect) : Phase → Prop
| .notInstalled => messages = [] ∧ performed = []
| .waiting =>
    runRoute binding messages = ⟨performed, some ()⟩
| .working _ rest panics =>
    (runRoute binding messages).effects =
        performed ++ rest ∧
      (runRoute binding messages).outcome.isNone = panics
| .ended =>
    runRoute binding messages = ⟨performed, none⟩

theorem Progress.install
    (hProgress :
      Progress binding messages performed .notInstalled) :
    Progress binding messages performed .waiting := by
  rcases hProgress with ⟨rfl, rfl⟩
  rfl

theorem Progress.take
    (hProgress :
      Progress binding messages performed .waiting)
    (message : RouteMessage) :
    Progress binding (messages ++ [message]) performed
      (.take binding messages.length message) := by
  have hLoop : runRoute binding messages =
      ⟨performed, some ()⟩ := hProgress
  have hMore := runRoute_concat
    (congrArg Logged.outcome hLoop) message
  rw [hLoop] at hMore
  exact ⟨hMore.1, by rw [hMore.2]⟩

theorem Progress.perform
    {effect : RouteEffect} {panics : Bool}
    (hProgress :
      Progress binding messages performed
        (.working position (effect :: rest) panics)) :
    Progress binding messages (performed ++ [effect])
      (.working position rest panics) := by
  rcases hProgress with ⟨hEffects, hOutcome⟩
  exact ⟨by rw [hEffects, List.append_assoc]; rfl, hOutcome⟩

/- All effects of a message have been performed. -/
theorem Progress.done
    {panics : Bool}
    (hProgress :
      Progress binding messages performed
        (.working position [] panics)) :
    Progress binding messages performed
      (if panics then .ended else .waiting) := by
  rcases hProgress with ⟨hEffects, hOutcome⟩
  rw [List.append_nil] at hEffects
  cases hLoop : runRoute binding messages with
  | mk effects outcome =>
      rw [hLoop] at hEffects hOutcome
      change effects = performed at hEffects
      subst hEffects
      cases outcome with
      | none =>
          cases hOutcome
          exact hLoop
      | some value =>
          cases hOutcome
          exact hLoop

/- The task never does what its loop would not do. -/
theorem Progress.isPrefix
    {phase : Phase}
    (hProgress : Progress binding messages performed phase)
    (more : List RouteMessage) :
    performed <+:
      (runRoute binding (messages ++ more)).effects := by
  refine List.IsPrefix.trans ?_ (runRoute_mono binding _ _)
  cases phase with
  | notInstalled =>
      rw [hProgress.2]
      exact List.nil_prefix
  | waiting =>
      have hLoop : runRoute binding messages =
          ⟨performed, some ()⟩ := hProgress
      rw [hLoop]
  | working =>
      rw [hProgress.1]
      exact List.prefix_append _ _
  | ended =>
      have hLoop : runRoute binding messages =
          ⟨performed, none⟩ := hProgress
      rw [hLoop]

/- A task that has ended leaves the rest of the messages. -/
theorem Progress.performed_eq_of_ended
    (hProgress : Progress binding messages performed .ended)
    (more : List RouteMessage) :
    performed =
      (runRoute binding (messages ++ more)).effects := by
  have hLoop : runRoute binding messages =
      ⟨performed, none⟩ := hProgress
  rw [runRoute_of_unwound (by rw [hLoop]), hLoop]

theorem Progress.performed_eq_of_waiting
    (hProgress :
      Progress binding messages performed .waiting) :
    performed = (runRoute binding messages).effects := by
  have hLoop : runRoute binding messages =
      ⟨performed, some ()⟩ := hProgress
  rw [hLoop]

end Loop

end Router

end Qanat

------------------------------------------------------------
-- Effects of a Message
------------------------------------------------------------

namespace Qanat

namespace Router

variable {Value : Type}

/- Handled, delivered, failure delivered and settled at most. -/
theorem length_processRouteMessage_le
    (route : RouteBinding Value) (message : RouteMessage) :
    (processRouteMessage route message).effects.length ≤
      4 := by
  have hFew := (route.attempt_effects message).2.2.2
  rw [effects_processRouteMessage, List.length_append]
  cases (route.attempt message).outcome with
  | none =>
      rw [List.length_nil]
      omega
  | some failure =>
      rcases failureDelivery_effects route message failure
        with ⟨sent, hEffects, _⟩
      have hDelivery :
          (route.failureDelivery message
            failure).effects.length ≤ 1 := by
        rw [hEffects]
        cases sent <;> simp
      have hAftermath :
          (route.aftermath message failure).effects.length ≤
            2 := by
        rw [aftermath_eq]
        split
        · simp only []
          omega
        · rw [List.length_append, List.length_singleton]
          omega
      dsimp only
      omega

theorem Loop.Phase.dues_take_le
    (binding : Nat → RouteBinding Value)
    (position : Nat) (message : RouteMessage) :
    (Phase.take binding position message).dues ≤ 5 :=
  Nat.add_le_add_right
    (length_processRouteMessage_le _ _) 1

end Router

end Qanat
