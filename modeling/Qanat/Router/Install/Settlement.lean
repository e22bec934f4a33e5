import Qanat.Router.Install.Effects
import Qanat.Router.Settlement

/-
  The settlement of messages in partitioned routes.  A job
  that unwinds completes without settling its message, and
  the task of the route dies of an error target that unwinds
  and of a submission that does; all other messages that were
  taken are settled exactly once.

  Main declarations:
    * `PartitionedRoute.Unwinds`, `PartitionedRoute.Fits`
    * `Install.SettledOnce`, `Install.Settles`
    * `Install.yielded_iff`
    * `Install.settledOnce_of_over`
-/

------------------------------------------------------------
-- Messages That Can Be Settled
------------------------------------------------------------

namespace Qanat

namespace Router

namespace PartitionedRoute

variable {Value : Type}

/-
  Something that is called for the message unwinds: in its
  job or, if it has no key, the error target.
-/
def Unwinds
    (route : PartitionedRoute Value)
    (position : Nat) (message : RouteMessage) : Prop :=
  match route.resolve position message with
  | .ok _ => (route.binding position).Unwinds message
  | .error error =>
      (route.binding position).FailureUnwinds message error
        none

/- The domain can take the job of the message, if it has one. -/
def Fits
    (route : PartitionedRoute Value)
    (config : Partitioner.Config) (position : Nat) : Prop :=
  route.key? position = none ∨
    config.capacity ≤ Partitioner.maxPermits

end PartitionedRoute

namespace Install

open Transition Interleaving

variable {Value : Type} {route : PartitionedRoute Value}

/- The message was settled once so far. -/
def SettledOnce
    (position : Nat) (message : RouteMessage)
    (trace : List Event) : Prop :=
  ∃ decision,
    (ofTag position (routeEffects trace)).filterMap
        RouteEffect.settled? =
      [(message, decision)]

/-
  A message is settled by the time the completion of its job
  fires, and every message the source has yielded by the time
  the task of the route is over.
-/
structure Settles
    (route : PartitionedRoute Value)
    (trace : List Event) (s : State) : Prop where
  completed :
    ∀ sub ∈ submissions trace,
      Partitioner.Event.completed sub.key sub.call ∈
          domainEvents trace →
        ∀ message,
          route.messages[sub.position]? = some message →
            SettledOnce sub.position message trace
  ended :
    s.phase.IsOver →
      ∀ position message,
        Event.yielded position ∈ trace →
        route.messages[position]? = some message →
          SettledOnce position message trace

end Install

end Router

end Qanat

------------------------------------------------------------
-- Messages That Were Taken
------------------------------------------------------------

namespace Qanat

namespace Router

namespace Install

open Transition Interleaving

variable {Value : Type} {route : PartitionedRoute Value}
variable {config : Partitioner.Config}
variable {trace : List Event} {s : State}

/- What the source has yielded has been resolved, or is being. -/
theorem yielded_iff
    (hReach : (lts route config).Reachable trace s)
    (position : Nat) :
    Event.yielded position ∈ trace ↔
      position < s.position ∨
        s.phase = .resolving ∧ position = s.position := by
  induction hReach with
  | @initial s hStart =>
      have hEq : s = State.start := hStart
      subst hEq
      simp [State.start]
  | @step trace s s' e hReach hStep ih =>
      rw [List.mem_append, ih, List.mem_singleton]
      cases hStep with
      | domain | endSource => simp
      | «yield» hPhase =>
          simp only [hPhase, Event.yielded.injEq, reduceCtorEq,
            false_and, or_false, true_and]
      | unresolve hPhase | submit hPhase =>
          simp only [hPhase, reduceCtorEq, false_and, or_false,
            true_and]
          omega
      | recover hPhase | «continue» hPhase
      | unwindRecovery hPhase | unwindSubmission hPhase
      | push hPhase | see hPhase | «end» hPhase =>
          simp [hPhase]

/- A task that is over is not in the middle of a message. -/
theorem yielded_iff_of_over
    (hReach : (lts route config).Reachable trace s)
    (hOver : s.phase.IsOver) (position : Nat) :
    Event.yielded position ∈ trace ↔
      position < s.position := by
  rw [yielded_iff hReach]
  refine or_iff_left ?_
  rintro ⟨hPhase, _⟩
  rw [hPhase] at hOver
  exact hOver

/- A call dies only of a domain that cannot make channels. -/
theorem barren_of_died
    (hReach : (lts route config).Reachable trace s)
    {position : Nat} {c : Partitioner.CallId}
    (hPhase : s.phase = .unwound position (some c)) :
    Partitioner.maxPermits < config.capacity := by
  induction hReach with
  | @initial s hStart =>
      have hEq : s = State.start := hStart
      subst hEq
      cases hPhase
  | @step trace s s' e hReach hStep ih =>
      cases hStep with
      | domain | endSource | see => exact ih hPhase
      | unwindSubmission _ hCall hPanicked =>
          rcases Partitioner.bounded_or_barren
              (domain_reachable hReach) with
            ⟨bounded, rfl, hBounded⟩ | ⟨hOver, _⟩
          · exact absurd hPanicked
              ((Partitioner.invariant_of_reachable
                hBounded).no_panic _ _ hCall).2
          · exact hOver
      | _ => cases hPhase

/- A job that completes is one of a domain that is not. -/
theorem fits_of_completed
    (hReach : (lts route config).Reachable trace s)
    {key : String} {c : Partitioner.CallId}
    (hCompleted :
      Partitioner.Event.completed key c ∈
        domainEvents trace) :
    config.capacity ≤ Partitioner.maxPermits := by
  by_contra hFits
  exact Partitioner.not_isJob_of_reachable
    (Nat.not_le.mp hFits) (domain_reachable hReach) hCompleted
    trivial

/- What the task of a route has died of. -/
theorem cause_of_unwound
    (hReach : (lts route config).Reachable trace s)
    {position : Nat} {call : Option Partitioner.CallId}
    (hPhase : s.phase = .unwound position call) :
    position < s.position ∧
      ∃ message, route.messages[position]? = some message ∧
        ((∃ error,
            route.resolve position message = .error error ∧
              (route.binding position).FailureUnwinds message
                error none) ∨
          (∃ key, route.resolve position message = .ok key ∧
            Partitioner.maxPermits < config.capacity)) := by
  cases call with
  | none =>
      rcases (recovery_of_reachable hReach).recovering
          position true (by simp [hPhase, Phase.recovery?])
        with ⟨hBefore, message, error, hMessage, hResolve,
          hPanics⟩
      refine ⟨hBefore, message, hMessage,
        Or.inl ⟨error, hResolve, ?_⟩⟩
      by_contra hReturns
      unfold PartitionedRoute.recovery at hPanics
      rw [(settled_of_fail hReturns).1] at hPanics
      cases hPanics
  | some c =>
      have hLedger := ledger_of_reachable hReach
      rcases hLedger.current position c
          (by simp [hPhase, Phase.submission?]) with
        ⟨front, key, hLast⟩
      have hMem :
          (⟨position, key, c⟩ : Submission) ∈
            submissions trace := by simp [hLast]
      rcases hLedger.key_of_submission hMem with
        ⟨hBefore, hKey⟩
      rcases PartitionedRoute.key?_eq_some_iff.mp hKey with
        ⟨message, hMessage, hResolve⟩
      exact ⟨hBefore, message, hMessage,
        Or.inr ⟨key, hResolve, barren_of_died hReach hPhase⟩⟩

end Install

end Router

end Qanat

------------------------------------------------------------
-- Settled Messages
------------------------------------------------------------

namespace Qanat

namespace Router

namespace Install

open Transition Interleaving

variable {Value : Type} {route : PartitionedRoute Value}
variable {config : Partitioner.Config}
variable {trace : List Event} {s : State}

/- The resolution of a submitted message. -/
theorem Ledger.resolve_of_submission
    {sub : Submission} {message : RouteMessage}
    (hLedger : Ledger route trace s)
    (hSub : sub ∈ submissions trace)
    (hMessage :
      route.messages[sub.position]? = some message) :
    route.resolve sub.position message = .ok sub.key := by
  rcases PartitionedRoute.key?_eq_some_iff.mp
      (hLedger.key_of_submission hSub).2 with
    ⟨message', hMessage', hResolve⟩
  rw [hMessage] at hMessage'
  cases hMessage'
  exact hResolve

/- A completed job has settled its message if it returned. -/
theorem settledOnce_of_completed
    (hReach : (lts route config).Reachable trace s)
    {sub : Submission} {message : RouteMessage}
    (hSub : sub ∈ submissions trace)
    (hMessage :
      route.messages[sub.position]? = some message)
    (hCompleted :
      Partitioner.Event.completed sub.key sub.call ∈
        domainEvents trace) :
    SettledOnce sub.position message trace ↔
      ¬ route.Unwinds sub.position message := by
  unfold SettledOnce PartitionedRoute.Unwinds
  rw [effects_of_completed hReach hSub hMessage hCompleted,
    (ledger_of_reachable hReach).resolve_of_submission hSub
      hMessage]
  constructor
  · rintro ⟨decision, hSettled⟩ hUnwinds
    unfold PartitionedRoute.process at hSettled
    rw [settled_of_unwinds hUnwinds] at hSettled
    cases hSettled
  · intro hReturns
    exact (settled_of_returns hReturns).2

/- So has a route that has recovered from a message. -/
theorem settledOnce_of_unresolved
    (hReach : (lts route config).Reachable trace s)
    {position : Nat} {message : RouteMessage}
    {error : RouteError}
    (hBefore : position < s.position)
    (hMessage : route.messages[position]? = some message)
    (hResolve :
      route.resolve position message = .error error)
    (hDone : s.remaining position = []) :
    SettledOnce position message trace ↔
      ¬ route.Unwinds position message := by
  unfold SettledOnce PartitionedRoute.Unwinds
  rw [effects_of_unresolved hReach hBefore hMessage hResolve
    hDone, hResolve]
  unfold PartitionedRoute.recovery
  constructor
  · rintro ⟨decision, hSettled⟩ hUnwinds
    rw [(settled_of_failureUnwinds hUnwinds).2] at hSettled
    cases hSettled
  · intro hReturns
    exact ⟨_, (settled_of_fail hReturns).2⟩

/- A job that the task has died of is not done at all. -/
theorem not_settled_of_died
    (hReach : (lts route config).Reachable trace s)
    {sub : Submission} (message : RouteMessage)
    (hSub : sub ∈ submissions trace)
    (hPhase :
      s.phase = .unwound sub.position (some sub.call)) :
    ¬ SettledOnce sub.position message trace := by
  have hOver := barren_of_died hReach hPhase
  have hNone :
      Partitioner.domainEffects sub.key (domainEvents trace) =
        [] := by
    apply List.eq_nil_iff_forall_not_mem.mpr
    rintro ⟨c, effect⟩ hMem
    exact Partitioner.not_isJob_of_reachable hOver
      (domain_reachable hReach)
      (Partitioner.mem_domainEffects_iff.mp hMem) trivial
  rintro ⟨decision, hSettled⟩
  rw [ofTag_routeEffects hReach hSub, hNone] at hSettled
  cases hSettled

/- What was not taken was not settled. -/
theorem not_settled_of_later
    (hReach : (lts route config).Reachable trace s)
    {position : Nat} (message : RouteMessage)
    (hLater : s.position ≤ position) :
    ¬ SettledOnce position message trace := by
  rintro ⟨decision, hSettled⟩
  have hMem :
      (message, decision) ∈
        (ofTag position (routeEffects trace)).filterMap
          RouteEffect.settled? := by
    rw [hSettled]
    exact List.mem_singleton_self _
  rcases List.mem_filterMap.mp hMem with ⟨effect, hIn, _⟩
  exact absurd
    (position_of_routeEffect hReach (mem_ofTag_iff.mp hIn))
    (Nat.not_lt.mpr hLater)

/-
  The messages of a task that is over, once the jobs it has
  submitted have completed: those are settled that it took
  and of which nothing unwound.
-/
theorem settledOnce_of_over
    (hReach : (lts route config).Reachable trace s)
    (hOver : s.phase.IsOver)
    (hDone :
      ∀ sub ∈ submissions trace,
        s.phase.submission? = some (sub.position, sub.call) ∨
          Partitioner.Event.completed sub.key sub.call ∈
            domainEvents trace)
    {position : Nat} {message : RouteMessage}
    (hMessage : route.messages[position]? = some message) :
    SettledOnce position message trace ↔
      Event.yielded position ∈ trace ∧
        ¬ route.Unwinds position message ∧
        route.Fits config position := by
  rw [yielded_iff_of_over hReach hOver]
  rcases Nat.lt_or_ge position s.position with
    hBefore | hLater
  · rw [and_iff_right hBefore]
    cases hResolve : route.resolve position message with
    | error error =>
        have hRemaining : s.remaining position = [] := by
          cases hPhase : s.phase with
          | ended => simp [State.remaining, hPhase]
          | unwound => simp [State.remaining, hPhase]
          | _ =>
              rw [hPhase] at hOver
              exact hOver.elim
        rw [settledOnce_of_unresolved hReach hBefore hMessage
          hResolve hRemaining]
        exact (and_iff_left
          (Or.inl (key?_of_error hMessage hResolve))).symm
    | ok key =>
        have hKey : route.key? position = some key :=
          PartitionedRoute.key?_eq_some_iff.mpr
            ⟨message, hMessage, hResolve⟩
        rcases (ledger_of_reachable hReach).submission_of_key
            hBefore hKey with ⟨sub, hSub, rfl, _⟩
        rcases hDone sub hSub with hDied | hCompleted
        · have hPhase :
              s.phase =
                .unwound sub.position (some sub.call) := by
            cases hPhase : s.phase with
            | unwound p call =>
                rw [hPhase] at hDied
                rcases Option.map_eq_some_iff.mp hDied with
                  ⟨c, rfl, hPair⟩
                cases hPair
                rfl
            | submitting p c =>
                rw [hPhase] at hOver
                exact hOver.elim
            | _ =>
                rw [hPhase] at hDied
                cases hDied
          refine iff_of_false
            (not_settled_of_died hReach message hSub hPhase) ?_
          rintro ⟨_, hNone | hFits⟩
          · rw [hKey] at hNone
            cases hNone
          · exact absurd (barren_of_died hReach hPhase)
              (Nat.not_lt.mpr hFits)
        · rw [settledOnce_of_completed hReach hSub hMessage
            hCompleted]
          exact (and_iff_left
            (Or.inr (fits_of_completed hReach
              hCompleted))).symm
  · exact iff_of_false
      (not_settled_of_later hReach message hLater)
      (fun hBoth => absurd hBoth.1 (Nat.not_lt.mpr hLater))

/- At the end of a route all messages are accounted for. -/
theorem settledOnce_of_ended
    (hReach : (lts route config).Reachable trace s)
    (hEnded : s.phase = .ended)
    {position : Nat} {message : RouteMessage}
    (hMessage : route.messages[position]? = some message) :
    SettledOnce position message trace ↔
      ¬ route.Unwinds position message ∧
        route.Fits config position := by
  rcases completed_of_ended hReach hEnded with
    ⟨_, hAll, hCompleted⟩
  have hOver : s.phase.IsOver := by
    rw [hEnded]
    trivial
  rw [settledOnce_of_over hReach hOver
    (fun sub hSub => Or.inr (hCompleted sub hSub)) hMessage]
  refine and_iff_right ?_
  rw [yielded_iff_of_over hReach hOver, hAll]
  exact (List.getElem?_eq_some_iff.mp hMessage).1

end Install

end Router

end Qanat

