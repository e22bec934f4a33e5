import Qanat.Router.Install.Ledger

/-
  The effects of a partitioned route on each of its messages:
  those of the job of the message, or those of the recovery
  from a failed resolution.

  Main declarations:
    * `Install.routeEffects`
    * `Install.submission_of_performed`
    * `Install.effects_of_completed`
    * `Install.effects_of_unresolved`
    * `Install.completed_of_ended`
-/

------------------------------------------------------------
-- Effects of Jobs
------------------------------------------------------------

namespace Qanat

namespace Router

namespace Install

open Transition Interleaving
open Partitioner (CallId Call queuedCalls domainEffects)

variable {Value : Type} {route : PartitionedRoute Value}
variable {config : Partitioner.Config}

/- An effect of the route, with the position of its message. -/
def routed? (effect : JobEffect) :
    Option (Nat × RouteEffect) :=
  effect.origin.map
    (fun position => (position, effect.effect))

def Event.effect? : Event → Option (Nat × RouteEffect)
| .domain (.performed _ _ effect) => routed? effect
| .recovered position effect => some (position, effect)
| _ => none

/- Everything the route has done to its messages, in order. -/
def routeEffects (trace : List Event) :
    List (Nat × RouteEffect) :=
  trace.filterMap Event.effect?

/- The submissions of a run have different positions. -/
theorem Ledger.submission_unique
    {trace : List Event} {s : State} {sub other : Submission}
    (hLedger : Ledger route trace s)
    (hSub : sub ∈ submissions trace)
    (hOther : other ∈ submissions trace)
    (hPosition : sub.position = other.position) :
    sub = other := by
  have hPositions :
      ((submissions trace).map Submission.position).Nodup := by
    have hEq :
        (submissions trace).map Submission.position =
          (route.assignments s.position).map Prod.fst := by
      rw [← hLedger.assigned, List.map_map]
      rfl
    rw [hEq]
    unfold PartitionedRoute.assignments
    rw [List.map_filterMap]
    refine List.Nodup.filterMap ?_ List.nodup_range
    intro i j k hLeft hRight
    simp only [Option.map_map, Option.mem_def,
      Option.map_eq_some_iff] at hLeft hRight
    rcases hLeft with ⟨_, _, rfl⟩
    rcases hRight with ⟨_, _, hEq⟩
    exact hEq.symm
  exact List.inj_on_of_nodup_map hPositions hSub hOther
    hPosition

/- A submission is one of a message with that key. -/
theorem Ledger.key_of_submission
    {trace : List Event} {s : State} {sub : Submission}
    (hLedger : Ledger route trace s)
    (hSub : sub ∈ submissions trace) :
    sub.position < s.position ∧
      route.key? sub.position = some sub.key := by
  rw [← PartitionedRoute.mem_assignments_iff,
    ← hLedger.assigned]
  exact List.mem_map.mpr ⟨sub, hSub, rfl⟩

/- A message with a key that was resolved was submitted. -/
theorem Ledger.submission_of_key
    {trace : List Event} {s : State} {position : Nat}
    {key : String}
    (hLedger : Ledger route trace s)
    (hBefore : position < s.position)
    (hKey : route.key? position = some key) :
    ∃ sub ∈ submissions trace,
      sub.position = position ∧ sub.key = key := by
  have hMem :
      (position, key) ∈
        (submissions trace).map Submission.assignment := by
    rw [hLedger.assigned]
    exact PartitionedRoute.mem_assignments_iff.mpr
      ⟨hBefore, hKey⟩
  rcases List.mem_map.mp hMem with ⟨sub, hSub, hEq⟩
  cases hEq
  exact ⟨sub, hSub, rfl, rfl⟩

/- The work of a call that carries a submission. -/
theorem State.Carries.work
    {s : State} {sub : Submission}
    (hCarries : s.Carries route sub) :
    ∃ message,
      route.messages[sub.position]? = some message ∧
        s.domain.work sub.call =
          (route.process sub.position message).effects.map
            (fun effect => ⟨some sub.position, effect⟩) := by
  rcases hCarries with
    ⟨call, message, hCall, hMessage, _, hTask, _⟩
  refine ⟨message, hMessage, ?_⟩
  simp [Partitioner.State.work, hCall, hTask,
    PartitionedRoute.job]

/-
  An effect performed in the domain belongs to a submission
  of the route exactly if it has a position.
-/
theorem submission_of_performed
    {trace : List Event} {s : State}
    (hReach : (lts route config).Reachable trace s)
    {key : String} {c : CallId} {effect : JobEffect}
    (hPerformed :
      Partitioner.Event.performed key c effect ∈
        domainEvents trace) :
    (∃ sub ∈ submissions trace,
        sub.key = key ∧ sub.call = c ∧
          effect.origin = some sub.position) ∨
      ((∀ sub ∈ submissions trace, sub.call ≠ c) ∧
        effect.origin = none) := by
  have hLedger := ledger_of_reachable hReach
  rcases Partitioner.call_of_effect
      (domain_reachable hReach) hPerformed with
    ⟨call, hCall, hKey, hWork⟩
  by_cases hOwn : ∃ sub ∈ submissions trace, sub.call = c
  · rcases hOwn with ⟨sub, hSub, hEq⟩
    rcases hLedger.carried sub hSub with
      ⟨call', message, hCall', _, hSubKey, hTask, _⟩
    have hSame : call' = call := by
      rw [hEq, hCall] at hCall'
      exact (Option.some.inj hCall').symm
    rw [← hSame, hTask] at hWork
    rcases List.mem_map.mp hWork with ⟨_, _, rfl⟩
    exact Or.inl
      ⟨sub, hSub, by rw [← hSubKey, hSame, hKey], hEq, rfl⟩
  · refine Or.inr ⟨fun sub hSub hEq => hOwn ⟨sub, hSub, hEq⟩,
      ?_⟩
    rcases hLedger.foreign _ call hCall with hSub | hOther
    · exact absurd hSub hOwn
    · exact hOther effect hWork

end Install

end Router

end Qanat

------------------------------------------------------------
-- Recovery
------------------------------------------------------------

namespace Qanat

namespace Router

namespace Install

open Transition Interleaving

variable {Value : Type} {route : PartitionedRoute Value}
variable {config : Partitioner.Config}

def Event.recovered? : Event → Option (Nat × RouteEffect)
| .recovered position effect => some (position, effect)
| _ => none

/- What was done to recover from a failed resolution. -/
def recoveredAt (position : Nat) (trace : List Event) :
    List RouteEffect :=
  ofTag position (trace.filterMap Event.recovered?)

/- What is still to be done. -/
def State.remaining (s : State) (position : Nat) :
    List RouteEffect :=
  match s.phase with
  | .recovering i rest _ => if i = position then rest else []
  | _ => []

/-
  The message whose failed resolution the route recovers
  from, or has died of, and whether this unwinds.
-/
def Phase.recovery? : Phase → Option (Nat × Bool)
| .recovering position _ panics => some (position, panics)
| .unwound position none => some (position, true)
| _ => none

/- The recovery from failed resolutions so far. -/
structure Recovery
    (route : PartitionedRoute Value)
    (trace : List Event) (s : State) : Prop where
  untouched :
    ∀ position,
      s.position ≤ position ∨
          (route.key? position).isSome →
        recoveredAt position trace = []
  failed :
    ∀ position message error, position < s.position →
      route.messages[position]? = some message →
      route.resolve position message = .error error →
        recoveredAt position trace ++ s.remaining position =
          (route.recovery position message error).effects
  recovering :
    ∀ position panics,
      s.phase.recovery? = some (position, panics) →
        position < s.position ∧
          ∃ message error,
            route.messages[position]? = some message ∧
              route.resolve position message =
                .error error ∧
              (route.recovery position message
                error).outcome.isNone = panics

/- A message that is recovered from has no key. -/
theorem key?_of_error
    {position : Nat} {message : RouteMessage}
    {error : RouteError}
    (hMessage : route.messages[position]? = some message)
    (hResolve :
      route.resolve position message = .error error) :
    route.key? position = none := by
  simp [PartitionedRoute.key?, hMessage, hResolve]

theorem recoveredAt_append
    {trace : List Event} {e : Event}
    (hOther : e.recovered? = none)
    (position : Nat) :
    recoveredAt position (trace ++ [e]) =
      recoveredAt position trace := by
  simp [recoveredAt, hOther]

theorem recoveredAt_recovered
    (trace : List Event) (position i : Nat)
    (effect : RouteEffect) :
    recoveredAt position
        (trace ++ [.recovered i effect]) =
      recoveredAt position trace ++
        if i = position then [effect] else [] := by
  unfold recoveredAt
  rw [List.filterMap_append, ofTag_append]
  by_cases hEq : i = position <;>
    simp [Event.recovered?, ofTag, hEq]

/- A step that recovers from nothing. -/
theorem Recovery.move
    {trace : List Event} {s s' : State} {e : Event}
    (hRecovery : Recovery route trace s)
    (hEvent : e.recovered? = none)
    (hRemaining :
      ∀ position, s'.remaining position = s.remaining position)
    (hPosition :
      s'.position = s.position ∨
        s'.position = s.position + 1 ∧
          (route.key? s.position).isSome)
    (hPhase :
      ∀ position panics,
        s'.phase.recovery? = some (position, panics) →
          s.phase.recovery? = some (position, panics)) :
    Recovery route (trace ++ [e]) s' := by
  have hGrows : s.position ≤ s'.position := by omega
  constructor
  case untouched =>
    intro position hFree
    rw [recoveredAt_append hEvent]
    apply hRecovery.untouched
    rcases hFree with hLater | hKey
    · exact Or.inl (Nat.le_trans hGrows hLater)
    · exact Or.inr hKey
  case failed =>
    intro position message error hBefore hMessage hResolve
    rw [recoveredAt_append hEvent, hRemaining]
    refine hRecovery.failed position message error ?_
      hMessage hResolve
    rcases hPosition with hSame | ⟨hNext, hKey⟩
    · omega
    · have hNe : position ≠ s.position := by
        rintro rfl
        rw [key?_of_error hMessage hResolve] at hKey
        cases hKey
      omega
  case recovering =>
    intro position panics hNow
    rcases hRecovery.recovering position panics
        (hPhase position panics hNow) with ⟨hBefore, hKey⟩
    exact ⟨by omega, hKey⟩

/- The step that comes to know that a resolution failed. -/
theorem Recovery.unresolve
    {trace : List Event} {s : State}
    {message : RouteMessage} {error : RouteError}
    (hRecovery : Recovery route trace s)
    (hPhase : s.phase = .resolving)
    (hMessage : route.messages[s.position]? = some message)
    (hResolve :
      route.resolve s.position message = .error error) :
    Recovery route
      (trace ++ [.unresolved s.position error])
      { s with
        position := s.position + 1
        phase := .recovering s.position
          (route.recovery s.position message error).effects
          (route.recovery s.position message
            error).outcome.isNone } where
  untouched := by
    intro position hFree
    rw [recoveredAt_append rfl]
    apply hRecovery.untouched
    rcases hFree with hLater | hKey
    · exact Or.inl (Nat.le_of_succ_le hLater)
    · exact Or.inr hKey
  failed := by
    intro position message' error' hBefore hMessage' hResolve'
    rw [recoveredAt_append rfl]
    by_cases hEq : position = s.position
    · subst hEq
      rw [hMessage] at hMessage'
      cases hMessage'
      rw [hResolve] at hResolve'
      cases hResolve'
      rw [hRecovery.untouched _ (Or.inl (Nat.le_refl _))]
      simp [State.remaining]
    · have hOld := hRecovery.failed position message' error'
        (by change position < s.position + 1 at hBefore; omega)
        hMessage' hResolve'
      simpa [State.remaining, hPhase, Ne.symm hEq] using hOld
  recovering := by
    intro position panics hNow
    cases hNow
    exact ⟨Nat.lt_succ_self _, message, error, hMessage,
      hResolve, rfl⟩

/- The step that performs one effect of a recovery. -/
theorem Recovery.recover
    {trace : List Event} {s : State} {i : Nat}
    {effect : RouteEffect} {rest : List RouteEffect}
    {panics : Bool}
    (hRecovery : Recovery route trace s)
    (hPhase :
      s.phase = .recovering i (effect :: rest) panics) :
    Recovery route (trace ++ [.recovered i effect])
      { s with phase := .recovering i rest panics } where
  untouched := by
    intro position hFree
    rcases hRecovery.recovering i panics
        (by simp [hPhase, Phase.recovery?]) with
      ⟨hBefore, message, error, hMessage, hResolve, _⟩
    have hNe : i ≠ position := by
      rintro rfl
      rcases hFree with hLater | hSome
      · exact absurd hBefore (Nat.not_lt.mpr hLater)
      · rw [key?_of_error hMessage hResolve] at hSome
        cases hSome
    rw [recoveredAt_recovered, if_neg hNe, List.append_nil]
    exact hRecovery.untouched position hFree
  failed := by
    intro position message error hBefore hMessage hResolve
    rw [recoveredAt_recovered]
    have hOld := hRecovery.failed position message error
      hBefore hMessage hResolve
    by_cases hEq : i = position
    · simpa [State.remaining, hPhase, hEq] using hOld
    · simpa [State.remaining, hPhase, hEq] using hOld
  recovering := by
    intro position panics' hNow
    cases hNow
    exact hRecovery.recovering i panics
      (by simp [hPhase, Phase.recovery?])

/- The recovery of every run. -/
theorem recovery_of_reachable
    {trace : List Event} {s : State}
    (hReach : (lts route config).Reachable trace s) :
    Recovery route trace s := by
  induction hReach with
  | @initial s hStart =>
      have hEq : s = State.start := hStart
      subst hEq
      constructor <;>
        simp [State.start, Phase.recovery?, recoveredAt,
          ofTag]
  | @step trace s s' e hReach hStep ih =>
      cases hStep with
      | domain hMove hAdmits =>
          exact ih.move rfl (fun _ => rfl) (Or.inl rfl)
            (fun _ _ hNow => hNow)
      | submit hPhase hMessage hResolve hCall =>
          refine ih.move rfl ?_ (Or.inr ⟨rfl, ?_⟩) ?_
          · simp [State.remaining, hPhase]
          · simp [PartitionedRoute.key?, hMessage, hResolve]
          · simp [Phase.recovery?]
      | endSource hPhase hOpen hLast =>
          exact ih.move rfl (fun _ => rfl) (Or.inl rfl)
            (fun _ _ hNow => hNow)
      | unresolve hPhase hMessage hResolve =>
          exact ih.unresolve hPhase hMessage hResolve
      | recover hPhase => exact ih.recover hPhase
      | «yield» hPhase | «continue» hPhase
      | unwindRecovery hPhase | push hPhase
      | unwindSubmission hPhase | «end» hPhase =>
          refine ih.move rfl ?_ (Or.inl rfl) ?_
          · simp [State.remaining, hPhase]
          · simp [Phase.recovery?, hPhase]
      | see hPhase hPends hReleased =>
          exact ih.move rfl (fun _ => rfl) (Or.inl rfl)
            (fun _ _ hNow => hNow)

end Install

end Router

end Qanat

------------------------------------------------------------
-- Effects on One Message
------------------------------------------------------------

namespace Qanat

namespace Router

namespace Install

open Transition Interleaving
open Partitioner (CallId domainEffects)

variable {Value : Type} {route : PartitionedRoute Value}
variable {config : Partitioner.Config}

theorem Ledger.submission_unique_call
    {trace : List Event} {s : State} {sub other : Submission}
    (hLedger : Ledger route trace s)
    (hSub : sub ∈ submissions trace)
    (hOther : other ∈ submissions trace)
    (hCall : sub.call = other.call) :
    sub = other :=
  List.inj_on_of_nodup_map hLedger.once hSub hOther hCall

/- Only messages without a key are recovered from. -/
theorem key?_of_recovered
    {trace : List Event} {s : State} {position : Nat}
    {effect : RouteEffect}
    (hRecovery : Recovery route trace s)
    (hMem : Event.recovered position effect ∈ trace) :
    position < s.position ∧ route.key? position = none := by
  have hThere : effect ∈ recoveredAt position trace := by
    unfold recoveredAt
    rw [mem_ofTag_iff]
    exact List.mem_filterMap.mpr ⟨_, hMem, rfl⟩
  constructor
  · by_contra hLater
    rw [hRecovery.untouched position
      (Or.inl (Nat.not_lt.mp hLater))] at hThere
    cases hThere
  · by_contra hKey
    rw [hRecovery.untouched position
      (Or.inr (Option.isSome_iff_ne_none.mpr hKey))] at hThere
    cases hThere

/- Effects are on messages that were taken. -/
theorem position_of_routeEffect
    {trace : List Event} {s : State}
    (hReach : (lts route config).Reachable trace s)
    {position : Nat} {effect : RouteEffect}
    (hMem : (position, effect) ∈ routeEffects trace) :
    position < s.position := by
  have hLedger := ledger_of_reachable hReach
  rcases List.mem_filterMap.mp hMem with ⟨e, hEvent, hEffect⟩
  cases e with
  | domain event =>
      cases event with
      | performed key c other =>
          have hPerformed :
              Partitioner.Event.performed key c other ∈
                domainEvents trace :=
            List.mem_filterMap.mpr ⟨_, hEvent, rfl⟩
          rcases submission_of_performed hReach hPerformed with
            ⟨sub, hSub, _, _, hOrigin⟩ | ⟨_, hOrigin⟩
          · have hSame : sub.position = position := by
              simp only [Event.effect?, routed?, hOrigin,
                Option.map_some, Option.some.injEq,
                Prod.mk.injEq] at hEffect
              exact hEffect.1
            rw [← hSame]
            exact (hLedger.key_of_submission hSub).1
          · simp [Event.effect?, routed?, hOrigin] at hEffect
      | _ => cases hEffect
  | recovered i other =>
      cases hEffect
      exact (key?_of_recovered
        (recovery_of_reachable hReach) hEvent).1
  | _ => cases hEffect

/- The effects on the messages of a key are those of its jobs. -/
theorem routeEffects_filter
    {trace : List Event} {s : State}
    (hReach : (lts route config).Reachable trace s)
    (key : String) :
    (routeEffects trace).filter
        (fun e => route.key? e.1 = some key) =
      (domainEffects key (domainEvents trace)).filterMap
        (fun e => routed? e.2) := by
  have hLedger := ledger_of_reachable hReach
  have hRecovery := recovery_of_reachable hReach
  unfold routeEffects domainEvents
  rw [Partitioner.domainEffects_eq, List.filter_filterMap,
    List.filterMap_filterMap, List.filterMap_filterMap]
  apply List.filterMap_congr
  intro e hMem
  cases e with
  | domain event =>
      cases event with
      | performed k c effect =>
          have hPerformed :
              Partitioner.Event.performed k c effect ∈
                domainEvents trace :=
            List.mem_filterMap.mpr ⟨_, hMem, rfl⟩
          rcases submission_of_performed hReach hPerformed with
            ⟨sub, hSub, rfl, rfl, hOrigin⟩ | ⟨_, hOrigin⟩
          · have hKey := (hLedger.key_of_submission hSub).2
            by_cases hSame : sub.key = key <;>
              simp [Event.effect?, Event.domain?, routed?,
                Partitioner.Event.performedUnder?, hOrigin,
                hKey, hSame]
          · by_cases hSame : k = key <;>
              simp [Event.effect?, Event.domain?, routed?,
                Partitioner.Event.performedUnder?, hOrigin,
                hSame]
      | _ => rfl
  | recovered position effect =>
      have hNone := (key?_of_recovered hRecovery hMem).2
      simp [Event.effect?, Event.domain?, hNone]
  | _ => rfl

/- The effects on a submitted message are those of its call. -/
theorem ofTag_routeEffects
    {trace : List Event} {s : State}
    (hReach : (lts route config).Reachable trace s)
    {sub : Submission}
    (hSub : sub ∈ submissions trace) :
    ofTag sub.position (routeEffects trace) =
      (ofTag sub.call
        (domainEffects sub.key (domainEvents trace))).map
          JobEffect.effect := by
  have hLedger := ledger_of_reachable hReach
  have hKey := (hLedger.key_of_submission hSub).2
  rw [← ofTag_filter
      (p := fun i => decide (route.key? i = some sub.key))
      (by simp [hKey]),
    routeEffects_filter hReach]
  unfold ofTag
  rw [List.filterMap_filterMap, List.map_filterMap]
  apply List.filterMap_congr
  rintro ⟨c, effect⟩ hMem
  rcases submission_of_performed hReach
      (Partitioner.mem_domainEffects_iff.mp hMem) with
    ⟨other, hOther, _, rfl, hOrigin⟩ | ⟨hForeign, hOrigin⟩
  · by_cases hEq : other = sub
    · simp [routed?, hOrigin, hEq]
    · have hPosition : other.position ≠ sub.position :=
        fun hSame => hEq
          (hLedger.submission_unique hOther hSub hSame)
      have hCall : other.call ≠ sub.call :=
        fun hSame => hEq
          (hLedger.submission_unique_call hOther hSub hSame)
      simp [routed?, hOrigin, hPosition, hCall]
  · have hCall : c ≠ sub.call :=
      fun hSame => hForeign sub hSub hSame.symm
    simp [routed?, hOrigin, hCall]

/-
  When the job of a message has completed, the effects on the
  message are those of processing it.
-/
theorem effects_of_completed
    {trace : List Event} {s : State}
    (hReach : (lts route config).Reachable trace s)
    {sub : Submission} {message : RouteMessage}
    (hSub : sub ∈ submissions trace)
    (hMessage :
      route.messages[sub.position]? = some message)
    (hCompleted :
      Partitioner.Event.completed sub.key sub.call ∈
        domainEvents trace) :
    ofTag sub.position (routeEffects trace) =
      (route.process sub.position message).effects := by
  have hDomain := domain_reachable hReach
  have hLedger := ledger_of_reachable hReach
  rcases (hLedger.carried sub hSub).work with
    ⟨message', hMessage', hWork⟩
  rw [hMessage] at hMessage'
  cases hMessage'
  rw [ofTag_routeEffects hReach hSub,
    Partitioner.domainEffects_of_completed hDomain hCompleted,
    hWork, List.map_map]
  simp [Function.comp_def]

/- The effects on a message that has no key. -/
theorem effects_of_unresolved
    {trace : List Event} {s : State}
    (hReach : (lts route config).Reachable trace s)
    {position : Nat} {message : RouteMessage}
    {error : RouteError}
    (hBefore : position < s.position)
    (hMessage : route.messages[position]? = some message)
    (hResolve :
      route.resolve position message = .error error)
    (hDone : s.remaining position = []) :
    ofTag position (routeEffects trace) =
      (route.recovery position message error).effects := by
  have hLedger := ledger_of_reachable hReach
  have hFailed := (recovery_of_reachable hReach).failed
    position message error hBefore hMessage hResolve
  have hNone := key?_of_error hMessage hResolve
  rw [hDone, List.append_nil] at hFailed
  rw [← hFailed]
  unfold recoveredAt ofTag routeEffects
  rw [List.filterMap_filterMap, List.filterMap_filterMap]
  apply List.filterMap_congr
  intro e hMem
  cases e with
  | domain event =>
      cases event with
      | performed k c effect =>
          have hPerformed :
              Partitioner.Event.performed k c effect ∈
                domainEvents trace :=
            List.mem_filterMap.mpr ⟨_, hMem, rfl⟩
          rcases submission_of_performed hReach hPerformed with
            ⟨sub, hSub, rfl, rfl, hOrigin⟩ | ⟨_, hOrigin⟩
          · have hNe : sub.position ≠ position := by
              rintro rfl
              rw [(hLedger.key_of_submission hSub).2]
                at hNone
              cases hNone
            simp [Event.effect?, Event.recovered?, routed?,
              hOrigin, hNe]
          · simp [Event.effect?, Event.recovered?, routed?,
              hOrigin]
      | _ => rfl
  | _ => rfl

/- A route that has ended has nothing left to wait for. -/
theorem closed_of_ended
    {trace : List Event} {s : State}
    (hReach : (lts route config).Reachable trace s) :
    (s.sourceOpen = false → Event.sourceEnded ∈ trace) ∧
      (s.phase = .ended →
        s.sourceOpen = false ∧ s.pending = []) := by
  induction hReach with
  | @initial s hStart =>
      have hEq : s = State.start := hStart
      subst hEq
      simp [State.start]
  | @step trace s s' e hReach hStep ih =>
      rcases ih with ⟨hSource, hEnd⟩
      have hKept :
          s.sourceOpen = false →
            Event.sourceEnded ∈ trace ++ [e] :=
        fun hClosed => List.mem_append_left _ (hSource hClosed)
      cases hStep with
      | domain hMove hAdmits => exact ⟨hKept, hEnd⟩
      | endSource hPhase hOpen hLast =>
          refine ⟨fun _ => by simp, ?_⟩
          simp [hPhase]
      | see hPhase hPends hReleased =>
          refine ⟨hKept, ?_⟩
          simp [hPhase]
      | «end» hPhase hClosed hNone =>
          exact ⟨hKept, fun _ => ⟨hClosed, hNone⟩⟩
      | _ => exact ⟨hKept, fun hPhase => by cases hPhase⟩

/-
  When a route has ended, its source has yielded every
  message and every job it submitted has completed.
-/
theorem completed_of_ended
    {trace : List Event} {s : State}
    (hReach : (lts route config).Reachable trace s)
    (hEnded : s.phase = .ended) :
    Event.sourceEnded ∈ trace ∧
      s.position = route.messages.length ∧
      ∀ sub ∈ submissions trace,
        Partitioner.Event.completed sub.key sub.call ∈
          domainEvents trace := by
  have hLedger := ledger_of_reachable hReach
  rcases closed_of_ended hReach with ⟨hSource, hEnd⟩
  rcases hEnd hEnded with ⟨hClosed, hNone⟩
  refine ⟨hSource hClosed, hLedger.source_ended hClosed, ?_⟩
  intro sub hSub
  rcases hLedger.awaited sub hSub with hNow | hPends | hDone
  · simp [hEnded, Phase.submission?] at hNow
  · rw [hNone] at hPends
    cases hPends
  · exact hDone

end Install

end Router

end Qanat
