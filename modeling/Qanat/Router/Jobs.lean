import Mathlib.Algebra.Ring.Nat
import Qanat.Library.Budgets
import Qanat.Library.Lists
import Qanat.Router.Settlement

/-
  Routes that settle the deliveries of their sources.

  A source yields deliveries under ids and is told under
  these ids what is to become of them.  Each delivery is the
  job of one route, which processes it or, if its partition
  key cannot be resolved, settles it as a failure.  Any
  number of jobs run at the same time, in any order: those of
  several routes, and those of a partitioned one.  Nobody but
  the jobs settles.

  Main declarations:
    * `Routes`, `Routes.work`, `Routes.Verdict`
    * `Jobs.Role`, `Jobs.Source`
    * `Jobs.State`, `Jobs.Step`, `Jobs.lts`
    * `Jobs.settled_once`
    * `Jobs.settled_by_its_job`
    * `Jobs.done_of_stuck`, `Jobs.settled_of_done`
-/

------------------------------------------------------------
-- The Work of a Job
------------------------------------------------------------

namespace Qanat

namespace Router

open Transition

/- The jobs, by the order in which they are started. -/
abbrev JobId := Nat

/-
  The route of each job, and the error of its resolver if the
  route is partitioned and the message has no key.
-/
structure Routes (Value : Type) where
  binding : JobId → RouteBinding Value
  unresolved : JobId → RouteMessage → Option RouteError

namespace Routes

variable {Value : Type}

/- What a job does with its message. -/
def work
    (routes : Routes Value) (j : JobId)
    (message : RouteMessage) : Logged RouteEffect Unit :=
  match routes.unresolved j message with
  | some error => (routes.binding j).fail message error none
  | none => processRouteMessage (routes.binding j) message

/-
  Something that the job calls unwinds: a component of its
  route or, if the message has no key, the error target.
-/
def Unwinds
    (routes : Routes Value) (j : JobId)
    (message : RouteMessage) : Prop :=
  match routes.unresolved j message with
  | some error =>
      (routes.binding j).FailureUnwinds message error none
  | none => (routes.binding j).Unwinds message

/-
  What is to become of a message: it is acknowledged if it
  was processed, and meets the failure decision otherwise.
-/
def Verdict
    (routes : Routes Value) (j : JobId)
    (message : RouteMessage) (decision : DeliveryDecision) :
    Prop :=
  (routes.unresolved j message = none ∧
      (routes.binding j).Succeeds message ∧
      decision = .ack) ∨
    (¬ (routes.unresolved j message = none ∧
        (routes.binding j).Succeeds message) ∧
      decision = (routes.binding j).failureDecision)

/- A settlement comes last, and once. -/
def EndsWith
    (effects : List RouteEffect) (message : RouteMessage)
    (decision : DeliveryDecision) : Prop :=
  ∃ before : List RouteEffect,
    effects = before ++ [.settled message decision] ∧
      before.filterMap RouteEffect.settled? = []

/- What a job settles, unless it unwinds. -/
theorem work_spec
    (routes : Routes Value) (j : JobId)
    (message : RouteMessage) :
    (routes.Unwinds j message ∧
        (routes.work j message).effects.filterMap
          RouteEffect.settled? = []) ∨
      (¬ routes.Unwinds j message ∧
        ∃ decision, routes.Verdict j message decision ∧
          EndsWith (routes.work j message).effects message
            decision) := by
  unfold work Unwinds Verdict
  cases hUnresolved : routes.unresolved j message with
  | some error =>
      dsimp only
      by_cases hUnwinds :
          (routes.binding j).FailureUnwinds message error none
      · exact Or.inl
          ⟨hUnwinds, (settled_of_failureUnwinds hUnwinds).2⟩
      refine Or.inr
        ⟨hUnwinds, _, Or.inr ⟨by simp, rfl⟩, ?_⟩
      rw [fail_of_returns hUnwinds]
      exact ⟨_, rfl, settled_of_failureDelivery _ _ _⟩
  | none =>
      dsimp only
      by_cases hUnwinds :
          (routes.binding j).Unwinds message
      · exact Or.inl ⟨hUnwinds, settled_of_unwinds hUnwinds⟩
      rcases processRouteMessage_of_returns hUnwinds with
        ⟨failure, _, hSuccess, hProcess⟩
      refine Or.inr
        ⟨hUnwinds, (routes.binding j).decision failure, ?_, ?_⟩
      · cases hCause : failure with
        | none =>
            exact Or.inl ⟨rfl, hSuccess.mp hCause, rfl⟩
        | some cause =>
            refine Or.inr ⟨?_, rfl⟩
            rintro ⟨_, hSucceeds⟩
            rw [hSuccess.mpr hSucceeds] at hCause
            cases hCause
      · rw [hProcess]
        refine ⟨_, rfl, ?_⟩
        rw [List.filterMap_append,
          ((routes.binding j).attempt_effects message).1,
          settled_of_failureDelivery]
        rfl

/- A job settles at most once. -/
theorem work_settles_le
    (routes : Routes Value) (j : JobId)
    (message : RouteMessage) :
    ((routes.work j message).effects.filterMap
      RouteEffect.settled?).length ≤ 1 := by
  rcases routes.work_spec j message with
    ⟨_, hNone⟩ | ⟨_, decision, _, before, hEq, hNone⟩
  · rw [hNone]
    exact Nat.zero_le _
  · rw [hEq, List.filterMap_append, hNone]
    exact Nat.le_refl _

end Routes

end Router

end Qanat

------------------------------------------------------------
-- Sources and Jobs
------------------------------------------------------------

namespace Qanat

namespace Router

namespace Jobs

open Transition

/- What an event of a source is to the routes. -/
inductive Role where
| inner
| yields (delivery : Nat) (message : RouteMessage)
| settles (delivery : Nat) (decision : DeliveryDecision)

def Role.yielded? : Role → Option Nat
| .yields delivery _ => some delivery
| _ => none

def Role.settled? : Role → Option Nat
| .settles delivery _ => some delivery
| _ => none

/- A source that yields no id twice. -/
structure Source (σ ε : Type) where
  system : Lts σ ε
  role : ε → Role
  yieldedOnce :
    ∀ trace s, system.Reachable trace s →
      (trace.filterMap
        (fun e => (role e).yielded?)).Nodup

/- `rest` are the effects the job has still to perform. -/
structure Job where
  delivery : Nat
  message : RouteMessage
  rest : List RouteEffect

structure State (σ : Type) where
  source : σ
  jobs : List Job

/-
  `started` is a delivery that the source yields, `settling`
  the settlement that a job performs.
-/
inductive Event (ε : Type) where
| source (event : ε)
| started (job : JobId) (event : ε)
| performed (job : JobId) (effect : RouteEffect)
| settling
    (job : JobId) (event : ε) (effect : RouteEffect)

variable {σ ε : Type}

/- The step of the source an event is. -/
def Event.source? : Event ε → Option ε
| .source event => some event
| .started _ event => some event
| .settling _ event _ => some event
| .performed _ _ => none

/- The effect of a job an event is. -/
def Event.effect? (j : JobId) :
    Event ε → Option RouteEffect
| .performed job effect =>
    if job = j then some effect else none
| .settling job _ effect =>
    if job = j then some effect else none
| _ => none

def sourceEvents (trace : List (Event ε)) : List ε :=
  trace.filterMap Event.source?

/- What a job has done so far. -/
def effects (j : JobId) (trace : List (Event ε)) :
    List RouteEffect :=
  trace.filterMap (Event.effect? j)

variable {Value : Type}

/- The steps of the source and of the jobs. -/
inductive Step
    (source : Source σ ε) (routes : Routes Value) :
    State σ → Event ε → State σ → Prop where
| source {s : State σ} {event : ε} {t : σ} :
    source.system.step s.source event t →
    source.role event = .inner →
    Step source routes s (.source event)
      { s with source := t }
| start
    {s : State σ} {event : ε} {delivery : Nat}
    {message : RouteMessage} {t : σ} :
    source.system.step s.source event t →
    source.role event = .yields delivery message →
    Step source routes s (.started s.jobs.length event)
      { source := t
        jobs := s.jobs ++
          [{ delivery := delivery
             message := message
             rest :=
              (routes.work s.jobs.length
                message).effects }] }
| perform
    {s : State σ} {j : JobId} {job : Job}
    {effect : RouteEffect} {rest : List RouteEffect} :
    s.jobs[j]? = some job →
    job.rest = effect :: rest →
    effect.settled? = none →
    Step source routes s (.performed j effect)
      { s with
        jobs := s.jobs.set j { job with rest := rest } }
-- `RouteSource::settle` with the id of the message
| settle
    {s : State σ} {j : JobId} {job : Job} {event : ε}
    {message : RouteMessage} {decision : DeliveryDecision}
    {rest : List RouteEffect} {t : σ} :
    s.jobs[j]? = some job →
    job.rest = .settled message decision :: rest →
    source.system.step s.source event t →
    source.role event = .settles job.delivery decision →
    Step source routes s
      (.settling j event (.settled message decision))
      { source := t
        jobs := s.jobs.set j { job with rest := rest } }

def lts (source : Source σ ε) (routes : Routes Value) :
    Lts (State σ) (Event ε) where
  initial s :=
    source.system.initial s.source ∧ s.jobs = []
  step := Step source routes

variable {source : Source σ ε} {routes : Routes Value}

/- A run of the jobs is a run of their source. -/
theorem source_reachable
    {trace : List (Event ε)} {s : State σ}
    (hReach : (lts source routes).Reachable trace s) :
    source.system.Reachable (sourceEvents trace)
      s.source := by
  apply hReach.component State.source Event.source?
  · rintro s ⟨hInitial, _⟩
    exact hInitial
  · intro s e s' hStep
    cases hStep with
    | source hMove => exact hMove
    | start hMove => exact hMove
    | perform => rfl
    | settle _ _ hMove => exact hMove

theorem mem_sourceEvents
    {trace : List (Event ε)} {e : Event ε} {event : ε}
    (hMem : e ∈ trace) (hSource : e.source? = some event) :
    event ∈ sourceEvents trace :=
  List.mem_filterMap.mpr ⟨e, hMem, hSource⟩

theorem effects_append
    (j : JobId) (trace : List (Event ε)) (e : Event ε) :
    effects j (trace ++ [e]) =
      effects j trace ++ (e.effect? j).toList := by
  unfold effects
  rw [List.filterMap_append, Lists.filterMap_singleton]

theorem sourceEvents_append
    (trace : List (Event ε)) (e : Event ε) :
    sourceEvents (trace ++ [e]) =
      sourceEvents trace ++ e.source?.toList := by
  unfold sourceEvents
  rw [List.filterMap_append, Lists.filterMap_singleton]

end Jobs

end Router

end Qanat

------------------------------------------------------------
-- What Is Known of the Jobs
------------------------------------------------------------

namespace Qanat

namespace Router

namespace Jobs

open Transition

variable {σ ε Value : Type}

/- The deliveries that the source has yielded, in order. -/
def yields
    (source : Source σ ε) (trace : List (Event ε)) :
    List Nat :=
  (sourceEvents trace).filterMap
    (fun event => (source.role event).yielded?)

/- The deliveries that the source was told about, in order. -/
def settles
    (source : Source σ ε) (trace : List (Event ε)) :
    List Nat :=
  (sourceEvents trace).filterMap
    (fun event => (source.role event).settled?)

variable {source : Source σ ε} {routes : Routes Value}
variable {trace : List (Event ε)} {s : State σ}

theorem yields_append (e : Event ε) :
    yields source (trace ++ [e]) =
      yields source trace ++
        (e.source?.bind (fun event =>
          (source.role event).yielded?)).toList := by
  unfold yields
  rw [sourceEvents_append, List.filterMap_append]
  cases hEvent : e.source? with
  | none => rfl
  | some event =>
      cases hRole : (source.role event).yielded? <;>
        simp [hRole]

theorem settles_append (e : Event ε) :
    settles source (trace ++ [e]) =
      settles source trace ++
        (e.source?.bind (fun event =>
          (source.role event).settled?)).toList := by
  unfold settles
  rw [sourceEvents_append, List.filterMap_append]
  cases hEvent : e.source? with
  | none => rfl
  | some event =>
      cases hRole : (source.role event).settled? <;>
        simp [hRole]

/-
  Where each job has come from, what it has done, and that
  the jobs are those of the deliveries that were yielded.
-/
structure Ledger
    (source : Source σ ε) (routes : Routes Value)
    (trace : List (Event ε)) (s : State σ) : Prop where
  started : ∀ (j : JobId) (job : Job),
    s.jobs[j]? = some job →
      ∃ event, Event.started j event ∈ trace ∧
        source.role event = .yields job.delivery job.message
  work : ∀ (j : JobId) (job : Job),
    s.jobs[j]? = some job →
      effects j trace ++ job.rest =
        (routes.work j job.message).effects
  idle : ∀ j, s.jobs.length ≤ j → effects j trace = []
  settling : ∀ j event effect,
    Event.settling j event effect ∈ trace →
      ∃ job message decision, s.jobs[j]? = some job ∧
        effect = .settled message decision ∧
        source.role event = .settles job.delivery decision
  deliveries :
    s.jobs.map Job.delivery = yields source trace

/- What is known of the jobs, while they are left alone. -/
theorem Ledger.alone
    (hLedger : Ledger source routes trace s)
    {event : ε} {t : σ}
    (hRole : source.role event = .inner) :
    Ledger source routes (trace ++ [.source event])
      { s with source := t } where
  started := by
    intro j job hJob
    rcases hLedger.started j job hJob with
      ⟨event', hStarted, hYields⟩
    exact ⟨event', List.mem_append_left _ hStarted, hYields⟩
  work := by
    intro j job hJob
    rw [effects_append]
    exact (List.append_nil (effects j trace)).symm ▸
      hLedger.work j job hJob
  idle := by
    intro j hJob
    rw [effects_append, hLedger.idle j hJob]
    rfl
  settling := by
    intro j event' effect hMem
    rcases List.mem_append.mp hMem with hOld | hNew
    · exact hLedger.settling _ _ _ hOld
    · cases List.mem_singleton.mp hNew
  deliveries := by
    have hNone :
        (Event.source event).source?.bind (fun event =>
          (source.role event).yielded?) = none := by
      change (source.role event).yielded? = none
      rw [hRole]
      rfl
    rw [yields_append, hNone]
    exact hLedger.deliveries.trans (List.append_nil _).symm

theorem Ledger.start
    (hLedger : Ledger source routes trace s)
    {event : ε} {t : σ} {delivery : Nat}
    {message : RouteMessage}
    (hRole :
      source.role event = .yields delivery message) :
    Ledger source routes
      (trace ++ [.started s.jobs.length event])
      { source := t
        jobs := s.jobs ++
          [{ delivery := delivery
             message := message
             rest :=
              (routes.work s.jobs.length
                message).effects }] } where
  started := by
    intro j job hJob
    rcases Lists.getElem?_append_singleton_eq_some.mp hJob
      with hOld | ⟨rfl, rfl⟩
    · rcases hLedger.started j job hOld with
        ⟨event', hStarted, hYields⟩
      exact ⟨event', List.mem_append_left _ hStarted,
        hYields⟩
    · exact ⟨event,
        List.mem_append_right _ List.mem_cons_self, hRole⟩
  work := by
    intro j job hJob
    rw [effects_append]
    rcases Lists.getElem?_append_singleton_eq_some.mp hJob
      with hOld | ⟨rfl, rfl⟩
    · exact (List.append_nil (effects j trace)).symm ▸
        hLedger.work j job hOld
    · rw [hLedger.idle _ (Nat.le_refl _)]
      rfl
  idle := by
    intro j hJob
    rw [List.length_append] at hJob
    rw [effects_append,
      hLedger.idle j (Nat.le_of_add_right_le hJob)]
    rfl
  settling := by
    intro j event' effect hMem
    rcases List.mem_append.mp hMem with hOld | hNew
    · rcases hLedger.settling _ _ _ hOld with
        ⟨job, message', decision, hJob, hSame⟩
      exact ⟨job, message', decision,
        Lists.getElem?_append_singleton_eq_some.mpr
          (Or.inl hJob), hSame⟩
    · cases List.mem_singleton.mp hNew
  deliveries := by
    have hSome :
        (Event.started s.jobs.length event).source?.bind
            (fun event => (source.role event).yielded?) =
          some delivery := by
      change (source.role event).yielded? = some delivery
      rw [hRole]
      rfl
    rw [yields_append, hSome, List.map_append,
      hLedger.deliveries]
    rfl

/- A job performs the next of its effects. -/
theorem Ledger.act
    (hLedger : Ledger source routes trace s)
    {j : JobId} {job : Job} {effect : RouteEffect}
    {rest : List RouteEffect} {e : Event ε} {t : σ}
    (hJob : s.jobs[j]? = some job)
    (hRest : job.rest = effect :: rest)
    (hEffect : e.effect? j = some effect)
    (hOthers : ∀ other, other ≠ j → e.effect? other = none)
    (hYields :
      e.source?.bind (fun event =>
        (source.role event).yielded?) = none)
    (hSettles : ∀ j' event effect',
      e = .settling j' event effect' →
        j' = j ∧
          ∃ message decision,
            effect' = .settled message decision ∧
            source.role event =
              .settles job.delivery decision) :
    Ledger source routes (trace ++ [e])
      { source := t
        jobs := s.jobs.set j { job with rest := rest } } where
  started := by
    intro j' job' hJob'
    have hBefore : ∃ before, s.jobs[j']? = some before ∧
        job'.delivery = before.delivery ∧
        job'.message = before.message := by
      rcases (Lists.getElem?_set_eq_some hJob).mp hJob' with
        ⟨rfl, rfl⟩ | ⟨_, hOld⟩
      · exact ⟨job, hJob, rfl, rfl⟩
      · exact ⟨job', hOld, rfl, rfl⟩
    rcases hBefore with ⟨before, hBefore, hDelivery, hMessage⟩
    rcases hLedger.started j' before hBefore with
      ⟨event, hStarted, hRole⟩
    rw [hDelivery, hMessage]
    exact ⟨event, List.mem_append_left _ hStarted, hRole⟩
  work := by
    intro j' job' hJob'
    rw [effects_append]
    rcases (Lists.getElem?_set_eq_some hJob).mp hJob' with
      ⟨rfl, rfl⟩ | ⟨hNe, hOld⟩
    · rw [hEffect, ← hLedger.work j job hJob, hRest]
      simp
    · rw [hOthers j' (Ne.symm hNe)]
      exact (List.append_nil (effects j' trace)).symm ▸
        hLedger.work j' job' hOld
  idle := by
    intro j' hLe
    rw [List.length_set] at hLe
    have hNe : j' ≠ j := by
      rintro rfl
      exact absurd (List.getElem?_eq_some_iff.mp hJob).1
        (Nat.not_lt.mpr hLe)
    rw [effects_append, hLedger.idle j' hLe, hOthers j' hNe]
    rfl
  settling := by
    intro j' event effect' hMem
    rcases List.mem_append.mp hMem with hOld | hNew
    · rcases hLedger.settling _ _ _ hOld with
        ⟨before, message, decision, hBefore, hSame⟩
      by_cases hEq : j = j'
      · subst hEq
        rw [hJob, Option.some.injEq] at hBefore
        subst hBefore
        exact ⟨_, message, decision,
          (Lists.getElem?_set_eq_some hJob).mpr
            (Or.inl ⟨rfl, rfl⟩), hSame⟩
      · exact ⟨before, message, decision,
          (Lists.getElem?_set_eq_some hJob).mpr
            (Or.inr ⟨hEq, hBefore⟩), hSame⟩
    · rcases hSettles _ _ _
          (List.mem_singleton.mp hNew).symm with
        ⟨rfl, message, decision, hSame⟩
      exact ⟨_, message, decision,
        (Lists.getElem?_set_eq_some hJob).mpr
          (Or.inl ⟨rfl, rfl⟩), hSame⟩
  deliveries := by
    have hSame :
        (s.jobs.set j { job with rest := rest }).map
            Job.delivery =
          s.jobs.map Job.delivery :=
      Lists.map_set_of_eq hJob rfl
    rw [yields_append, hYields]
    exact (hSame.trans hLedger.deliveries).trans
      (List.append_nil _).symm

theorem ledger_of_reachable
    (hReach : (lts source routes).Reachable trace s) :
    Ledger source routes trace s := by
  induction hReach with
  | initial hInitial =>
      rcases hInitial with ⟨_, hNone⟩
      refine ⟨?_, ?_, fun _ _ => rfl, nofun, ?_⟩
      · rw [hNone]
        exact nofun
      · rw [hNone]
        exact nofun
      · rw [hNone]
        rfl
  | step _ hStep ih =>
      cases hStep with
      | source _ hRole => exact ih.alone hRole
      | start _ hRole => exact ih.start hRole
      | perform hJob hRest =>
          exact ih.act hJob hRest (if_pos rfl)
            (fun _ hNe => if_neg (Ne.symm hNe)) rfl nofun
      | @settle _ _ event _ _ _ _ hJob hRest _ hRole =>
          refine ih.act hJob hRest (if_pos rfl)
            (fun _ hNe => if_neg (Ne.symm hNe)) ?_ ?_
          · change (source.role event).yielded? = none
            rw [hRole]
            rfl
          · rintro _ _ _ ⟨⟩
            exact ⟨rfl, _, _, rfl, hRole⟩

end Jobs

end Router

end Qanat

------------------------------------------------------------
-- One Settlement for Each Delivery
------------------------------------------------------------

namespace Qanat

namespace Router

namespace Jobs

open Transition

variable {σ ε Value : Type}
variable {source : Source σ ε} {routes : Routes Value}
variable {trace : List (Event ε)} {s : State σ}

theorem settled_of_settling
    {j : JobId} {event : ε} {effect : RouteEffect}
    (hMem : Event.settling j event effect ∈ trace) :
    effect ∈ effects j trace :=
  List.mem_filterMap.mpr ⟨_, hMem, if_pos rfl⟩

/- Before the settlement of a job there is no other. -/
theorem Ledger.first
    (hLedger : Ledger source routes trace s)
    {j : JobId} {job : Job} {message : RouteMessage}
    {decision : DeliveryDecision} {rest : List RouteEffect}
    (hJob : s.jobs[j]? = some job)
    (hRest : job.rest = .settled message decision :: rest)
    {event : ε} {effect : RouteEffect} :
    Event.settling j event effect ∉ trace := by
  intro hMem
  rcases hLedger.settling _ _ _ hMem with
    ⟨_, message', decision', _, rfl, _⟩
  have hOnce := routes.work_settles_le j job.message
  rw [← hLedger.work j job hJob, hRest,
    List.filterMap_append, List.length_append] at hOnce
  have hPast :
      0 < ((effects j trace).filterMap
        RouteEffect.settled?).length :=
    List.length_pos_of_mem (List.mem_filterMap.mpr
      ⟨_, settled_of_settling hMem, rfl⟩)
  simp only [List.filterMap_cons, RouteEffect.settled?,
    List.length_cons] at hOnce
  omega

/- Only jobs settle. -/
theorem settling_of_settles
    (hReach : (lts source routes).Reachable trace s)
    {event : ε} {delivery : Nat} {decision : DeliveryDecision}
    (hMem : event ∈ sourceEvents trace)
    (hRole : source.role event = .settles delivery decision) :
    ∃ j message,
      Event.settling j event (.settled message decision) ∈
        trace := by
  rcases List.mem_filterMap.mp hMem with ⟨e, hE, hEvent⟩
  rcases hReach.step_of_mem hE with ⟨_, _, r, r', _, _, hStep⟩
  cases hStep with
  | source _ hInner =>
      cases hEvent
      rw [hRole] at hInner
      cases hInner
  | start _ hYields =>
      cases hEvent
      rw [hRole] at hYields
      cases hYields
  | perform => cases hEvent
  | settle _ _ _ hSettles =>
      cases hEvent
      rw [hRole] at hSettles
      cases hSettles
      exact ⟨_, _, hE⟩

/- The jobs have no part in the other steps of the source. -/
theorem mem_of_inner
    (hReach : (lts source routes).Reachable trace s)
    {event : ε}
    (hMem : event ∈ sourceEvents trace)
    (hRole : source.role event = .inner) :
    Event.source event ∈ trace := by
  rcases List.mem_filterMap.mp hMem with ⟨e, hE, hEvent⟩
  rcases hReach.step_of_mem hE with ⟨_, _, r, r', _, _, hStep⟩
  cases hStep with
  | source =>
      cases hEvent
      exact hE
  | start _ hYields =>
      cases hEvent
      rw [hRole] at hYields
      cases hYields
  | perform => cases hEvent
  | settle _ _ _ hSettles =>
      cases hEvent
      rw [hRole] at hSettles
      cases hSettles

/- Jobs differ in their deliveries. -/
theorem job_of_delivery
    (hReach : (lts source routes).Reachable trace s)
    {j j' : JobId} {job job' : Job}
    (hJob : s.jobs[j]? = some job)
    (hJob' : s.jobs[j']? = some job')
    (hSame : job.delivery = job'.delivery) :
    j = j' := by
  have hOnce : (yields source trace).Nodup :=
    source.yieldedOnce _ _ (source_reachable hReach)
  rw [← (ledger_of_reachable hReach).deliveries] at hOnce
  exact Lists.eq_of_nodup_map hOnce hJob hJob' hSame

/- The source is told about a delivery once. -/
theorem settled_once
    (hReach : (lts source routes).Reachable trace s) :
    (settles source trace).Nodup := by
  induction hReach with
  | initial => exact List.nodup_nil
  | @step trace s s' e hReach hStep ih =>
      rw [settles_append]
      have hSame : ∀ {event : ε},
          e.source? = some event →
            (source.role event).settled? = none →
              (settles source trace ++
                (e.source?.bind (fun event =>
                  (source.role event).settled?)).toList
                ).Nodup := by
        intro event hEvent hNone
        rw [hEvent, Option.bind_some, hNone]
        exact (List.append_nil _).symm ▸ ih
      cases hStep with
      | source _ hRole =>
          exact hSame rfl (by rw [hRole]; rfl)
      | start _ hRole =>
          exact hSame rfl (by rw [hRole]; rfl)
      | perform => exact (List.append_nil _).symm ▸ ih
      | @settle j job event message decision _ t hJob hRest _
          hRole =>
          have hLedger := ledger_of_reachable hReach
          have hNew :
              (source.role event).settled? =
                some job.delivery := by
            rw [hRole]
            rfl
          change (settles source trace ++
            ((source.role event).settled?).toList).Nodup
          rw [hNew]
          refine List.nodup_append.mpr
            ⟨ih, List.nodup_singleton _, ?_⟩
          rintro delivery hOld _ hHere rfl
          cases List.mem_singleton.mp hHere
          -- an earlier settlement was by this very job
          rcases List.mem_filterMap.mp hOld with
            ⟨event', hEvent', hSettled⟩
          cases hRole' : source.role event' with
          | inner | yields =>
              rw [hRole'] at hSettled
              cases hSettled
          | settles delivery decision' =>
              rw [hRole'] at hSettled
              cases hSettled
              rcases settling_of_settles hReach hEvent' hRole'
                with ⟨j', message', hSettling⟩
              rcases hLedger.settling _ _ _ hSettling with
                ⟨job', _, _, hJob', _, hSettles⟩
              rw [hRole'] at hSettles
              have hDelivery :=
                (Role.settles.inj hSettles).1
              have hEq :=
                job_of_delivery hReach hJob hJob' hDelivery
              subst hEq
              exact hLedger.first hJob hRest hSettling

/- A job that has settled has done all of its work. -/
theorem done_of_settling
    (hReach : (lts source routes).Reachable trace s)
    {j : JobId} {job : Job} {event : ε}
    {message : RouteMessage} {decision : DeliveryDecision}
    (hJob : s.jobs[j]? = some job)
    (hSettling :
      Event.settling j event (.settled message decision) ∈
        trace) :
    ¬ routes.Unwinds j job.message ∧
      routes.Verdict j job.message decision ∧
      effects j trace =
        (routes.work j job.message).effects := by
  have hWork := (ledger_of_reachable hReach).work j job hJob
  have hSettled := settled_of_settling hSettling
  have hPast :
      (message, decision) ∈
        (routes.work j job.message).effects.filterMap
          RouteEffect.settled? := by
    rw [← hWork, List.filterMap_append]
    exact List.mem_append_left _
      (List.mem_filterMap.mpr ⟨_, hSettled, rfl⟩)
  rcases routes.work_spec j job.message with
    ⟨_, hNone⟩ |
    ⟨hReturns, decision', hVerdict, before, hEq, hNone⟩
  · rw [hNone] at hPast
    cases hPast
  rw [hEq, List.filterMap_append, hNone] at hPast
  cases List.mem_singleton.mp hPast
  refine ⟨hReturns, hVerdict, ?_⟩
  -- nothing can be left after the last effect
  rcases List.eq_nil_or_concat job.rest with
    hNil | ⟨front, last, hRest⟩
  · rw [hNil, List.append_nil] at hWork
    exact hWork
  · rw [hRest, List.concat_eq_append, hEq,
      ← List.append_assoc] at hWork
    have hFront := (List.append_inj' hWork rfl).1
    have hIn :
        (job.message, decision) ∈
          before.filterMap RouteEffect.settled? := by
      rw [← hFront, List.filterMap_append]
      exact List.mem_append_left _
        (List.mem_filterMap.mpr ⟨_, hSettled, rfl⟩)
    rw [hNone] at hIn
    cases hIn

/-
  Whatever the source is told about a delivery is the verdict
  on its message, and its job is done by then.
-/
theorem settled_by_its_job
    (hReach : (lts source routes).Reachable trace s)
    {event : ε} {delivery : Nat} {decision : DeliveryDecision}
    (hMem : event ∈ sourceEvents trace)
    (hRole : source.role event = .settles delivery decision) :
    ∃ j origin message,
      Event.started j origin ∈ trace ∧
        source.role origin = .yields delivery message ∧
        ¬ routes.Unwinds j message ∧
        routes.Verdict j message decision ∧
        effects j trace = (routes.work j message).effects := by
  have hLedger := ledger_of_reachable hReach
  rcases settling_of_settles hReach hMem hRole with
    ⟨j, message, hSettling⟩
  rcases hLedger.settling _ _ _ hSettling with
    ⟨job, _, _, hJob, _, hSettles⟩
  rw [hRole] at hSettles
  rcases hLedger.started j job hJob with
    ⟨origin, hStarted, hYields⟩
  cases hSettles
  exact ⟨j, origin, job.message, hStarted, hYields,
    done_of_settling hReach hJob hSettling⟩

/-
  The source hears about a delivery for the first time, and
  after it has yielded it.
-/
theorem told_first
    {before after : List ε}
    (hReach : (lts source routes).Reachable trace s)
    {told : ε} {delivery : Nat} {decision : DeliveryDecision}
    (hSplit : sourceEvents trace = before ++ told :: after)
    (hRole : source.role told = .settles delivery decision) :
    (∃ origin ∈ before, ∃ message,
      source.role origin = .yields delivery message) ∧
      delivery ∉ before.filterMap
        (fun event => (source.role event).settled?) := by
  constructor
  · rcases Lists.exists_split_of_filterMap hSplit with
      ⟨earlier, e, later, hTrace, hEvent, rfl⟩
    rcases hReach.before hTrace with
      ⟨r, r', hBefore, hStep⟩
    have hMem : e ∈ earlier ++ [e] :=
      List.mem_append_right _ List.mem_cons_self
    rcases settled_by_its_job (hBefore.step hStep)
        (mem_sourceEvents hMem hEvent) hRole with
      ⟨j, origin, message, hStarted, hYields, _⟩
    refine ⟨origin, ?_, message, hYields⟩
    rcases List.mem_append.mp hStarted with hOld | hNew
    · exact mem_sourceEvents hOld rfl
    · -- a settlement is not a yield
      cases List.mem_singleton.mp hNew
      cases hEvent
      rw [hRole] at hYields
      cases hYields
  · have hOnce : (settles source trace).Nodup :=
      settled_once hReach
    have hLater :
        delivery ∈ (told :: after).filterMap
          (fun event => (source.role event).settled?) := by
      refine List.mem_filterMap.mpr
        ⟨told, List.mem_cons_self, ?_⟩
      rw [hRole]
      rfl
    unfold settles at hOnce
    rw [hSplit, List.filterMap_append] at hOnce
    intro hEarlier
    exact (List.nodup_append.mp hOnce).2.2 _ hEarlier _
      hLater rfl

end Jobs

end Router

end Qanat

------------------------------------------------------------
-- Jobs That Are Done
------------------------------------------------------------

namespace Qanat

namespace Router

namespace Jobs

open Transition

variable {σ ε Value : Type}
variable {source : Source σ ε} {routes : Routes Value}
variable {trace : List (Event ε)} {s : State σ}

/- The job of a delivery stays. -/
theorem job_of_started
    (hReach : (lts source routes).Reachable trace s)
    {j : JobId} {event : ε} {delivery : Nat}
    {message : RouteMessage}
    (hStarted : Event.started j event ∈ trace)
    (hRole :
      source.role event = .yields delivery message) :
    ∃ job, s.jobs[j]? = some job ∧
      job.delivery = delivery ∧ job.message = message := by
  induction hReach with
  | initial => cases hStarted
  | @step trace s s' e hReach hStep ih =>
      rcases List.mem_append.mp hStarted with hOld | hNew
      · rcases ih hOld with ⟨job, hJob, hDelivery, hMessage⟩
        have hSet : ∀ {j' : JobId} {busy : Job}
            {rest : List RouteEffect},
            s.jobs[j']? = some busy →
              ∃ job', (s.jobs.set j'
                  { busy with rest := rest })[j]? =
                    some job' ∧
                job'.delivery = delivery ∧
                job'.message = message := by
          intro j' busy rest hBusy
          by_cases hEq : j' = j
          · subst hEq
            rw [hJob, Option.some.injEq] at hBusy
            subst hBusy
            exact ⟨_, (Lists.getElem?_set_eq_some hJob).mpr
              (Or.inl ⟨rfl, rfl⟩), hDelivery, hMessage⟩
          · exact ⟨job, (Lists.getElem?_set_eq_some hBusy).mpr
              (Or.inr ⟨hEq, hJob⟩), hDelivery, hMessage⟩
        cases hStep with
        | source => exact ⟨job, hJob, hDelivery, hMessage⟩
        | start =>
            exact ⟨job,
              Lists.getElem?_append_singleton_eq_some.mpr
                (Or.inl hJob), hDelivery, hMessage⟩
        | perform hBusy => exact hSet hBusy
        | settle hBusy => exact hSet hBusy
      · cases List.mem_singleton.mp hNew
        cases hStep with
        | start _ hYields =>
            rw [hRole] at hYields
            cases hYields
            exact ⟨_,
              Lists.getElem?_append_singleton_eq_some.mpr
                (Or.inr ⟨rfl, rfl⟩), rfl, rfl⟩

/- The source is told what a job settles. -/
theorem settling_of_settled
    (hReach : (lts source routes).Reachable trace s)
    {j : JobId} {message : RouteMessage}
    {decision : DeliveryDecision}
    (hSettled :
      RouteEffect.settled message decision ∈
        effects j trace) :
    ∃ event,
      Event.settling j event (.settled message decision) ∈
        trace := by
  rcases List.mem_filterMap.mp hSettled with
    ⟨e, hMem, hEffect⟩
  cases e with
  | source | started => cases hEffect
  | performed j' effect =>
      simp only [Event.effect?, Option.ite_none_right_eq_some,
        Option.some.injEq] at hEffect
      rcases hEffect with ⟨_, rfl⟩
      rcases hReach.step_of_mem hMem with
        ⟨_, _, r, r', _, _, hStep⟩
      cases hStep with
      | perform _ _ hOther => cases hOther
  | settling j' event effect =>
      simp only [Event.effect?, Option.ite_none_right_eq_some,
        Option.some.injEq] at hEffect
      rcases hEffect with ⟨rfl, rfl⟩
      exact ⟨event, hMem⟩

/-
  What has become of a delivery whose job is done: the source
  was told the verdict on its message, or, if the job has
  unwound, nothing at all.
-/
theorem settled_of_done
    (hReach : (lts source routes).Reachable trace s)
    (hDone : ∀ job ∈ s.jobs, job.rest = [])
    {j : JobId} {event : ε} {delivery : Nat}
    {message : RouteMessage}
    (hStarted : Event.started j event ∈ trace)
    (hRole :
      source.role event = .yields delivery message) :
    (routes.Unwinds j message ∧
        delivery ∉ settles source trace) ∨
      (¬ routes.Unwinds j message ∧
        ∃ told decision, told ∈ sourceEvents trace ∧
          source.role told = .settles delivery decision ∧
          routes.Verdict j message decision) := by
  have hLedger := ledger_of_reachable hReach
  rcases job_of_started hReach hStarted hRole with
    ⟨job, hJob, rfl, rfl⟩
  have hWork := hLedger.work j job hJob
  rw [hDone job (List.mem_of_getElem? hJob),
    List.append_nil] at hWork
  rcases routes.work_spec j job.message with
    ⟨hUnwinds, _⟩ |
    ⟨hReturns, decision, hVerdict, before, hEq, _⟩
  · refine Or.inl ⟨hUnwinds, ?_⟩
    intro hSettled
    rcases List.mem_filterMap.mp hSettled with
      ⟨told, hTold, hIs⟩
    cases hSettles : source.role told with
    | inner | yields =>
        rw [hSettles] at hIs
        cases hIs
    | settles delivery decision =>
        rw [hSettles] at hIs
        cases hIs
        rcases settling_of_settles hReach hTold hSettles with
          ⟨j', message', hSettling⟩
        rcases hLedger.settling _ _ _ hSettling with
          ⟨job', _, _, hJob', _, hTheirs⟩
        rw [hSettles] at hTheirs
        have hDelivery := (Role.settles.inj hTheirs).1
        have hOne :=
          job_of_delivery hReach hJob hJob' hDelivery
        subst hOne
        exact (done_of_settling hReach hJob hSettling).1
          hUnwinds
  · refine Or.inr ⟨hReturns, ?_⟩
    have hSettled :
        RouteEffect.settled job.message decision ∈
          effects j trace := by
      rw [hWork, hEq]
      simp
    rcases settling_of_settled hReach hSettled with
      ⟨told, hSettling⟩
    rcases hLedger.settling _ _ _ hSettling with
      ⟨job', _, _, hJob', hSame, hTold⟩
    rw [hJob, Option.some.injEq] at hJob'
    subst hJob'
    cases hSame
    exact ⟨told, decision, mem_sourceEvents hSettling rfl,
      hTold, hVerdict⟩

/- What an effect of a job takes from its work. -/
theorem workLeft_set
    (cost : Nat)
    {j : JobId} {job : Job} {effect : RouteEffect}
    {rest : List RouteEffect}
    (hJob : s.jobs[j]? = some job)
    (hRest : job.rest = effect :: rest) :
    ((s.jobs.set j { job with rest := rest }).map
        (fun job => cost * job.rest.length)).sum + cost =
      (s.jobs.map
        (fun job => cost * job.rest.length)).sum := by
  have hSum := Lists.sum_map_set
    (fun job : Job => cost * job.rest.length) hJob
    { job with rest := rest }
  simp only [hRest, List.length_cons, Nat.mul_add,
    Nat.mul_one] at hSum
  omega

/- Jobs that can go on do, if the source is ready for them. -/
theorem done_of_stuck
    {P : Event ε → Prop}
    (hPerforms : ∀ j effect, P (.performed j effect))
    (hReady : ∀ job ∈ s.jobs, ∀ decision, ∃ event t,
      source.system.step s.source event t ∧
        source.role event = .settles job.delivery decision ∧
        ∀ j effect, P (.settling j event effect))
    (hStuck : (lts source routes).Stuck P s) :
    ∀ job ∈ s.jobs, job.rest = [] := by
  intro job hJob
  rcases List.mem_iff_getElem?.mp hJob with ⟨j, hAt⟩
  cases hRest : job.rest with
  | nil => rfl
  | cons effect rest =>
      exfalso
      cases hSettled : effect.settled? with
      | none =>
          exact hStuck _ _ (Step.perform hAt hRest hSettled)
            (hPerforms _ _)
      | some settled =>
          cases effect with
          | settled message decision =>
              rcases hReady job hJob decision with
                ⟨event, t, hMove, hRole, hWork⟩
              exact hStuck _ _
                (Step.settle hAt hRest hMove hRole)
                (hWork _ _)
          | _ => cases hSettled

end Jobs

end Router

end Qanat
