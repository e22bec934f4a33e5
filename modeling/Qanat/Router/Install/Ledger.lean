import Qanat.Router.Install.Model
import Qanat.Router.Partitioner.Effects

/-
  What a run of a partitioned route records about the jobs it
  has submitted.

  Main declarations:
    * `Install.submissions`, `Install.domainEvents`
    * `Install.domain_reachable`
    * `Install.Ledger`, `Install.ledger_of_reachable`
-/

------------------------------------------------------------
-- Assignments
------------------------------------------------------------

namespace Qanat

namespace Router

namespace PartitionedRoute

variable {Value : Type}

/- The key of the message at a position, if it has one. -/
def key?
    (route : PartitionedRoute Value) (position : Nat) :
    Option String :=
  match route.messages[position]? with
  | none => none
  | some message =>
      match route.resolve position message with
      | .ok key => some key
      | .error _ => none

/- The first `n` messages that have keys, with their keys. -/
def assignments
    (route : PartitionedRoute Value) (n : Nat) :
    List (Nat × String) :=
  (List.range n).filterMap
    (fun position =>
      (route.key? position).map
        (fun key => (position, key)))

theorem key?_eq_some_iff
    {route : PartitionedRoute Value} {position : Nat}
    {key : String} :
    route.key? position = some key ↔
      ∃ message, route.messages[position]? = some message ∧
        route.resolve position message = .ok key := by
  unfold key?
  cases hMessage : route.messages[position]? with
  | none => simp
  | some message =>
      cases hResolve : route.resolve position message <;>
        simp [hResolve]

theorem mem_assignments_iff
    {route : PartitionedRoute Value} {n position : Nat}
    {key : String} :
    (position, key) ∈ route.assignments n ↔
      position < n ∧ route.key? position = some key := by
  unfold assignments
  rw [List.mem_filterMap]
  constructor
  · rintro ⟨i, hRange, hMap⟩
    rcases Option.map_eq_some_iff.mp hMap with
      ⟨k, hKey, hPair⟩
    cases hPair
    exact ⟨List.mem_range.mp hRange, hKey⟩
  · rintro ⟨hRange, hKey⟩
    exact ⟨position, List.mem_range.mpr hRange, by
      rw [hKey]
      rfl⟩

theorem assignments_succ
    (route : PartitionedRoute Value) (n : Nat) :
    route.assignments (n + 1) =
      route.assignments n ++
        ((route.key? n).map (fun key => (n, key))).toList := by
  unfold assignments
  rw [List.range_succ, List.filterMap_append,
    Lists.filterMap_singleton]

end PartitionedRoute

end Router

end Qanat

------------------------------------------------------------
-- Submissions
------------------------------------------------------------

namespace Qanat

namespace Router

namespace Install

open Transition
open Partitioner (CallId queuedCalls)

variable {Value : Type} {route : PartitionedRoute Value}
variable {config : Partitioner.Config}

/- A job the route has submitted. -/
structure Submission where
  position : Nat
  key : String
  call : CallId

def Submission.assignment (sub : Submission) :
    Nat × String :=
  (sub.position, sub.key)

def Event.submission? : Event → Option Submission
| .submitting position key call _ =>
    some ⟨position, key, call⟩
| _ => none

def submissions (trace : List Event) : List Submission :=
  trace.filterMap Event.submission?

/- The calls the route has made for a key. -/
def callsOf (key : String) (trace : List Event) :
    List CallId :=
  ((submissions trace).filter
    (fun sub => sub.key = key)).map Submission.call

/- The step of the domain an event is. -/
def Event.domain? :
    Event → Option (Partitioner.Event JobEffect)
| .domain event => some event
| .submitting _ key call task => some (.called key call task)
| _ => none

def domainEvents (trace : List Event) :
    List (Partitioner.Event JobEffect) :=
  trace.filterMap Event.domain?

/- A run of a route is a run of its domain. -/
theorem domain_reachable
    {trace : List Event} {s : State}
    (hReach : (lts route config).Reachable trace s) :
    (Partitioner.lts JobEffect config).Reachable
      (domainEvents trace) s.domain := by
  apply hReach.component State.domain Event.domain?
  · rintro s rfl
    rfl
  · intro s e s' hStep
    cases hStep with
    | domain hDomain _ => exact hDomain
    | submit _ _ _ hCall => exact hCall
    | _ => rfl

theorem mem_callsOf_iff
    {key : String} {trace : List Event} {c : CallId} :
    c ∈ callsOf key trace ↔
      ∃ sub ∈ submissions trace,
        sub.key = key ∧ sub.call = c := by
  simp [callsOf, and_assoc]

theorem submissions_append
    {trace : List Event} {e : Event}
    (hOther : e.submission? = none) :
    submissions (trace ++ [e]) = submissions trace := by
  simp [submissions, hOther]

theorem callsOf_append
    {trace : List Event} {e : Event}
    (hOther : e.submission? = none)
    (key : String) :
    callsOf key (trace ++ [e]) = callsOf key trace := by
  unfold callsOf
  rw [submissions_append hOther]

theorem domainEvents_append
    {trace : List Event} {e : Event}
    (hOther : e.domain? = none) :
    domainEvents (trace ++ [e]) = domainEvents trace := by
  simp [domainEvents, hOther]

theorem domainEvents_append_some
    {trace : List Event} {e : Event}
    {event : Partitioner.Event JobEffect}
    (hEvent : e.domain? = some event) :
    domainEvents (trace ++ [e]) =
      domainEvents trace ++ [event] := by
  simp [domainEvents, hEvent]

theorem mem_domainEvents_append
    {trace : List Event} {event : Partitioner.Event JobEffect}
    (hMem : event ∈ domainEvents trace)
    (e : Event) :
    event ∈ domainEvents (trace ++ [e]) := by
  unfold domainEvents at hMem ⊢
  rw [List.filterMap_append]
  exact List.mem_append_left _ hMem

end Install

end Router

end Qanat

------------------------------------------------------------
-- The Ledger
------------------------------------------------------------

namespace Qanat

namespace Router

namespace Install

open Transition
open Partitioner (CallId Call queuedCalls)

variable {Value : Type} {route : PartitionedRoute Value}
variable {config : Partitioner.Config}

/-
  The call of a submission is one for the job of its message;
  it has returned unless the route is still in it, or died of
  it.
-/
def State.Carries
    (route : PartitionedRoute Value) (s : State)
    (sub : Submission) : Prop :=
  ∃ call message,
    s.domain.calls[sub.call]? = some call ∧
      route.messages[sub.position]? = some message ∧
      call.key = sub.key ∧
      call.task = route.job sub.position message ∧
      (call.phase = .returned ∨
        s.phase.submission? =
            some (sub.position, sub.call) ∧
          call.phase ≠ .cancelled)

/- What the trace of a run records about its last state. -/
structure Ledger
    (route : PartitionedRoute Value)
    (trace : List Event) (s : State) : Prop where
  position_le : s.position ≤ route.messages.length
  source_ended :
    s.sourceOpen = false →
      s.position = route.messages.length
  assigned :
    (submissions trace).map Submission.assignment =
      route.assignments s.position
  carried :
    ∀ sub ∈ submissions trace, s.Carries route sub
  foreign :
    ∀ (c : CallId) (call : Call JobEffect),
      s.domain.calls[c]? = some call →
        (∃ sub ∈ submissions trace, sub.call = c) ∨
          ∀ effect ∈ call.task.effects,
            effect.origin = none
  awaited :
    ∀ sub ∈ submissions trace,
      s.phase.submission? = some (sub.position, sub.call) ∨
        sub.call ∈ s.pending ∨
        Partitioner.Event.completed sub.key sub.call ∈
          domainEvents trace
  current :
    ∀ position c, s.phase.submission? = some (position, c) →
      ∃ front key,
        submissions trace = front ++ [⟨position, key, c⟩]
  once : ((submissions trace).map Submission.call).Nodup
  agree :
    ∀ key,
      Agree (queuedCalls key (domainEvents trace))
        (callsOf key trace)

/- Before its first step a route has submitted nothing. -/
theorem Ledger.start :
    Ledger route [] State.start := by
  constructor <;>
    simp [State.start, Phase.submission?, submissions,
      callsOf, PartitionedRoute.assignments,
      Partitioner.State.start, domainEvents, queuedCalls,
      Partitioner.domainTrace, FifoServer.enqueued, Agree]

/-
  A step of the route itself, other than the one that makes a
  call.  A call it leaves has returned and is awaited.
-/
theorem Ledger.move
    {trace : List Event} {s s' : State} {e : Event}
    (hLedger : Ledger route trace s)
    (hSubmission : e.submission? = none)
    (hEvent : e.domain? = none)
    (hDomain : s'.domain = s.domain)
    (hSubmitting :
      s'.phase.submission? = s.phase.submission? ∨
        s'.phase.submission? = none ∧
          ∀ position c,
            s.phase.submission? = some (position, c) →
              c ∈ s'.pending ∧
                ∀ call, s.domain.calls[c]? = some call →
                  call.phase = .returned)
    (hPosition :
      s'.position ≤ route.messages.length ∧
        (s'.sourceOpen = false →
          s'.position = route.messages.length) ∧
        route.assignments s'.position =
          route.assignments s.position)
    (hPending :
      ∀ sub ∈ submissions trace, sub.call ∈ s.pending →
        sub.call ∈ s'.pending ∨
          Partitioner.Event.completed sub.key sub.call ∈
            domainEvents trace) :
    Ledger route (trace ++ [e]) s' where
  position_le := hPosition.1
  source_ended := hPosition.2.1
  assigned := by
    rw [submissions_append hSubmission, hPosition.2.2]
    exact hLedger.assigned
  carried := by
    intro sub hSub
    rw [submissions_append hSubmission] at hSub
    rcases hLedger.carried sub hSub with
      ⟨call, message, hCall, hMessage, hKey, hTask, hPhase⟩
    refine ⟨call, message, ?_, hMessage, hKey, hTask, ?_⟩
    · rw [hDomain, hCall]
    · rcases hPhase with hReturned | ⟨hNow, hKept⟩
      · exact Or.inl hReturned
      · rcases hSubmitting with hSame | ⟨_, hBefore⟩
        · exact Or.inr ⟨hSame.trans hNow, hKept⟩
        · exact Or.inl ((hBefore _ _ hNow).2 call hCall)
  foreign := by
    rw [submissions_append hSubmission, hDomain]
    exact hLedger.foreign
  awaited := by
    intro sub hSub
    rw [submissions_append hSubmission] at hSub
    rw [domainEvents_append hEvent]
    rcases hLedger.awaited sub hSub with
      hNow | hPends | hDone
    · rcases hSubmitting with hSame | ⟨_, hBefore⟩
      · exact Or.inl (hSame.trans hNow)
      · exact Or.inr (Or.inl (hBefore _ _ hNow).1)
    · exact Or.inr (hPending sub hSub hPends)
    · exact Or.inr (Or.inr hDone)
  current := by
    intro position c hPhase
    rw [submissions_append hSubmission]
    rcases hSubmitting with hSame | ⟨hNone, _⟩
    · exact hLedger.current position c (hSame ▸ hPhase)
    · rw [hNone] at hPhase
      cases hPhase
  once := by
    rw [submissions_append hSubmission]
    exact hLedger.once
  agree := by
    intro key
    rw [callsOf_append hSubmission,
      domainEvents_append hEvent]
    exact hLedger.agree key

/- The call of a submission across a step of the domain. -/
theorem State.Carries.step
    {events : List (Partitioner.Event JobEffect)}
    {s : State} {sub : Submission}
    {event : Partitioner.Event JobEffect}
    {domain : Partitioner.State JobEffect}
    (hCarries : s.Carries route sub)
    (hReach :
      (Partitioner.lts JobEffect config).Reachable events
        s.domain)
    (hStep : Partitioner.Step config s.domain event domain)
    (hAdmits : s.Admits event) :
    ({ s with domain := domain } : State).Carries route
      sub := by
  rcases hCarries with
    ⟨call, message, hCall, hMessage, hKey, hTask, hPhase⟩
  rcases Partitioner.call_kept hReach hStep hCall with
    ⟨phase, hCall', hReturns, hCancels⟩
  refine ⟨_, message, hCall', hMessage, hKey, hTask, ?_⟩
  rcases hPhase with hReturned | ⟨hNow, hKept⟩
  · exact Or.inl (hReturns hReturned)
  · refine Or.inr ⟨hNow, ?_⟩
    intro hCancelled
    rcases hCancels hCancelled with hBefore | rfl
    · exact hKept hBefore
    · exact hAdmits sub.position hNow

/- The call the route is in is its last one. -/
theorem Ledger.last_of_submitting
    {trace : List Event} {s : State} {sub : Submission}
    (hLedger : Ledger route trace s)
    (hSub : sub ∈ submissions trace)
    (hNow :
      s.phase.submission? = some (sub.position, sub.call)) :
    ∃ front,
      callsOf sub.key trace = front ++ [sub.call] ∧
        sub.call ∉ front := by
  rcases hLedger.current _ _ hNow with ⟨front, key, hLast⟩
  have hMem :
      (⟨sub.position, key, sub.call⟩ : Submission) ∈
        submissions trace := by
    rw [hLast]
    simp
  have hSame :
      (⟨sub.position, key, sub.call⟩ : Submission) = sub :=
    List.inj_on_of_nodup_map hLedger.once hMem hSub rfl
  rw [hSame] at hLast
  have hOnce := hLedger.once
  rw [hLast, List.map_append, List.nodup_append] at hOnce
  refine ⟨(front.filter
    (fun other => other.key = sub.key)).map
      Submission.call, ?_, ?_⟩
  · unfold callsOf
    rw [hLast]
    simp
  · intro hFront
    rcases List.mem_map.mp hFront with ⟨other, hOther, hEq⟩
    exact hOnce.2.2 other.call
      (List.mem_map.mpr
        ⟨other, (List.mem_filter.mp hOther).1, rfl⟩)
      sub.call (by simp) hEq

/-
  A queued job of the route is that of its last submission.
-/
theorem Ledger.last_of_queued
    {trace : List Event} {s : State}
    {key : String}
    {job : Partitioner.PartitionJob JobEffect}
    {domain : Partitioner.State JobEffect}
    (hLedger : Ledger route trace s)
    (hStep :
      Partitioner.Step config s.domain (.queued key job)
        domain)
    (hOwn : job.completion ∈ callsOf key trace) :
    ∃ front, callsOf key trace = front ++ [job.completion] ∧
      job.completion ∉ front := by
  rcases mem_callsOf_iff.mp hOwn with
    ⟨sub, hSub, rfl, hCall⟩
  rcases hLedger.carried sub hSub with
    ⟨call, _, hHere, _, _, _, hPhase⟩
  rcases hStep.of_queued with
    ⟨queued, w, hQueued, _, _, hHolding, _⟩
  rw [← hCall] at hQueued ⊢
  have hSame : queued = call := by
    rw [hQueued] at hHere
    exact Option.some.inj hHere
  rcases hPhase with hReturned | ⟨hNow, _⟩
  · rw [← hSame, hHolding] at hReturned
    cases hReturned
  · exact hLedger.last_of_submitting hSub hNow

/- The order of the route's jobs across a domain step. -/
theorem Ledger.agree_step
    {trace : List Event} {s : State}
    {event : Partitioner.Event JobEffect}
    {domain : Partitioner.State JobEffect}
    (hLedger : Ledger route trace s)
    (hStep : Partitioner.Step config s.domain event domain)
    (key : String)
    (hOnce :
      (queuedCalls key (domainEvents trace ++ [event])).Nodup) :
    Agree (queuedCalls key (domainEvents trace ++ [event]))
      (callsOf key trace) := by
  rcases Partitioner.queuedCalls_append key
      (domainEvents trace) event with
    ⟨job, rfl, hAppend⟩ | hSame
  · rw [hAppend] at hOnce ⊢
    have hFresh :
        job.completion ∉
          queuedCalls key (domainEvents trace) := by
      intro hMem
      exact (List.nodup_append.mp hOnce).2.2 _ hMem _
        (by simp) rfl
    by_cases hOwn : job.completion ∈ callsOf key trace
    · rcases hLedger.last_of_queued hStep hOwn with
        ⟨front, hLast, hFront⟩
      have hAgree := hLedger.agree key
      rw [hLast] at hAgree ⊢
      exact hAgree.append_last hFront hFresh
    · exact (hLedger.agree key).append_fresh hOwn
  · rw [hSame]
    exact hLedger.agree key

/- Other steps of the domain. -/
theorem Ledger.domain
    {trace : List Event} {s : State}
    {event : Partitioner.Event JobEffect}
    {domain : Partitioner.State JobEffect}
    (hLedger : Ledger route trace s)
    (hReach :
      (Partitioner.lts JobEffect config).Reachable
        (domainEvents trace) s.domain)
    (hStep : Partitioner.Step config s.domain event domain)
    (hAdmits : s.Admits event) :
    Ledger route (trace ++ [.domain event])
      { s with domain := domain } where
  position_le := hLedger.position_le
  source_ended := hLedger.source_ended
  assigned := by
    rw [submissions_append rfl]
    exact hLedger.assigned
  carried := by
    intro sub hSub
    rw [submissions_append rfl] at hSub
    exact (hLedger.carried sub hSub).step hReach hStep
      hAdmits
  foreign := by
    intro c call' hCall'
    rw [submissions_append rfl]
    rcases Partitioner.call_before hReach hStep hCall' with
      ⟨call, hCall, hTask⟩ | rfl
    · rw [hTask]
      exact hLedger.foreign c call hCall
    · exact Or.inr hAdmits
  awaited := by
    intro sub hSub
    rw [submissions_append rfl] at hSub
    rcases hLedger.awaited sub hSub with
      hNow | hPends | hDone
    · exact Or.inl hNow
    · exact Or.inr (Or.inl hPends)
    · exact Or.inr (Or.inr (mem_domainEvents_append hDone _))
  current := by
    rw [submissions_append rfl]
    exact hLedger.current
  once := by
    rw [submissions_append rfl]
    exact hLedger.once
  agree := by
    intro key
    rw [callsOf_append rfl, domainEvents_append_some rfl]
    exact hLedger.agree_step hStep key
      (Partitioner.queuedCalls_of_reachable
        (hReach.step hStep) key).1

/- The call of a submission after another call was made. -/
theorem State.Carries.append
    {s s' : State} {sub : Submission}
    {new : Call JobEffect}
    (hCarries : s.Carries route sub)
    (hCalls : s'.domain.calls = s.domain.calls ++ [new])
    (hPhase : s.phase = .resolving) :
    s'.Carries route sub := by
  rcases hCarries with
    ⟨call, message, hCall, hMessage, hKey, hTask, hReturned⟩
  refine ⟨call, message, ?_, hMessage, hKey, hTask, ?_⟩
  · rw [hCalls]
    exact Lists.getElem?_append_singleton_eq_some.mpr
      (Or.inl hCall)
  · rcases hReturned with hReturned | ⟨hNow, _⟩
    · exact Or.inl hReturned
    · simp [hPhase, Phase.submission?] at hNow

/- The step that calls `submit_task`. -/
theorem Ledger.submit
    {trace : List Event} {s : State}
    {message : RouteMessage} {key : String}
    (hLedger : Ledger route trace s)
    (hPhase : s.phase = .resolving)
    (hMessage : route.messages[s.position]? = some message)
    (hResolve : route.resolve s.position message = .ok key)
    (hFresh :
      ∀ key,
        s.domain.calls.length ∉
          queuedCalls key (domainEvents trace)) :
    Ledger route
      (trace ++
        [.submitting s.position key s.domain.calls.length
          (route.job s.position message)])
      { s with
        domain :=
          { s.domain with
            calls := s.domain.calls ++
              [⟨key, route.job s.position message,
                .acquiring⟩] }
        position := s.position + 1
        phase := .submitting s.position
          s.domain.calls.length } := by
  have hBound : s.position < route.messages.length :=
    (List.getElem?_eq_some_iff.mp hMessage).1
  have hKey : route.key? s.position = some key :=
    PartitionedRoute.key?_eq_some_iff.mpr
      ⟨message, hMessage, hResolve⟩
  have hSubmissions :
      submissions
          (trace ++
            [.submitting s.position key
              s.domain.calls.length
              (route.job s.position message)]) =
        submissions trace ++
          [⟨s.position, key, s.domain.calls.length⟩] := by
    simp [submissions, Event.submission?]
  have hOld :
      ∀ sub ∈ submissions trace,
        sub.call ≠ s.domain.calls.length := by
    intro sub hSub hEq
    rcases hLedger.carried sub hSub with ⟨call, _, hCall, _⟩
    rw [hEq, List.getElem?_eq_none (Nat.le_refl _)] at hCall
    cases hCall
  constructor
  case position_le => exact hBound
  case source_ended =>
    intro hEnded
    have hLast := hLedger.source_ended hEnded
    rw [hLast] at hBound
    exact absurd hBound (Nat.lt_irrefl _)
  case assigned =>
    rw [hSubmissions, List.map_append, hLedger.assigned,
      PartitionedRoute.assignments_succ, hKey]
    rfl
  case carried =>
    intro sub hSub
    rw [hSubmissions, List.mem_append,
      List.mem_singleton] at hSub
    rcases hSub with hBefore | rfl
    · exact (hLedger.carried sub hBefore).append rfl hPhase
    · exact ⟨⟨key, route.job s.position message,
        .acquiring⟩, message, by simp, hMessage, rfl, rfl,
        Or.inr ⟨rfl, by simp⟩⟩
  case foreign =>
    intro c call hCall
    rw [hSubmissions]
    rcases Lists.getElem?_append_singleton_eq_some.mp hCall with
      hBefore | ⟨rfl, _⟩
    · rcases hLedger.foreign c call hBefore with
        ⟨sub, hSub, hEq⟩ | hOther
      · exact Or.inl
          ⟨sub, List.mem_append_left _ hSub, hEq⟩
      · exact Or.inr hOther
    · exact Or.inl
        ⟨_, List.mem_append_right _ (List.mem_singleton_self _),
          rfl⟩
  case awaited =>
    intro sub hSub
    rw [hSubmissions, List.mem_append,
      List.mem_singleton] at hSub
    rcases hSub with hBefore | rfl
    · rcases hLedger.awaited sub hBefore with
        hNow | hPends | hDone
      · simp [hPhase, Phase.submission?] at hNow
      · exact Or.inr (Or.inl hPends)
      · exact Or.inr
          (Or.inr (mem_domainEvents_append hDone _))
    · exact Or.inl rfl
  case current =>
    intro position c hNow
    cases hNow
    exact ⟨_, key, hSubmissions⟩
  case once =>
    rw [hSubmissions, List.map_append,
      List.nodup_append]
    refine ⟨hLedger.once, by simp, ?_⟩
    intro c hMem d hLast
    rcases List.mem_map.mp hMem with ⟨sub, hSub, rfl⟩
    have hEq : d = s.domain.calls.length := by
      simpa using hLast
    rw [hEq]
    exact hOld sub hSub
  case agree =>
    intro other
    rw [domainEvents_append_some rfl]
    have hQueued :
        queuedCalls other
            (domainEvents trace ++
              [.called key s.domain.calls.length
                (route.job s.position message)]) =
          queuedCalls other (domainEvents trace) := by
      rcases Partitioner.queuedCalls_append other
          (domainEvents trace)
          (.called key s.domain.calls.length
            (route.job s.position message)) with
        ⟨job, hEvent, _⟩ | hSame
      · cases hEvent
      · exact hSame
    rw [hQueued]
    have hAgree := hLedger.agree other
    unfold callsOf at hAgree ⊢
    rw [hSubmissions, List.filter_append, List.map_append]
    by_cases hSame : key = other
    · simpa [hSame] using
        (hAgree.symm.append_fresh (hFresh other)).symm
    · simpa [hSame] using hAgree

end Install

end Router

end Qanat

------------------------------------------------------------
-- Runs
------------------------------------------------------------

namespace Qanat

namespace Router

namespace Install

open Transition
open Partitioner (CallId Call queuedCalls)

variable {Value : Type} {route : PartitionedRoute Value}
variable {config : Partitioner.Config}

/- The completion of a call that is seen has fired. -/
theorem Ledger.completed_of_released
    {trace : List Event} {s : State}
    (hLedger : Ledger route trace s)
    (hReach :
      (Partitioner.lts JobEffect config).Reachable
        (domainEvents trace) s.domain)
    {sub : Submission}
    (hSub : sub ∈ submissions trace)
    (hLeft :
      s.phase.submission? ≠ some (sub.position, sub.call))
    (hReleased : s.domain.Released sub.call) :
    Partitioner.Event.completed sub.key sub.call ∈
      domainEvents trace := by
  rcases hLedger.carried sub hSub with
    ⟨call, _, hCall, _, hKey, _, hPhase⟩
  rcases hPhase with hReturned | ⟨hNow, _⟩
  · rw [← hKey]
    exact Partitioner.completed_of_released hReach hCall
      hReturned hReleased
  · exact absurd hNow hLeft

/- The ledger of every run. -/
theorem ledger_of_reachable
    {trace : List Event} {s : State}
    (hReach : (lts route config).Reachable trace s) :
    Ledger route trace s := by
  induction hReach with
  | @initial s hStart =>
      have hEq : s = State.start := hStart
      subst hEq
      exact Ledger.start
  | @step trace s s' e hReach hStep ih =>
      have hDomain := domain_reachable hReach
      cases hStep with
      | domain hMove hAdmits =>
          exact ih.domain hDomain hMove hAdmits
      | submit hPhase hMessage hResolve hCall =>
          rcases hCall.of_called with ⟨rfl, rfl⟩
          refine ih.submit hPhase hMessage hResolve ?_
          -- a call to be made has queued no job before
          intro key hMem
          rcases (Partitioner.queuedCalls_of_reachable hDomain
              key).2 _ hMem with ⟨call, hCall, _⟩
          rw [List.getElem?_eq_none (Nat.le_refl _)] at hCall
          cases hCall
      | «yield» hPhase hOpen hMore =>
          exact ih.move rfl rfl rfl
            (Or.inl (by simp [hPhase, Phase.submission?]))
            ⟨ih.position_le, ih.source_ended, rfl⟩
            (fun _ _ hPends => Or.inl hPends)
      | endSource hPhase hOpen hLast =>
          exact ih.move rfl rfl rfl (Or.inl rfl)
            ⟨ih.position_le, fun _ => hLast, rfl⟩
            (fun _ _ hPends => Or.inl hPends)
      | @unresolve message error hPhase hMessage hResolve =>
          have hBound : s.position < route.messages.length :=
            (List.getElem?_eq_some_iff.mp hMessage).1
          refine ih.move rfl rfl rfl
            (Or.inl (by simp [hPhase, Phase.submission?]))
            ⟨hBound, ?_, ?_⟩
            (fun _ _ hPends => Or.inl hPends)
          · intro hEnded
            rw [ih.source_ended hEnded] at hBound
            exact absurd hBound (Nat.lt_irrefl _)
          · have hNone : route.key? s.position = none := by
              simp [PartitionedRoute.key?, hMessage, hResolve]
            change route.assignments (s.position + 1) = _
            rw [PartitionedRoute.assignments_succ, hNone]
            simp
      | recover hPhase | «continue» hPhase
      | unwindRecovery hPhase | unwindSubmission hPhase
      | «end» hPhase =>
          exact ih.move rfl rfl rfl
            (Or.inl (by simp [hPhase, Phase.submission?]))
            ⟨ih.position_le, ih.source_ended, rfl⟩
            (fun _ _ hPends => Or.inl hPends)
      | @push position c call hPhase hCall hReturned =>
          refine ih.move rfl rfl rfl (Or.inr ⟨rfl, ?_⟩)
            ⟨ih.position_le, ih.source_ended, rfl⟩
            (fun _ _ hPends =>
              Or.inl (List.mem_append_left _ hPends))
          intro i d hNow
          rw [hPhase] at hNow
          cases hNow
          refine ⟨by simp, ?_⟩
          intro other hOther
          rw [hCall] at hOther
          cases hOther
          exact hReturned
      | @see c hPhase hPends hReleased =>
          refine ih.move rfl rfl rfl (Or.inl rfl)
            ⟨ih.position_le, ih.source_ended, rfl⟩ ?_
          intro sub hSub hMem
          by_cases hEq : sub.call = c
          · subst hEq
            exact Or.inr (ih.completed_of_released hDomain
              hSub (by simp [hPhase, Phase.submission?])
              hReleased)
          · exact Or.inl
              ((List.mem_erase_of_ne hEq).mpr hMem)

end Install

end Router

end Qanat
