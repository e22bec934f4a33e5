import Qanat.Library.Lists
import Qanat.Library.Lts

/-
  A server with one queue, serving one job at a time.

  This is the abstract meaning of a serialised execution
  domain: jobs enter at the tail, leave at the head, and the
  effects of a job are performed between its start and its
  finish with no other job in between.

  Main declarations:
    * `FifoServer.lts`
    * `FifoServer.History`
    * `FifoServer.history_of_reachable`
    * `FifoServer.finish_precedes_start`
-/

------------------------------------------------------------
-- The Server
------------------------------------------------------------

namespace Transition

namespace FifoServer

variable {ι ε : Type*}

/-
  The queue, and the job in service with the effects it has
  still to perform.
-/
structure State (ι ε : Type*) where
  waiting : List (ι × List ε)
  serving : Option (ι × List ε)

namespace State

/- Nothing queued and nothing in service. -/
def empty : State ι ε where
  waiting := []
  serving := none

end State

inductive Event (ι ε : Type*) where
| enqueue (job : ι) (work : List ε)
| start (job : ι)
| perform (job : ι) (effect : ε)
| finish (job : ι)

inductive Step :
    State ι ε → Event ι ε → State ι ε → Prop where
| enqueue {s : State ι ε} {job : ι} {work : List ε} :
    Step s (.enqueue job work)
      { s with waiting := s.waiting ++ [(job, work)] }
| start
    {rest : List (ι × List ε)} {job : ι}
    {work : List ε} :
    Step ⟨(job, work) :: rest, none⟩ (.start job)
      ⟨rest, some (job, work)⟩
| perform
    {queue : List (ι × List ε)} {job : ι} {effect : ε}
    {work : List ε} :
    Step ⟨queue, some (job, effect :: work)⟩
      (.perform job effect) ⟨queue, some (job, work)⟩
| finish {queue : List (ι × List ε)} {job : ι} :
    Step ⟨queue, some (job, [])⟩ (.finish job)
      ⟨queue, none⟩

/- The server, starting idle. -/
def lts (ι ε : Type*) : Lts (State ι ε) (Event ι ε) where
  initial s := s = State.empty
  step := Step

end FifoServer

end Transition

------------------------------------------------------------
-- Histories
------------------------------------------------------------

namespace Transition

namespace FifoServer

variable {ι ε : Type*}

namespace Event

def enqueued? : Event ι ε → Option (ι × List ε)
| .enqueue job work => some (job, work)
| _ => none

def started? : Event ι ε → Option ι
| .start job => some job
| _ => none

def performed? : Event ι ε → Option (ι × ε)
| .perform job effect => some (job, effect)
| _ => none

def finished? : Event ι ε → Option ι
| .finish job => some job
| _ => none

end Event

/- The jobs of a trace in the order they were queued. -/
def enqueued (trace : List (Event ι ε)) :
    List (ι × List ε) :=
  trace.filterMap Event.enqueued?

/- The jobs of a trace in the order they were started. -/
def started (trace : List (Event ι ε)) : List ι :=
  trace.filterMap Event.started?

/- The effects of a trace, each with the job it belongs to. -/
def performed (trace : List (Event ι ε)) : List (ι × ε) :=
  trace.filterMap Event.performed?

/- The jobs of a trace in the order they were finished. -/
def finished (trace : List (Event ι ε)) : List ι :=
  trace.filterMap Event.finished?

/- The effects of whole jobs, one job after the other. -/
def effectsOf (jobs : List (ι × List ε)) : List (ι × ε) :=
  jobs.flatMap (fun job => job.2.map (fun e => (job.1, e)))

@[simp] theorem effectsOf_append
    (first second : List (ι × List ε)) :
    effectsOf (first ++ second) =
      effectsOf first ++ effectsOf second := by
  simp [effectsOf]

@[simp] theorem effectsOf_singleton
    (job : ι) (work : List ε) :
    effectsOf [(job, work)] =
      work.map (fun e => (job, e)) := by
  simp [effectsOf]

/-
  What a trace has done so far, when `done` are the jobs it
  has served completely and `current` is the one in service,
  as the pair of what it has performed and what remains.
-/
structure History
    (trace : List (Event ι ε))
    (s : State ι ε)
    (done : List (ι × List ε))
    (current : Option (ι × List ε × List ε)) : Prop where
  serving_eq :
    s.serving = current.map (fun c => (c.1, c.2.2))
  enqueued_eq :
    enqueued trace =
      done ++
        (current.map
          (fun c => (c.1, c.2.1 ++ c.2.2))).toList ++
        s.waiting
  started_eq :
    started trace =
      done.map Prod.fst ++
        (current.map (fun c => c.1)).toList
  finished_eq : finished trace = done.map Prod.fst
  performed_eq :
    performed trace =
      effectsOf done ++
        effectsOf
          (current.map (fun c => (c.1, c.2.1))).toList

@[simp] theorem enqueued_append_singleton
    (trace : List (Event ι ε)) (e : Event ι ε) :
    enqueued (trace ++ [e]) =
      enqueued trace ++ e.enqueued?.toList := by
  unfold enqueued
  rw [List.filterMap_append, Lists.filterMap_singleton]

@[simp] theorem started_append_singleton
    (trace : List (Event ι ε)) (e : Event ι ε) :
    started (trace ++ [e]) =
      started trace ++ e.started?.toList := by
  unfold started
  rw [List.filterMap_append, Lists.filterMap_singleton]

@[simp] theorem performed_append_singleton
    (trace : List (Event ι ε)) (e : Event ι ε) :
    performed (trace ++ [e]) =
      performed trace ++ e.performed?.toList := by
  unfold performed
  rw [List.filterMap_append, Lists.filterMap_singleton]

@[simp] theorem finished_append_singleton
    (trace : List (Event ι ε)) (e : Event ι ε) :
    finished (trace ++ [e]) =
      finished trace ++ e.finished?.toList := by
  unfold finished
  rw [List.filterMap_append, Lists.filterMap_singleton]

/- One step extends the history. -/
theorem History.step
    {trace : List (Event ι ε)}
    {s s' : State ι ε}
    {e : Event ι ε}
    {done : List (ι × List ε)}
    {current : Option (ι × List ε × List ε)}
    (hHistory : History trace s done current)
    (hStep : Step s e s') :
    ∃ done' current',
      History (trace ++ [e]) s' done' current' := by
  rcases hHistory with
    ⟨hServing, hEnqueued, hStarted, hFinished, hPerformed⟩
  cases hStep with
  | enqueue =>
      refine ⟨done, current, ?_⟩
      constructor <;>
        simp_all [Event.enqueued?, Event.started?,
          Event.performed?, Event.finished?]
  | @start rest job work =>
      have hIdle : current = none := by
        simpa using hServing.symm
      subst hIdle
      refine ⟨done, some (job, [], work), ?_⟩
      constructor <;>
        simp_all [Event.enqueued?, Event.started?,
          Event.performed?, Event.finished?, effectsOf]
  | @perform queue job effect work =>
      have hCurrent :
          ∃ past, current = some (job, past, effect :: work) := by
        rcases current with _ | ⟨job', past, rest⟩
        · simp at hServing
        · have hBoth : job = job' ∧ effect :: work = rest := by
            simpa using hServing
          exact ⟨past, by rw [hBoth.1, hBoth.2]⟩
      rcases hCurrent with ⟨past, rfl⟩
      refine ⟨done, some (job, past ++ [effect], work), ?_⟩
      constructor <;>
        simp_all [Event.enqueued?, Event.started?,
          Event.performed?, Event.finished?]
  | @finish queue job =>
      have hCurrent :
          ∃ past, current = some (job, past, []) := by
        rcases current with _ | ⟨job', past, rest⟩
        · simp at hServing
        · have hBoth : job = job' ∧ [] = rest := by
            simpa using hServing
          exact ⟨past, by rw [hBoth.1, hBoth.2]⟩
      rcases hCurrent with ⟨past, rfl⟩
      refine ⟨done ++ [(job, past)], none, ?_⟩
      constructor <;>
        simp_all [Event.enqueued?, Event.started?,
          Event.performed?, Event.finished?, effectsOf]

/- Every run of the server has a history. -/
theorem history_of_reachable
    {trace : List (Event ι ε)}
    {s : State ι ε}
    (hReach : (lts ι ε).Reachable trace s) :
    ∃ done current, History trace s done current := by
  induction hReach with
  | initial hInit =>
      have hEmpty : _ = State.empty := hInit
      subst hEmpty
      refine ⟨[], none, ?_⟩
      constructor <;>
        simp [State.empty, enqueued, started, finished,
          performed, effectsOf]
  | step _ hNext ih =>
      rcases ih with ⟨done, current, hHistory⟩
      exact hHistory.step hNext

end FifoServer

end Transition

------------------------------------------------------------
-- First Come, First Served
------------------------------------------------------------

namespace Transition

namespace FifoServer

variable {ι ε : Type*}

theorem mem_enqueued_iff
    {trace : List (Event ι ε)} {job : ι} {work : List ε} :
    (job, work) ∈ enqueued trace ↔
      Event.enqueue job work ∈ trace := by
  unfold enqueued
  rw [List.mem_filterMap]
  constructor
  · rintro ⟨e, hMem, hJob⟩
    cases e <;> simp_all [Event.enqueued?]
  · intro hMem
    exact ⟨_, hMem, rfl⟩

theorem mem_finished_iff
    {trace : List (Event ι ε)} {job : ι} :
    job ∈ finished trace ↔ Event.finish job ∈ trace := by
  unfold finished
  rw [List.mem_filterMap]
  constructor
  · rintro ⟨e, hMem, hJob⟩
    cases e <;> simp_all [Event.finished?]
  · intro hMem
    exact ⟨_, hMem, rfl⟩

theorem mem_started_iff
    {trace : List (Event ι ε)} {job : ι} :
    job ∈ started trace ↔ Event.start job ∈ trace := by
  unfold started
  rw [List.mem_filterMap]
  constructor
  · rintro ⟨e, hMem, hJob⟩
    cases e <;> simp_all [Event.started?]
  · intro hMem
    exact ⟨_, hMem, rfl⟩

/- Only queued jobs are started. -/
theorem started_subset_enqueued
    {trace : List (Event ι ε)}
    {s : State ι ε}
    (hReach : (lts ι ε).Reachable trace s)
    {job : ι}
    (hStarted : job ∈ started trace) :
    job ∈ (enqueued trace).map Prod.fst := by
  rcases history_of_reachable hReach with
    ⟨done, current, hHistory⟩
  rw [hHistory.enqueued_eq]
  rw [hHistory.started_eq] at hStarted
  rcases List.mem_append.mp hStarted with hDone | hNow
  · simp only [List.map_append, List.mem_append]
    exact Or.inl (Or.inl hDone)
  · cases current with
    | none => simp at hNow
    | some c =>
        have hJob : job = c.1 := by simpa using hNow
        simp [hJob]

/-
  A job queued before `b` has finished before `b` starts.
  No job is queued twice.
-/
theorem finish_precedes_start
    {trace : List (Event ι ε)}
    {s : State ι ε}
    (hReach : (lts ι ε).Reachable trace s)
    (hNodup : ((enqueued trace).map Prod.fst).Nodup)
    {a b : ι}
    {workA workB : List ε}
    (hOrder :
      Precedes (Event.enqueue a workA)
        (Event.enqueue b workB) trace)
    (hStarted : Event.start b ∈ trace) :
    Precedes (Event.finish a) (Event.start b) trace := by
  induction hReach with
  | initial _ => exact absurd hOrder (not_precedes_nil _ _)
  | @step trace s s' e hReach hNext ih =>
      rw [enqueued_append_singleton, List.map_append]
        at hNodup
      have hNodupOld :
          ((enqueued trace).map Prod.fst).Nodup :=
        (List.nodup_append.mp hNodup).1
      rw [List.mem_append, List.mem_singleton] at hStarted
      rcases hStarted with hOld | hNew
      · have hOrderOld :
            Precedes (Event.enqueue a workA)
              (Event.enqueue b workB) trace := by
          rcases precedes_append_singleton_iff.mp hOrder with
            hBefore | ⟨_, hLast⟩
          · exact hBefore
          · -- `b` would be queued a second time
            have hMem :=
              started_subset_enqueued hReach
                (mem_started_iff.mpr hOld)
            subst hLast
            simp only [Event.enqueued?, Option.toList_some,
              List.map_cons, List.map_nil] at hNodup
            exact absurd rfl
              ((List.nodup_append.mp hNodup).2.2 b hMem b
                (by simp))
        exact (ih hNodupOld hOrderOld hOld).append_right e
      · subst hNew
        have hOrderOld :
            Precedes (Event.enqueue a workA)
              (Event.enqueue b workB) trace := by
          rcases precedes_append_singleton_iff.mp hOrder with
            hBefore | ⟨_, hLast⟩
          · exact hBefore
          · cases hLast
        rcases history_of_reachable hReach with
          ⟨done, current, hHistory⟩
        have hDone : a ∈ done.map Prod.fst := by
          cases hNext with
          | @start rest _ work =>
              have hIdle : current = none := by
                simpa using hHistory.serving_eq.symm
              subst hIdle
              have hSub :
                  Precedes a b
                    ((enqueued trace).map Prod.fst) := by
                rw [← List.filterMap_eq_map]
                have hJobs :
                    Precedes (a, workA) (b, workB)
                      (enqueued trace) :=
                  hOrderOld.filterMap rfl rfl
                exact hJobs.filterMap rfl rfl
              have hSplit :
                  (enqueued trace).map Prod.fst =
                    done.map Prod.fst ++
                      b :: rest.map Prod.fst := by
                rw [hHistory.enqueued_eq]
                simp
              rw [hSplit] at hSub hNodupOld
              rcases List.sublist_append_iff.mp hSub with
                ⟨l₁, l₂, hPair, hLeft, hRight⟩
              rcases l₁ with _ | ⟨x, l₁⟩
              · rw [List.nil_append] at hPair
                subst hPair
                have hTail :
                    [b].Sublist (rest.map Prod.fst) := by
                  cases hRight with
                  | cons _ hSkip =>
                      exact (List.sublist_cons_self a [b]).trans
                        hSkip
                  | cons_cons _ hKeep => exact hKeep
                have hTwice : b ∈ rest.map Prod.fst :=
                  List.singleton_sublist.mp hTail
                have hRest :=
                  (List.nodup_append.mp hNodupOld).2.1
                exact absurd hTwice
                  (List.nodup_cons.mp hRest).1
              · have hHead : a = x := by
                  simpa using (List.cons.inj hPair).1
                subst hHead
                exact hLeft.subset (by simp)
        rw [← hHistory.finished_eq, mem_finished_iff] at hDone
        exact precedes_append_singleton_iff.mpr
          (Or.inr ⟨hDone, rfl⟩)

end FifoServer

end Transition
