import Qanat.Router.Partitioner.Domain

/-
  What the events of a run say about the calls and the
  workers at its end.

  Main declarations:
    * `Partitioner.Chronicle`
    * `Partitioner.chronicle_of_reachable`
-/

------------------------------------------------------------
-- Events of One Key
------------------------------------------------------------

namespace Qanat

namespace Partitioner

open Transition

variable {ε : Type} {config : BoundedConfig}

/- The events the server of a key has seen. -/
def domainTrace (key : String) (trace : List (Event ε)) :
    List (FifoServer.Event CallId ε) :=
  trace.filterMap (Event.ofKey key)

/- An event of the server stems from one of its key. -/
theorem ofKey_cases
    {key : String} {e : Event ε}
    {label : FifoServer.Event CallId ε}
    (hLabel : e.ofKey key = some label) :
    match label with
    | .enqueue c work =>
        ∃ job, e = .queued key job ∧ job.completion = c ∧
          job.task.effects = work
    | .start c => e = .started key c
    | .perform c effect => e = .performed key c effect
    | .finish c => e = .finished key c := by
  cases e with
  | queued k job =>
      rcases Option.ite_none_right_eq_some.mp hLabel with
        ⟨rfl, hSame⟩
      cases hSame
      exact ⟨job, rfl, rfl, rfl⟩
  | started k c =>
      rcases Option.ite_none_right_eq_some.mp hLabel with
        ⟨rfl, hSame⟩
      cases hSame
      rfl
  | performed k c effect =>
      rcases Option.ite_none_right_eq_some.mp hLabel with
        ⟨rfl, hSame⟩
      cases hSame
      rfl
  | finished k c =>
      rcases Option.ite_none_right_eq_some.mp hLabel with
        ⟨rfl, hSame⟩
      cases hSame
      rfl
  | _ => cases hLabel

theorem ofKey_eq_enqueue_iff
    {key : String} {e : Event ε} {c : CallId}
    {work : List ε} :
    e.ofKey key = some (.enqueue c work) ↔
      ∃ job, e = .queued key job ∧ job.completion = c ∧
        job.task.effects = work := by
  constructor
  · exact ofKey_cases
  · rintro ⟨job, rfl, rfl, rfl⟩
    exact if_pos rfl

theorem ofKey_eq_start_iff
    {key : String} {e : Event ε} {c : CallId} :
    e.ofKey key = some (.start c) ↔ e = .started key c := by
  constructor
  · exact ofKey_cases
  · rintro rfl
    exact if_pos rfl

theorem ofKey_eq_finish_iff
    {key : String} {e : Event ε} {c : CallId} :
    e.ofKey key = some (.finish c) ↔
      e = .finished key c := by
  constructor
  · exact ofKey_cases
  · rintro rfl
    exact if_pos rfl

theorem enqueue_mem_domainTrace_iff
    {key : String} {trace : List (Event ε)} {c : CallId}
    {work : List ε} :
    FifoServer.Event.enqueue c work ∈ domainTrace key trace ↔
      ∃ job, Event.queued key job ∈ trace ∧
        job.completion = c ∧ job.task.effects = work := by
  unfold domainTrace
  rw [List.mem_filterMap]
  constructor
  · rintro ⟨e, hMem, hLabel⟩
    rcases ofKey_eq_enqueue_iff.mp hLabel with
      ⟨job, rfl, hJob⟩
    exact ⟨job, hMem, hJob⟩
  · rintro ⟨job, hMem, hJob⟩
    exact ⟨_, hMem, ofKey_eq_enqueue_iff.mpr
      ⟨job, rfl, hJob⟩⟩

theorem start_mem_domainTrace_iff
    {key : String} {trace : List (Event ε)} {c : CallId} :
    FifoServer.Event.start c ∈ domainTrace key trace ↔
      Event.started key c ∈ trace := by
  unfold domainTrace
  rw [List.mem_filterMap]
  constructor
  · rintro ⟨e, hMem, hLabel⟩
    rwa [← ofKey_eq_start_iff.mp hLabel]
  · intro hMem
    exact ⟨_, hMem, ofKey_eq_start_iff.mpr rfl⟩

theorem finish_mem_domainTrace_iff
    {key : String} {trace : List (Event ε)} {c : CallId} :
    FifoServer.Event.finish c ∈ domainTrace key trace ↔
      Event.finished key c ∈ trace := by
  unfold domainTrace
  rw [List.mem_filterMap]
  constructor
  · rintro ⟨e, hMem, hLabel⟩
    rwa [← ofKey_eq_finish_iff.mp hLabel]
  · intro hMem
    exact ⟨_, hMem, ofKey_eq_finish_iff.mpr rfl⟩

/- The calls a key's server has been given jobs of. -/
def queuedCalls (key : String) (trace : List (Event ε)) :
    List CallId :=
  (FifoServer.enqueued (domainTrace key trace)).map Prod.fst

theorem mem_queuedCalls_iff
    {key : String} {trace : List (Event ε)} {c : CallId} :
    c ∈ queuedCalls key trace ↔
      ∃ job, Event.queued key job ∈ trace ∧
        job.completion = c := by
  unfold queuedCalls
  rw [List.mem_map]
  constructor
  · rintro ⟨⟨d, work⟩, hMem, rfl⟩
    rw [FifoServer.mem_enqueued_iff,
      enqueue_mem_domainTrace_iff] at hMem
    rcases hMem with ⟨job, hQueued, hCall, _⟩
    exact ⟨job, hQueued, hCall⟩
  · rintro ⟨job, hQueued, rfl⟩
    refine ⟨(job.completion, job.task.effects), ?_, rfl⟩
    rw [FifoServer.mem_enqueued_iff,
      enqueue_mem_domainTrace_iff]
    exact ⟨job, hQueued, rfl, rfl⟩

/- One more event adds a call exactly if it queues its job. -/
theorem queuedCalls_append
    (key : String) (trace : List (Event ε)) (e : Event ε) :
    (∃ job, e = .queued key job ∧
        queuedCalls key (trace ++ [e]) =
          queuedCalls key trace ++ [job.completion]) ∨
      queuedCalls key (trace ++ [e]) =
        queuedCalls key trace := by
  unfold queuedCalls domainTrace
  rw [List.filterMap_append]
  cases hLabel : e.ofKey key with
  | none =>
      refine Or.inr ?_
      simp [hLabel]
  | some label =>
      simp only [List.filterMap_cons, hLabel,
        List.filterMap_nil,
        FifoServer.enqueued_append_singleton]
      cases label with
      | enqueue c work =>
          rcases ofKey_eq_enqueue_iff.mp hLabel with
            ⟨job, hEvent, hCall, _⟩
          refine Or.inl ⟨job, hEvent, ?_⟩
          simp [FifoServer.Event.enqueued?, hCall]
      | _ =>
          refine Or.inr ?_
          simp [FifoServer.Event.enqueued?]

end Partitioner

end Qanat

------------------------------------------------------------
-- The Chronicle
------------------------------------------------------------

namespace Qanat

namespace Partitioner

open Transition

variable {ε : Type} {config : BoundedConfig}

/- The job of the call has been sent to a worker. -/
def CallPhase.HasSent : CallPhase → Prop
| .sent _ | .returned => True
| _ => False

/- What the trace of a run records about its last state. -/
structure Chronicle
    (trace : List (Event ε)) (s : State ε) : Prop where
  called_call :
    ∀ key c task, Event.called key c task ∈ trace →
      ∃ call, s.calls[c]? = some call
  queued_call :
    ∀ key job, Event.queued key job ∈ trace →
      ∃ call, s.calls[job.completion]? = some call ∧
        call.key = key ∧ call.task = job.task ∧
        call.phase.HasSent
  sent_queued :
    ∀ (c : CallId) (call : Call ε),
      s.calls[c]? = some call → call.phase.HasSent →
        Event.queued call.key ⟨call.task, c⟩ ∈ trace
  returned_queued :
    ∀ key c, Event.returned key c ∈ trace →
      ∃ job, Event.queued key job ∈ trace ∧
        job.completion = c
  cancelled :
    ∀ (c : CallId) (call : Call ε),
      s.calls[c]? = some call → call.phase = .cancelled →
        Event.cancelled c ∈ trace
  queued_once :
    ∀ key, (queuedCalls key trace).Nodup
  completing_finished :
    ∀ (w : WorkerId) (worker : Worker ε)
      (job : PartitionJob ε),
      s.workers[w]? = some worker →
      worker.activity = .completing job →
        Event.finished worker.key job.completion ∈ trace
  finished_completed :
    ∀ key c, Event.finished key c ∈ trace →
      Event.completed key c ∈ trace ∨
        ∃ (w : WorkerId) (worker : Worker ε)
          (job : PartitionJob ε),
          s.workers[w]? = some worker ∧
            worker.key = key ∧
            worker.activity = .completing job ∧
            job.completion = c

/- The calls of a state after a step, seen from before it. -/
theorem Invariant.calls_inv
    {s s' : State ε} {e : Event ε}
    (hInv : Invariant s)
    (hStep : Step config s e s')
    {c : CallId} {call' : Call ε}
    (hCall' : s'.calls[c]? = some call') :
    (∃ call, s.calls[c]? = some call ∧
        call'.key = call.key ∧ call'.task = call.task ∧
        CallMove c call e call'.phase) ∨
      (s.calls[c]? = none ∧ call'.phase = .acquiring) := by
  cases hCall : s.calls[c]? with
  | none =>
      exact Or.inr ⟨rfl, (hInv.new_call hStep hCall' hCall).2⟩
  | some call =>
      rcases hInv.call_moves hStep hCall with
        ⟨phase, hSome, hMove⟩
      rw [hCall'] at hSome
      cases hSome
      exact Or.inl ⟨call, rfl, rfl, rfl, hMove⟩

/- A call that has sent its job has sent it for good. -/
theorem CallMove.hasSent
    {c : CallId} {call : Call ε} {e : Event ε}
    {phase : CallPhase}
    (hMove : CallMove c call e phase)
    (hSent : call.phase.HasSent) :
    phase.HasSent := by
  cases hMove with
  | stay => exact hSent
  | send hPhase => trivial
  | «return» hPhase => trivial
  | acquire hPhase =>
      simp [hPhase, CallPhase.HasSent] at hSent
  | granted hPhase =>
      simp [hPhase, CallPhase.HasSent] at hSent
  | cancel hOwns =>
      cases hPhase : call.phase <;>
        simp [hPhase, CallPhase.HasSent,
          CallPhase.OwnsJob] at hSent hOwns

/- A call sends its job with the event that says so. -/
theorem CallMove.hasSent_inv
    {c : CallId} {call : Call ε} {e : Event ε}
    {phase : CallPhase}
    (hMove : CallMove c call e phase)
    (hSent : phase.HasSent) :
    call.phase.HasSent ∨
      e = .queued call.key ⟨call.task, c⟩ := by
  cases hMove with
  | stay => exact Or.inl hSent
  | send hPhase => exact Or.inr rfl
  | «return» hPhase =>
      exact Or.inl (by simp [hPhase, CallPhase.HasSent])
  | acquire hPhase => cases hSent
  | granted hPhase => cases hSent
  | cancel hOwns => cases hSent

/- A call is cancelled with the event that says so. -/
theorem CallMove.cancelled_inv
    {c : CallId} {call : Call ε} {e : Event ε}
    {phase : CallPhase}
    (hMove : CallMove c call e phase)
    (hPhase : phase = .cancelled) :
    call.phase = .cancelled ∨ e = .cancelled c := by
  cases hMove with
  | stay => exact Or.inl hPhase
  | cancel hOwns => exact Or.inr rfl
  | _ => cases hPhase

/- A call that has returned stays so. -/
theorem CallMove.returned
    {c : CallId} {call : Call ε} {e : Event ε}
    {phase : CallPhase}
    (hMove : CallMove c call e phase)
    (hPhase : call.phase = .returned) :
    phase = .returned := by
  cases hMove with
  | stay => exact hPhase
  | «return» hSent => rfl
  | cancel hOwns =>
      rw [hPhase] at hOwns
      cases hOwns
  | acquire hOther =>
      rw [hPhase] at hOther
      cases hOther
  | granted hOther =>
      rw [hPhase] at hOther
      cases hOther
  | send hOther =>
      rw [hPhase] at hOther
      cases hOther

/- The step that makes a call. -/
theorem Step.of_called
    {config : Config} {s s' : State ε}
    {key : String} {c : CallId} {task : Task ε}
    (hStep : Step config s (.called key c task) s') :
    c = s.calls.length ∧
      s' =
        { s with
          calls := s.calls ++ [⟨key, task, .acquiring⟩] } := by
  cases hStep with
  | call hHandles => exact ⟨rfl, rfl⟩

/- The step that queues a job, seen from its call. -/
theorem Step.of_queued
    {config : Config} {s s' : State ε}
    {key : String} {job : PartitionJob ε}
    (hStep : Step config s (.queued key job) s') :
    ∃ (call : Call ε) (w : WorkerId),
      s.calls[job.completion]? = some call ∧
        call.key = key ∧ call.task = job.task ∧
        call.phase = .holding w ∧
        s'.calls[job.completion]? =
          some { call with phase := .sent w } := by
  cases hStep with
  | @send c call w worker hCall hPhase hWorker hLive hRoom =>
      exact ⟨call, w, hCall, rfl, rfl, hPhase, by
        simp [
          List.getElem?_set_of_lt' _ _
            (List.getElem?_eq_some_iff.mp hCall).1]⟩

/- The step that returns, seen from its call. -/
theorem Step.of_returned
    {config : Config} {s s' : State ε}
    {key : String} {c : CallId}
    (hStep : Step config s (.returned key c) s') :
    ∃ (call : Call ε) (w : WorkerId),
      s.calls[c]? = some call ∧
        call.key = key ∧ call.phase = .sent w := by
  cases hStep with
  | @«return» c call w hCall hPhase =>
      exact ⟨call, w, hCall, rfl, hPhase⟩

/- A worker set in place, seen by its activity. -/
theorem completing_set
    {s : State ε} {w v : WorkerId} {old new worker : Worker ε}
    {job : PartitionJob ε} {e : Event ε}
    (hOld : s.workers[v]? = some old)
    (hWorker : (s.workers.set v new)[w]? = some worker)
    (hCompleting : worker.activity = .completing job)
    (hKey : new.key = old.key)
    (hNew :
      new.activity = .completing job →
        old.activity = .completing job ∨
          e = .finished new.key job.completion) :
    (∃ before, s.workers[w]? = some before ∧
        before.key = worker.key ∧
        before.activity = .completing job) ∨
      e = .finished worker.key job.completion := by
  rcases (Lists.getElem?_set_eq_some hOld).mp hWorker with
    ⟨rfl, rfl⟩ | ⟨_, hSame⟩
  · rcases hNew hCompleting with hBefore | hEvent
    · exact Or.inl ⟨old, hOld, hKey.symm, hBefore⟩
    · exact Or.inr hEvent
  · exact Or.inl ⟨worker, hSame, rfl, hCompleting⟩

/- The same with the activity as it was. -/
theorem completing_goto
    {s : State ε} {w v : WorkerId} {old new worker : Worker ε}
    {job : PartitionJob ε} {e : Event ε}
    (hOld : s.workers[v]? = some old)
    (hWorker : (s.workers.set v new)[w]? = some worker)
    (hCompleting : worker.activity = .completing job)
    (hKey : new.key = old.key)
    (hActivity : new.activity = old.activity) :
    (∃ before, s.workers[w]? = some before ∧
        before.key = worker.key ∧
        before.activity = .completing job) ∨
      e = .finished worker.key job.completion :=
  completing_set hOld hWorker hCompleting hKey
    (fun hNew => Or.inl (by rw [← hActivity, hNew]))

/- A worker comes to complete a job by finishing it. -/
theorem Invariant.completing_inv
    {s s' : State ε} {e : Event ε}
    (hInv : Invariant s)
    (hStep : Step config s e s')
    {w : WorkerId} {worker : Worker ε}
    {job : PartitionJob ε}
    (hWorker : s'.workers[w]? = some worker)
    (hCompleting : worker.activity = .completing job) :
    (∃ before, s.workers[w]? = some before ∧
        before.key = worker.key ∧
        before.activity = .completing job) ∨
      e = .finished worker.key job.completion := by
  cases hStep with
  | send hCall hPhase hOld hLive hRoom =>
      exact completing_goto hOld hWorker hCompleting rfl rfl
  | handle hRunning hCommands =>
      have hTurn := hInv.handle hRunning hCommands
      cases hTurn.workers_inv hWorker with
      | inl hSame =>
          exact Or.inl ⟨worker, hSame, rfl, hCompleting⟩
      | inr hRest =>
          rcases hRest with
            ⟨before, hBefore, _, rfl⟩ | ⟨_, _, rfl⟩
          · exact Or.inl ⟨before, hBefore, rfl, hCompleting⟩
          · cases hCompleting
  | panicRegistry hRunning hCommands hSpawns hOver =>
      exact absurd config.capacity_le (Nat.not_le.mpr hOver)
  | stopRegistry hRunning hCommands hNone =>
      rw [hInv.stopRegistry_eq hNone] at hWorker
      exact Or.inl ⟨worker, hWorker, rfl, hCompleting⟩
  | receive hOld hReceives hIdle hQueue =>
      apply completing_set hOld hWorker hCompleting rfl
      intro hNew
      cases hNew
  | close hOld =>
      exact completing_goto hOld hWorker hCompleting rfl rfl
  | timeout hOld =>
      exact completing_goto hOld hWorker hCompleting rfl rfl
  | upgrade hOld =>
      exact completing_goto hOld hWorker hCompleting rfl rfl
  | upgradeFailed hOld =>
      exact completing_goto hOld hWorker hCompleting rfl rfl
  | announce hOld =>
      exact completing_goto hOld hWorker hCompleting rfl rfl
  | announceFailed hOld =>
      exact completing_goto hOld hWorker hCompleting rfl rfl
  | resume hOld =>
      exact completing_goto hOld hWorker hCompleting rfl rfl
  | drain hOld =>
      exact completing_goto hOld hWorker hCompleting rfl rfl
  | @retire v old hOld hPhase =>
      have hSet :
          (s.workers.set v
            { old with phase := .stopped })[w]? =
            some worker := by
        by_cases hRunning : s.registryRunning = true <;>
          simpa [hRunning] using hWorker
      exact completing_goto hOld hSet hCompleting rfl rfl
  | perform hOld hExecuting =>
      apply completing_set hOld hWorker hCompleting rfl
      intro hNew
      cases hNew
  | finish hOld hExecuting =>
      apply completing_set hOld hWorker hCompleting rfl
      intro hNew
      cases hNew
      exact Or.inr rfl
  | complete hOld hActive =>
      apply completing_set hOld hWorker hCompleting rfl
      intro hNew
      cases hNew
  | _ => exact Or.inl ⟨worker, hWorker, rfl, hCompleting⟩

/- The step that finishes a job leaves it to be completed. -/
theorem Step.of_finished
    {s s' : State ε} {key : String} {c : CallId}
    (hStep : Step config s (.finished key c) s') :
    ∃ (w : WorkerId) (worker : Worker ε)
      (job : PartitionJob ε),
      s'.workers[w]? = some worker ∧ worker.key = key ∧
        worker.activity = .completing job ∧
        job.completion = c := by
  cases hStep with
  | @finish w worker job hWorker hExecuting =>
      refine ⟨w, { worker with activity := .completing job },
        job, ?_, rfl, rfl, rfl⟩
      simp [
        List.getElem?_set_of_lt' _ _
          (List.getElem?_eq_some_iff.mp hWorker).1]

/- A worker set in place that may be completing a job. -/
theorem completing_kept_set
    {s : State ε} {w v : WorkerId} {worker old new : Worker ε}
    {job : PartitionJob ε}
    (hOld : s.workers[v]? = some old)
    (hWorker : s.workers[w]? = some worker)
    (hActive : worker.activity = .completing job)
    (hNew :
      old.activity = .completing job →
        new.key = old.key ∧
          new.activity = .completing job) :
    ∃ worker', (s.workers.set v new)[w]? = some worker' ∧
      worker'.key = worker.key ∧
      worker'.activity = .completing job := by
  by_cases hEq : v = w
  · subst hEq
    rw [hWorker] at hOld
    cases hOld
    exact ⟨new,
      (Lists.getElem?_set_eq_some hWorker).mpr
        (Or.inl ⟨rfl, rfl⟩), hNew hActive⟩
  · exact ⟨worker,
      (Lists.getElem?_set_eq_some hOld).mpr
        (Or.inr ⟨hEq, hWorker⟩), rfl, hActive⟩

/- A worker stays at the completion of its job until it fires. -/
theorem Invariant.completing_kept
    {s s' : State ε} {e : Event ε}
    (hInv : Invariant s)
    (hStep : Step config s e s')
    {w : WorkerId} {worker : Worker ε}
    {job : PartitionJob ε}
    (hWorker : s.workers[w]? = some worker)
    (hActive : worker.activity = .completing job) :
    (∃ worker', s'.workers[w]? = some worker' ∧
        worker'.key = worker.key ∧
        worker'.activity = .completing job) ∨
      e = .completed worker.key job.completion := by
  have hSame :
      ∀ (v : WorkerId) (old : Worker ε)
        (queue : List (PartitionJob ε)) (phase : WorkerPhase),
        s.workers[v]? = some old →
        ∃ worker',
          (s.workers.set v { old with
              queue := queue
              phase := phase })[w]? = some worker' ∧
            worker'.key = worker.key ∧
            worker'.activity = .completing job := by
    intro v old queue phase hOld
    exact completing_kept_set hOld hWorker hActive
      (fun hSame => ⟨rfl, hSame⟩)
  cases hStep with
  | send hCall hPhase hOld hLive hRoom =>
      exact Or.inl (hSame _ _ _ _ hOld)
  | handle hRunning hCommands =>
      refine Or.inl ?_
      have hTurn := hInv.handle hRunning hCommands
      rcases hTurn.workers_kept hWorker with
        hKept | ⟨_, hAnswered⟩
      · exact ⟨worker, hKept, rfl, hActive⟩
      · exact ⟨_, hAnswered, rfl, hActive⟩
  | panicRegistry hRunning hCommands hSpawns hOver =>
      exact absurd config.capacity_le (Nat.not_le.mpr hOver)
  | stopRegistry hRunning hCommands hNone =>
      rw [hInv.stopRegistry_eq hNone]
      exact Or.inl ⟨worker, hWorker, rfl, hActive⟩
  | @receive v old other rest hOld hReceives hIdle hQueue =>
      refine Or.inl
        (completing_kept_set hOld hWorker hActive ?_)
      intro hBusy
      rw [hIdle] at hBusy
      cases hBusy
  | close hOld => exact Or.inl (hSame _ _ _ _ hOld)
  | timeout hOld => exact Or.inl (hSame _ _ _ _ hOld)
  | upgrade hOld => exact Or.inl (hSame _ _ _ _ hOld)
  | upgradeFailed hOld => exact Or.inl (hSame _ _ _ _ hOld)
  | announce hOld => exact Or.inl (hSame _ _ _ _ hOld)
  | announceFailed hOld => exact Or.inl (hSame _ _ _ _ hOld)
  | resume hOld => exact Or.inl (hSame _ _ _ _ hOld)
  | drain hOld => exact Or.inl (hSame _ _ _ _ hOld)
  | @retire v old hOld hPhase =>
      refine Or.inl ?_
      have hSet := hSame v old old.queue .stopped hOld
      by_cases hRunning : s.registryRunning = true
      · simpa [hRunning] using hSet
      · simpa [hRunning] using hSet
  | perform hOld hExecuting =>
      refine Or.inl
        (completing_kept_set hOld hWorker hActive ?_)
      intro hBusy
      rw [hExecuting] at hBusy
      cases hBusy
  | finish hOld hExecuting =>
      refine Or.inl
        (completing_kept_set hOld hWorker hActive ?_)
      intro hBusy
      rw [hExecuting] at hBusy
      cases hBusy
  | @complete v old other hOld hCompleting =>
      by_cases hEq : v = w
      · subst hEq
        rw [hWorker] at hOld
        cases hOld
        rw [hActive] at hCompleting
        cases hCompleting
        exact Or.inr rfl
      · exact Or.inl ⟨worker,
          (Lists.getElem?_set_eq_some hOld).mpr
            (Or.inr ⟨hEq, hWorker⟩), rfl, hActive⟩
  | _ => exact Or.inl ⟨worker, hWorker, rfl, hActive⟩

/- The calls a state keeps: made once, they stay. -/
theorem Invariant.call_kept
    {s s' : State ε} {e : Event ε}
    (hInv : Invariant s)
    (hStep : Step config s e s')
    {c : CallId} {call : Call ε}
    (hCall : s.calls[c]? = some call) :
    ∃ call', s'.calls[c]? = some call' ∧
      call'.key = call.key ∧ call'.task = call.task ∧
      (call.phase.HasSent → call'.phase.HasSent) := by
  rcases hInv.call_moves hStep hCall with
    ⟨phase, hCall', hMove⟩
  exact ⟨_, hCall', rfl, rfl, hMove.hasSent⟩

/- One step extends the chronicle. -/
theorem Chronicle.step
    {trace : List (Event ε)} {s s' : State ε} {e : Event ε}
    (hChron : Chronicle trace s)
    (hInv : Invariant s)
    (hStep : Step config s e s') :
    Chronicle (trace ++ [e]) s' where
  called_call := by
    intro key c task hMem
    rw [List.mem_append, List.mem_singleton] at hMem
    rcases hMem with hOld | rfl
    · rcases hChron.called_call key c task hOld with
        ⟨call, hCall⟩
      rcases hInv.call_kept hStep hCall with ⟨call', hCall', _⟩
      exact ⟨call', hCall'⟩
    · cases hStep with
      | call hHandles =>
          exact ⟨⟨key, task, .acquiring⟩, by simp⟩
  queued_call := by
    intro key job hMem
    rw [List.mem_append, List.mem_singleton] at hMem
    rcases hMem with hOld | rfl
    · rcases hChron.queued_call key job hOld with
        ⟨call, hCall, hKey, hTask, hSent⟩
      rcases hInv.call_kept hStep hCall with
        ⟨call', hCall', hKey', hTask', hSent'⟩
      exact ⟨call', hCall', hKey'.trans hKey,
        hTask'.trans hTask, hSent' hSent⟩
    · rcases hStep.of_queued with
        ⟨call, w, _, hKey, hTask, _, hCall'⟩
      exact ⟨_, hCall', hKey, hTask, trivial⟩
  sent_queued := by
    intro c call' hCall' hSent
    rw [List.mem_append, List.mem_singleton]
    rcases hInv.calls_inv hStep hCall' with
      ⟨call, hCall, hKey, hTask, hMove⟩ | ⟨_, hPhase⟩
    · rw [hKey, hTask]
      rcases hMove.hasSent_inv hSent with hBefore | hEvent
      · exact Or.inl (hChron.sent_queued c call hCall hBefore)
      · exact Or.inr hEvent.symm
    · rw [hPhase] at hSent
      cases hSent
  returned_queued := by
    intro key c hMem
    rw [List.mem_append, List.mem_singleton] at hMem
    have hQueued :
        ∃ job, Event.queued key job ∈ trace ∧
          job.completion = c := by
      rcases hMem with hOld | rfl
      · exact hChron.returned_queued key c hOld
      · rcases hStep.of_returned with
          ⟨call, w, hCall, hKey, hPhase⟩
        have hSent : call.phase.HasSent := by
          simp [hPhase, CallPhase.HasSent]
        have hBefore := hChron.sent_queued c call hCall hSent
        rw [hKey] at hBefore
        exact ⟨_, hBefore, rfl⟩
    rcases hQueued with ⟨job, hJob, hCall⟩
    exact ⟨job, List.mem_append_left _ hJob, hCall⟩
  cancelled := by
    intro c call' hCall' hPhase
    rw [List.mem_append, List.mem_singleton]
    rcases hInv.calls_inv hStep hCall' with
      ⟨call, hCall, _, _, hMove⟩ | ⟨_, hNew⟩
    · rcases hMove.cancelled_inv hPhase with
        hBefore | hEvent
      · exact Or.inl (hChron.cancelled c call hCall hBefore)
      · exact Or.inr hEvent.symm
    · rw [hNew] at hPhase
      cases hPhase
  queued_once := by
    intro key
    rcases queuedCalls_append key trace e with
      ⟨job, rfl, hAppend⟩ | hSame
    · rw [hAppend, ← List.concat_eq_append]
      apply (hChron.queued_once key).concat
      intro hMem
      rcases mem_queuedCalls_iff.mp hMem with
        ⟨job', hQueued, hCall'⟩
      rcases hChron.queued_call key job' hQueued with
        ⟨call, hCall, _, _, hSent⟩
      rcases hStep.of_queued with
        ⟨other, w, hOther, _, _, hPhase, _⟩
      rw [hCall', hOther] at hCall
      cases hCall
      rw [hPhase] at hSent
      cases hSent
    · rw [hSame]
      exact hChron.queued_once key
  completing_finished := by
    intro w worker job hWorker hCompleting
    rw [List.mem_append, List.mem_singleton]
    rcases hInv.completing_inv hStep hWorker hCompleting with
      ⟨before, hBefore, hKey, hSame⟩ | hEvent
    · rw [← hKey]
      exact Or.inl
        (hChron.completing_finished w before job hBefore hSame)
    · exact Or.inr hEvent.symm
  finished_completed := by
    intro key c hMem
    rw [List.mem_append, List.mem_singleton] at hMem
    rcases hMem with hOld | hNow
    · rcases hChron.finished_completed key c hOld with
        hDone | ⟨w, worker, job, hWorker, hKey, hActive, hJob⟩
      · exact Or.inl (List.mem_append_left _ hDone)
      · rcases hInv.completing_kept hStep hWorker hActive with
          ⟨worker', hWorker', hKey', hActive'⟩ | hEvent
        · exact Or.inr ⟨w, worker', job, hWorker',
            hKey'.trans hKey, hActive', hJob⟩
        · rw [hKey, hJob] at hEvent
          exact Or.inl (by simp [hEvent])
    · subst hNow
      exact Or.inr hStep.of_finished

/- The chronicle of every run. -/
theorem chronicle_of_reachable
    {config : BoundedConfig}
    {trace : List (Event ε)}
    {s : State ε}
    (hReach : (lts ε config).Reachable trace s) :
    Chronicle trace s := by
  induction hReach with
  | @initial s hStart =>
      have hEq : s = State.start := hStart
      subst hEq
      constructor <;>
        simp [State.start, queuedCalls, domainTrace,
          FifoServer.enqueued]
  | step hReach hStep ih =>
      exact ih.step (invariant_of_reachable hReach) hStep

end Partitioner

end Qanat
