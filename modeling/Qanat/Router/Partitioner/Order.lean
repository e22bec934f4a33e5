import Qanat.Router.Partitioner.Chronicle

/-
  Tasks are neither lost nor duplicated, and tasks of one key
  run in the order they were submitted.

  Main declarations:
    * `Partitioner.Place`, `Partitioner.State.At`
    * `Partitioner.RunsInOrder`
    * `Partitioner.tasks_run_once_in_order_iff`
-/

------------------------------------------------------------
-- Places
------------------------------------------------------------

namespace Qanat

namespace Partitioner

open Transition

variable {ε : Type} {config : BoundedConfig}

/- Where the task of a call of `submit_task` can be. -/
inductive Place where
| submitter
| queue (worker : WorkerId)
| running (worker : WorkerId)
| finished
deriving DecidableEq, Repr

/- The task of the call is at the place. -/
def State.At
    (s : State ε) (trace : List (Event ε)) (c : CallId) :
    Place → Prop
| .submitter =>
    ∃ call, s.calls[c]? = some call ∧ call.phase.OwnsJob
| .queue w =>
    ∃ (worker : Worker ε) (job : PartitionJob ε),
      s.workers[w]? = some worker ∧
        job ∈ worker.queue ∧ job.completion = c
| .running w =>
    ∃ (worker : Worker ε) (job : PartitionJob ε),
      s.workers[w]? = some worker ∧
        worker.activity.executing? = some job ∧
        job.completion = c
| .finished => ∃ key, Event.finished key c ∈ trace

/- Only live workers have jobs. -/
theorem Invariant.live_of_job
    {s : State ε} {w : WorkerId} {worker : Worker ε}
    {job : PartitionJob ε}
    (hInv : Invariant s)
    (hWorker : s.workers[w]? = some worker)
    (hJob : job ∈ worker.jobs) :
    worker.Live := by
  by_contra hStopped
  have hDone := hInv.abandoned_of_not_live hWorker hStopped
  simp [Worker.jobs, hDone.1, hDone.2.1, Activity.job?]
    at hJob

/- The server of a key with the jobs it has been given. -/
structure Served
    (trace : List (Event ε)) (s : State ε) (key : String)
    (done waiting : List CallId)
    (current : Option CallId) : Prop where
  queued :
    queuedCalls key trace =
      done ++ current.toList ++ waiting
  started :
    FifoServer.started (domainTrace key trace) =
      done ++ current.toList
  finished :
    FifoServer.finished (domainTrace key trace) = done
  serves :
    ∃ t, Serves s.workers key t ∧
      t.waiting.map Prod.fst = waiting ∧
      t.serving.map Prod.fst = current

/- The history of a server, as far as its calls go. -/
theorem served_of_history
    {trace : List (Event ε)} {s : State ε} {key : String}
    {t : FifoServer.State CallId ε}
    {done : List (CallId × List ε)}
    {current : Option (CallId × List ε × List ε)}
    (hServes : Serves s.workers key t)
    (hHistory :
      FifoServer.History (domainTrace key trace) t done
        current) :
    Served trace s key (done.map Prod.fst)
      (t.waiting.map Prod.fst) (t.serving.map Prod.fst) where
  queued := by
    unfold queuedCalls
    rw [hHistory.enqueued_eq, hHistory.serving_eq]
    cases current <;> simp
  started := by
    rw [hHistory.started_eq, hHistory.serving_eq]
    cases current <;> simp
  finished := hHistory.finished_eq
  serves := ⟨t, hServes, rfl, rfl⟩

/- At any time of a run the server of a key is at some job. -/
theorem served_of_reachable
    {config : BoundedConfig}
    {trace : List (Event ε)}
    {s : State ε}
    (hReach : (lts ε config).Reachable trace s)
    (key : String) :
    ∃ done waiting current,
      Served trace s key done waiting current := by
  rcases domain_refines_fifoServer hReach key with
    ⟨t, hServer, hServes⟩
  rcases FifoServer.history_of_reachable hServer with
    ⟨done, current, hHistory⟩
  exact ⟨_, _, _, served_of_history hServes hHistory⟩

end Partitioner

end Qanat

------------------------------------------------------------
-- Exactly One Place
------------------------------------------------------------

namespace Qanat

namespace Partitioner

open Transition

variable {ε : Type} {config : BoundedConfig}

/- A job in a queue waits at the server of its key. -/
theorem Invariant.waiting_of_queue
    {s : State ε} {w : WorkerId} {worker : Worker ε}
    {job : PartitionJob ε}
    {t : FifoServer.State CallId ε}
    (hInv : Invariant s)
    (hWorker : s.workers[w]? = some worker)
    (hJob : job ∈ worker.queue)
    (hServes : Serves s.workers worker.key t) :
    job.completion ∈ t.waiting.map Prod.fst := by
  have hLive : worker.Live :=
    hInv.live_of_job hWorker
      (Worker.mem_jobs_of_mem_queue hJob)
  rw [hInv.eq_server hWorker hLive hServes]
  simp only [Worker.server, List.map_map, List.mem_map]
  exact ⟨job, hJob, rfl⟩

/- A job being executed is in service at the server. -/
theorem Invariant.serving_of_running
    {s : State ε} {w : WorkerId} {worker : Worker ε}
    {job : PartitionJob ε}
    {t : FifoServer.State CallId ε}
    (hInv : Invariant s)
    (hWorker : s.workers[w]? = some worker)
    (hActivity : worker.activity.executing? = some job)
    (hServes : Serves s.workers worker.key t) :
    t.serving.map Prod.fst = some job.completion := by
  have hLive : worker.Live :=
    hInv.live_of_job hWorker
      (Worker.mem_jobs_of_executing hActivity)
  rw [hInv.eq_server hWorker hLive hServes]
  cases hActive : worker.activity with
  | executing job' rest =>
      have hSame : job' = job := by
        simpa [hActive, Activity.executing?] using hActivity
      simp [Worker.server, hActive, Activity.serving?, hSame]
  | _ => simp [hActive, Activity.executing?] at hActivity

/- The live worker of the key. -/
def State.Runs (s : State ε) (w : WorkerId) (key : String) :
    Prop :=
  ∃ worker : Worker ε,
    s.workers[w]? = some worker ∧ worker.Live ∧
      worker.key = key

/- The place of a task as the server of its key has it. -/
def State.PlacedBy
    (s : State ε) (c : CallId) (call : Call ε)
    (done waiting : List CallId) (current : Option CallId) :
    Place → Prop
| .submitter => call.phase.OwnsJob
| .queue w => c ∈ waiting ∧ s.Runs w call.key
| .running w => current = some c ∧ s.Runs w call.key
| .finished => c ∈ done

/- A key is run by one worker. -/
theorem Invariant.runs_unique
    {s : State ε} {w v : WorkerId} {key : String}
    (hInv : Invariant s)
    (hRuns : s.Runs w key)
    (hOther : s.Runs v key) :
    w = v := by
  rcases hRuns with ⟨worker, hWorker, hLive, hKey⟩
  rcases hOther with ⟨other, hOther, hOtherLive, hOtherKey⟩
  exact hInv.live_unique hWorker hOther hLive hOtherLive
    (hKey.trans hOtherKey.symm)

/-
  A task past its submitter has been given to the server of
  the key of its call, and is where that server has it.
-/
theorem placedBy_of_at
    {trace : List (Event ε)} {s : State ε} {c : CallId}
    {call : Call ε} {done waiting : List CallId}
    {current : Option CallId} {place : Place}
    (hInv : Invariant s)
    (hFinished :
      ∀ key, Event.finished key c ∈ trace → key = call.key)
    (hServed :
      Served trace s call.key done waiting current)
    (hCall : s.calls[c]? = some call)
    (hAt : s.At trace c place) :
    s.PlacedBy c call done waiting current place := by
  rcases hServed.serves with ⟨t, hServes, hWaiting, hCurrent⟩
  cases place with
  | submitter =>
      rcases hAt with ⟨call', hCall', hOwns⟩
      rw [hCall] at hCall'
      cases hCall'
      exact hOwns
  | queue w =>
      rcases hAt with ⟨worker, job, hWorker, hJob, rfl⟩
      have hMem : job ∈ worker.jobs :=
        Worker.mem_jobs_of_mem_queue hJob
      have hKey : worker.key = call.key := by
        rcases hInv.job_call w worker job hWorker hMem with
          ⟨call', hCall', hKey, _⟩
        rw [hCall] at hCall'
        cases hCall'
        exact hKey.symm
      rw [← hKey] at hServes
      have hWaits :=
        hInv.waiting_of_queue hWorker hJob hServes
      rw [hWaiting] at hWaits
      exact ⟨hWaits, worker, hWorker,
        hInv.live_of_job hWorker hMem, hKey⟩
  | running w =>
      rcases hAt with ⟨worker, job, hWorker, hActivity, rfl⟩
      have hMem : job ∈ worker.jobs :=
        Worker.mem_jobs_of_executing hActivity
      have hKey : worker.key = call.key := by
        rcases hInv.job_call w worker job hWorker hMem with
          ⟨call', hCall', hKey, _⟩
        rw [hCall] at hCall'
        cases hCall'
        exact hKey.symm
      rw [← hKey] at hServes
      have hServing :=
        hInv.serving_of_running hWorker hActivity hServes
      rw [hCurrent] at hServing
      exact ⟨hServing, worker, hWorker,
        hInv.live_of_job hWorker hMem, hKey⟩
  | finished =>
      rcases hAt with ⟨key, hMem⟩
      have hKey := hFinished key hMem
      subst hKey
      have hDone := finish_mem_domainTrace_iff.mpr hMem
      rw [← FifoServer.mem_finished_iff,
        hServed.finished] at hDone
      exact hDone

/- The server tells where a task it was given is. -/
theorem exists_at_of_served
    {trace : List (Event ε)} {s : State ε} {c : CallId}
    {key : String} {done waiting : List CallId}
    {current : Option CallId}
    (hServed : Served trace s key done waiting current)
    (hQueued : c ∈ queuedCalls key trace) :
    ∃ place, s.At trace c place ∧ place ≠ .submitter := by
  rcases hServed.serves with ⟨t, hServes, hWaiting, hCurrent⟩
  rw [hServed.queued, List.mem_append,
    List.mem_append] at hQueued
  rcases hQueued with (hDone | hNow) | hLater
  · rw [← hServed.finished, FifoServer.mem_finished_iff,
      finish_mem_domainTrace_iff] at hDone
    exact ⟨.finished, ⟨key, hDone⟩, by simp⟩
  · have hServing : t.serving.map Prod.fst = some c := by
      rw [hCurrent]
      simpa using hNow
    rcases hServes with
      ⟨w, worker, hWorker, _, _, rfl⟩ | ⟨_, rfl⟩
    · cases hActive : worker.activity with
      | executing job rest =>
          have hSame : job.completion = c := by
            simpa [Worker.server, hActive, Activity.serving?]
              using hServing
          exact ⟨.running w, ⟨worker, job, hWorker, by
            simp [hActive, Activity.executing?], hSame⟩,
            by simp⟩
      | _ =>
          simp [Worker.server, hActive, Activity.serving?]
            at hServing
    · simp [FifoServer.State.empty] at hServing
  · rw [← hWaiting] at hLater
    rcases hServes with
      ⟨w, worker, hWorker, _, _, rfl⟩ | ⟨_, rfl⟩
    · simp only [Worker.server, List.map_map,
        List.mem_map] at hLater
      rcases hLater with ⟨job, hJob, hSame⟩
      exact ⟨.queue w, ⟨worker, job, hWorker, hJob, hSame⟩,
        by simp⟩
    · simp [FifoServer.State.empty] at hLater

end Partitioner

end Qanat

------------------------------------------------------------
-- Runs
------------------------------------------------------------

namespace Qanat

namespace Partitioner

open Transition

variable {ε : Type} {config : BoundedConfig}

/- A started job was queued by a call of the same key. -/
theorem call_of_started
    {trace : List (Event ε)} {s : State ε}
    (hReach : (lts ε config).Reachable trace s)
    {key : String} {c : CallId}
    (hStarted : Event.started key c ∈ trace) :
    c ∈ queuedCalls key trace ∧
      ∃ call, s.calls[c]? = some call ∧ call.key = key ∧
        call.phase.HasSent := by
  rcases served_of_reachable hReach key with
    ⟨done, waiting, current, hServed⟩
  have hMem := start_mem_domainTrace_iff.mpr hStarted
  rw [← FifoServer.mem_started_iff,
    hServed.started] at hMem
  have hQueued : c ∈ queuedCalls key trace := by
    rw [hServed.queued]
    exact List.mem_append_left _ hMem
  rcases mem_queuedCalls_iff.mp hQueued with
    ⟨job, hJob, rfl⟩
  rcases (chronicle_of_reachable hReach).queued_call key job
      hJob with
    ⟨call, hCall, hKey, _, hSent⟩
  exact ⟨hQueued, call, hCall, hKey, hSent⟩

/- A finished job was started under the same key. -/
theorem started_of_finished
    {trace : List (Event ε)} {s : State ε}
    (hReach : (lts ε config).Reachable trace s)
    {key : String} {c : CallId}
    (hFinished : Event.finished key c ∈ trace) :
    Event.started key c ∈ trace := by
  rcases served_of_reachable hReach key with
    ⟨done, waiting, current, hServed⟩
  have hMem := finish_mem_domainTrace_iff.mpr hFinished
  rw [← FifoServer.mem_finished_iff,
    hServed.finished] at hMem
  rw [← start_mem_domainTrace_iff,
    ← FifoServer.mem_started_iff, hServed.started]
  exact List.mem_append_left _ hMem

/- The task of every call is in exactly one place. -/
theorem existsUnique_place
    {trace : List (Event ε)} {s : State ε}
    (hReach : (lts ε config).Reachable trace s)
    {c : CallId} {call : Call ε}
    (hCall : s.calls[c]? = some call)
    (hNoCancel : Event.cancelled c ∉ trace) :
    ∃! place, s.At trace c place := by
  have hInv := invariant_of_reachable hReach
  have hChron := chronicle_of_reachable hReach
  rcases served_of_reachable hReach call.key with
    ⟨done, waiting, current, hServed⟩
  have hKey :
      ∀ key, Event.finished key c ∈ trace →
        key = call.key := by
    intro key hMem
    rcases call_of_started hReach
        (started_of_finished hReach hMem) with
      ⟨_, call', hCall', hKey, _⟩
    rw [hCall] at hCall'
    cases hCall'
    exact hKey.symm
  have hOnce := hChron.queued_once call.key
  rw [hServed.queued] at hOnce
  have hLater :
      ∀ d, d ∈ done ++ current.toList → d ∉ waiting :=
    fun d hMem hWait =>
      (List.nodup_append.mp hOnce).2.2 d hMem d hWait rfl
  have hNow : ∀ d, d ∈ done → current ≠ some d := by
    intro d hMem hCurrent
    have hFront := (List.nodup_append.mp hOnce).1
    exact (List.nodup_append.mp hFront).2.2 d hMem d
      (by simp [hCurrent]) rfl
  have hPlace :
      ∀ place, s.At trace c place →
        s.PlacedBy c call done waiting current place :=
    fun place hAt =>
      placedBy_of_at hInv hKey hServed hCall hAt
  by_cases hSent : call.phase.HasSent
  · -- the server of the key has the task
    have hQueued : c ∈ queuedCalls call.key trace :=
      mem_queuedCalls_iff.mpr
        ⟨_, hChron.sent_queued c call hCall hSent, rfl⟩
    rcases exists_at_of_served hServed hQueued with
      ⟨place, hAt, hSubmitted⟩
    refine ⟨place, hAt, ?_⟩
    intro other hOther
    have hHere := hPlace place hAt
    have hThere := hPlace other hOther
    have hNotOwned : ¬ call.phase.OwnsJob := by
      intro hOwns
      cases hPhase : call.phase <;>
        simp [hPhase, CallPhase.HasSent,
          CallPhase.OwnsJob] at hSent hOwns
    cases place with
    | submitter => exact absurd rfl hSubmitted
    | queue w =>
        cases other with
        | submitter => exact absurd hThere hNotOwned
        | queue v =>
            rw [hInv.runs_unique hThere.2 hHere.2]
        | running v =>
            exact absurd hHere.1
              (hLater c (by simp [hThere.1]))
        | finished =>
            exact absurd hHere.1
              (hLater c (List.mem_append_left _ hThere))
    | running w =>
        cases other with
        | submitter => exact absurd hThere hNotOwned
        | queue v =>
            exact absurd hThere.1
              (hLater c (by simp [hHere.1]))
        | running v =>
            rw [hInv.runs_unique hThere.2 hHere.2]
        | finished => exact absurd hHere.1 (hNow c hThere)
    | finished =>
        cases other with
        | submitter => exact absurd hThere hNotOwned
        | queue v =>
            exact absurd hThere.1
              (hLater c (List.mem_append_left _ hHere))
        | running v => exact absurd hThere.1 (hNow c hHere)
        | finished => rfl
  · -- the submitter still has it
    have hOwns : call.phase.OwnsJob := by
      have hPanic := hInv.no_panic c call hCall
      have hCancel := hChron.cancelled c call hCall
      cases hPhase : call.phase <;>
        simp_all [CallPhase.HasSent, CallPhase.OwnsJob]
    refine ⟨.submitter, ⟨call, hCall, hOwns⟩, ?_⟩
    have hUnqueued : c ∉ queuedCalls call.key trace := by
      intro hMem
      rcases mem_queuedCalls_iff.mp hMem with ⟨job, hJob, rfl⟩
      rcases hChron.queued_call call.key job hJob with
        ⟨call', hCall', _, _, hSent'⟩
      rw [hCall] at hCall'
      cases hCall'
      exact hSent hSent'
    rw [hServed.queued] at hUnqueued
    simp only [List.mem_append, not_or] at hUnqueued
    intro other hOther
    have hThere := hPlace other hOther
    cases other with
    | submitter => rfl
    | queue v => exact absurd hThere.1 hUnqueued.2
    | running v =>
        exact absurd (by simp [hThere.1]) hUnqueued.1.2
    | finished => exact absurd hThere hUnqueued.1.1

end Partitioner

end Qanat

------------------------------------------------------------
-- Order
------------------------------------------------------------

namespace Qanat

namespace Partitioner

open Transition

variable {ε : Type} {config : BoundedConfig}

/- The call whose job a worker starts. -/
def Event.startedCall? : Event ε → Option CallId
| .started _ c => some c
| _ => none

/- The step that starts a job, seen from its worker. -/
theorem Step.of_startedCall
    {config : BoundedConfig} {s s' : State ε} {e : Event ε}
    {c : CallId}
    (hStep : Step config s e s')
    (hStarts : e.startedCall? = some c) :
    ∃ (w : WorkerId) (worker : Worker ε)
      (job : PartitionJob ε),
      s.workers[w]? = some worker ∧ job ∈ worker.queue ∧
        job.completion = c ∧ e = .started worker.key c := by
  cases hStep with
  | @receive w worker job rest hWorker hReceives hIdle
      hQueue =>
      have hSame : job.completion = c := by
        simpa [Event.startedCall?] using hStarts
      subst hSame
      exact ⟨w, worker, job, hWorker, by simp [hQueue], rfl,
        rfl⟩
  | _ => cases hStarts

/- A queued job has not been started under any key. -/
theorem not_started_of_queue
    {trace : List (Event ε)} {s : State ε}
    (hReach : (lts ε config).Reachable trace s)
    {w : WorkerId} {worker : Worker ε} {job : PartitionJob ε}
    (hWorker : s.workers[w]? = some worker)
    (hJob : job ∈ worker.queue) :
    ∀ key, Event.started key job.completion ∉ trace := by
  intro key hStarted
  have hInv := invariant_of_reachable hReach
  rcases call_of_started hReach hStarted with
    ⟨_, call, hCall, hKey, _⟩
  rcases hInv.job_call w worker job hWorker
      (Worker.mem_jobs_of_mem_queue hJob) with
    ⟨call', hCall', hWorkerKey, _⟩
  rw [hCall] at hCall'
  cases hCall'
  rw [hKey] at hWorkerKey
  subst hWorkerKey
  rcases served_of_reachable hReach worker.key with
    ⟨done, waiting, current, hServed⟩
  rcases hServed.serves with ⟨t, hServes, hWaiting, _⟩
  have hWaits := hInv.waiting_of_queue hWorker hJob hServes
  rw [hWaiting] at hWaits
  rw [← start_mem_domainTrace_iff,
    ← FifoServer.mem_started_iff,
    hServed.started] at hStarted
  have hOnce :=
    (chronicle_of_reachable hReach).queued_once worker.key
  rw [hServed.queued] at hOnce
  exact (List.nodup_append.mp hOnce).2.2 _ hStarted _ hWaits
    rfl

/- No job is started twice. -/
theorem started_once
    {trace : List (Event ε)} {s : State ε}
    (hReach : (lts ε config).Reachable trace s) :
    (trace.filterMap Event.startedCall?).Nodup := by
  induction hReach with
  | initial _ => exact List.nodup_nil
  | @step trace s s' e hReach hStep ih =>
      rw [List.filterMap_append]
      cases hStarts : e.startedCall? with
      | none => simpa [hStarts] using ih
      | some c =>
          rcases hStep.of_startedCall hStarts with
            ⟨w, worker, job, hWorker, hJob, rfl, _⟩
          have hFresh :
              job.completion ∉
                trace.filterMap Event.startedCall? := by
            intro hMem
            rcases List.mem_filterMap.mp hMem with
              ⟨e', hMem', hCall'⟩
            cases e' with
            | started key c =>
                have hSame : c = job.completion := by
                  simpa [Event.startedCall?] using hCall'
                subst hSame
                exact not_started_of_queue hReach hWorker hJob
                  key hMem'
            | _ => cases hCall'
          simp only [List.filterMap_cons, hStarts,
            List.filterMap_nil]
          rw [← List.concat_eq_append]
          exact ih.concat hFresh

/- The jobs in the queue of a worker are of different calls. -/
theorem queue_nodup
    {trace : List (Event ε)} {s : State ε}
    (hReach : (lts ε config).Reachable trace s)
    {w : WorkerId} {worker : Worker ε}
    (hWorker : s.workers[w]? = some worker) :
    (worker.queue.map PartitionJob.completion).Nodup := by
  have hInv := invariant_of_reachable hReach
  by_cases hLive : worker.Live
  · rcases served_of_reachable hReach worker.key with
      ⟨done, waiting, current, hServed⟩
    rcases hServed.serves with ⟨t, hServes, hWaiting, _⟩
    have hOnce :=
      (chronicle_of_reachable hReach).queued_once worker.key
    rw [hServed.queued] at hOnce
    have hQueue :
        waiting =
          worker.queue.map PartitionJob.completion := by
      rw [← hWaiting, hInv.eq_server hWorker hLive hServes]
      simp [Worker.server, Function.comp_def,
        PartitionJob.entry]
    rw [← hQueue]
    exact (List.nodup_append.mp hOnce).2.1
  · have hDone := hInv.abandoned_of_not_live hWorker hLive
    rw [hDone.1]
    exact List.nodup_nil

/- A completion fires only after its job has finished. -/
theorem finished_before_completed
    {trace : List (Event ε)} {s : State ε}
    (hReach : (lts ε config).Reachable trace s)
    {earlier later : List (Event ε)} {key : String}
    {c : CallId}
    (hTrace : trace = earlier ++ .completed key c :: later) :
    Event.finished key c ∈ earlier := by
  rcases hReach.before hTrace with ⟨r, r', hBefore, hStep⟩
  have hChron := chronicle_of_reachable hBefore
  cases hStep with
  | @complete w worker job hWorker hCompleting =>
      exact hChron.completing_finished w worker job hWorker
        hCompleting

/- A call made after another returned queues its job later. -/
theorem queued_in_order
    {trace : List (Event ε)} {s : State ε}
    (hReach : (lts ε config).Reachable trace s)
    {key : String} {a : CallId} {task : Task ε}
    {job : PartitionJob ε}
    (hOrder :
      Precedes (Event.returned key a)
        (Event.called key job.completion task) trace)
    (hQueued : Event.queued key job ∈ trace) :
    ∃ job', job'.completion = a ∧
      Precedes (Event.queued key job')
        (Event.queued key job) trace := by
  induction hReach with
  | initial _ => cases hQueued
  | @step trace s s' e hReach hStep ih =>
      have hChron := chronicle_of_reachable hReach
      rw [List.mem_append, List.mem_singleton] at hQueued
      rw [precedes_append_singleton_iff] at hOrder
      rcases hQueued with hBefore | hNow
      · rcases hOrder with hOld | ⟨_, hCalled⟩
        · rcases ih hOld hBefore with ⟨job', hCall, hPrecedes⟩
          exact ⟨job', hCall, hPrecedes.append_right e⟩
        · -- the call would have queued its job before it began
          rcases hChron.queued_call key job hBefore with
            ⟨call, hCall, _⟩
          subst hCalled
          generalize hName : job.completion = c at hStep hCall
          cases hStep with
          | call hHandles =>
              rw [List.getElem?_eq_none (Nat.le_refl _)]
                at hCall
              cases hCall
      · have hReturned : Event.returned key a ∈ trace := by
          rcases hOrder with hOld | ⟨hMem, _⟩
          · exact hOld.mem_left
          · exact hMem
        rcases hChron.returned_queued key a hReturned with
          ⟨job', hJob', hCall'⟩
        exact ⟨job', hCall', precedes_append_singleton_iff.mpr
          (Or.inr ⟨hJob', hNow⟩)⟩

/- What was submitted before `b` finishes before `b` starts. -/
theorem finished_before_started
    {trace : List (Event ε)} {s : State ε}
    (hReach : (lts ε config).Reachable trace s)
    {key : String} {a b : CallId} {task : Task ε}
    (hOrder :
      Precedes (Event.returned key a)
        (Event.called key b task) trace)
    (hStarted : Event.started key b ∈ trace) :
    Precedes (Event.finished key a) (Event.started key b)
      trace := by
  rcases mem_queuedCalls_iff.mp
      (call_of_started hReach hStarted).1 with
    ⟨job, hJob, rfl⟩
  rcases queued_in_order hReach hOrder hJob with
    ⟨job', rfl, hQueued⟩
  rcases domain_refines_fifoServer hReach key with
    ⟨t, hServer, _⟩
  have hServed :
      Precedes (FifoServer.Event.finish job'.completion)
        (FifoServer.Event.start job.completion)
        (domainTrace key trace) := by
    apply FifoServer.finish_precedes_start hServer
    · exact (chronicle_of_reachable hReach).queued_once key
    · exact hQueued.filterMap
        (ofKey_eq_enqueue_iff.mpr ⟨job', rfl, rfl, rfl⟩)
        (ofKey_eq_enqueue_iff.mpr ⟨job, rfl, rfl, rfl⟩)
    · exact start_mem_domainTrace_iff.mpr hStarted
  rcases hServed.of_filterMap with
    ⟨x, y, hFinish, hStart, hPrecedes⟩
  rw [ofKey_eq_finish_iff.mp hFinish,
    ofKey_eq_start_iff.mp hStart] at hPrecedes
  exact hPrecedes

/- The call whose completion a worker sends. -/
def Event.completedCall? : Event ε → Option CallId
| .completed _ c => some c
| _ => none

theorem Event.completedCall?_eq_some
    {e : Event ε} {c : CallId}
    (hCompletes : e.completedCall? = some c) :
    ∃ key, e = .completed key c := by
  cases e with
  | completed key d =>
      cases hCompletes
      exact ⟨key, rfl⟩
  | _ => cases hCompletes

theorem mem_completedCalls_iff
    {trace : List (Event ε)} {c : CallId} :
    c ∈ trace.filterMap Event.completedCall? ↔
      ∃ key, Event.completed key c ∈ trace := by
  constructor
  · intro hMem
    rcases List.mem_filterMap.mp hMem with
      ⟨e, hEvent, hCompletes⟩
    rcases Event.completedCall?_eq_some hCompletes with
      ⟨key, rfl⟩
    exact ⟨key, hEvent⟩
  · rintro ⟨key, hMem⟩
    exact List.mem_filterMap.mpr ⟨_, hMem, rfl⟩

/- The step that sends a completion. -/
theorem Step.of_completed
    {s s' : State ε} {key : String} {c : CallId}
    (hStep : Step config s (.completed key c) s') :
    ∃ (w : WorkerId) (worker : Worker ε)
      (job : PartitionJob ε),
      s.workers[w]? = some worker ∧
        worker.activity = .completing job ∧
        job.completion = c ∧
        s' = s.setWorker w
          { worker with activity := .none } := by
  cases hStep with
  | complete hWorker hActive =>
      exact ⟨_, _, _, hWorker, hActive, rfl, rfl⟩

/- The step that finishes a job, seen from before it. -/
theorem Step.of_finished_executing
    {s s' : State ε} {key : String} {c : CallId}
    (hStep : Step config s (.finished key c) s') :
    ∃ (w : WorkerId) (worker : Worker ε)
      (job : PartitionJob ε),
      s.workers[w]? = some worker ∧
        worker.activity.executing? = some job ∧
        job.completion = c := by
  cases hStep with
  | finish hWorker hExecuting =>
      exact ⟨_, _, _, hWorker, by
        simp [hExecuting, Activity.executing?], rfl⟩

/- Two workers do not complete the job of one call. -/
theorem Invariant.completing_unique
    {s : State ε} {w v : WorkerId} {worker other : Worker ε}
    {job job' : PartitionJob ε}
    (hInv : Invariant s)
    (hWorker : s.workers[w]? = some worker)
    (hOther : s.workers[v]? = some other)
    (hActive : worker.activity = .completing job)
    (hOtherActive : other.activity = .completing job')
    (hSame : job.completion = job'.completion) :
    w = v := by
  have hJob : job ∈ worker.jobs := by
    simp [Worker.jobs, hActive, Activity.job?]
  have hJob' : job' ∈ other.jobs := by
    simp [Worker.jobs, hOtherActive, Activity.job?]
  rcases hInv.job_call w worker job hWorker hJob with
    ⟨call, hCall, hKey, _⟩
  rcases hInv.job_call v other job' hOther hJob' with
    ⟨call', hCall', hKey', _⟩
  rw [← hSame, hCall] at hCall'
  cases hCall'
  exact hInv.live_unique hWorker hOther
    (hInv.live_of_job hWorker hJob)
    (hInv.live_of_job hOther hJob') (hKey.symm.trans hKey')

/- A job being executed has not been finished. -/
theorem not_finished_of_executing
    {trace : List (Event ε)} {s : State ε}
    (hReach : (lts ε config).Reachable trace s)
    {w : WorkerId} {worker : Worker ε} {job : PartitionJob ε}
    (hWorker : s.workers[w]? = some worker)
    (hActivity : worker.activity.executing? = some job) :
    ∀ key, Event.finished key job.completion ∉ trace := by
  intro key hFinished
  have hInv := invariant_of_reachable hReach
  rcases call_of_started hReach
      (started_of_finished hReach hFinished) with
    ⟨_, call, hCall, rfl, _⟩
  rcases hInv.job_call w worker job hWorker
      (Worker.mem_jobs_of_executing hActivity) with
    ⟨call', hCall', hKey, _⟩
  rw [hCall] at hCall'
  cases hCall'
  rw [hKey] at hFinished
  rcases served_of_reachable hReach worker.key with
    ⟨done, waiting, current, hServed⟩
  rcases hServed.serves with ⟨t, hServes, _, hCurrent⟩
  have hServing :=
    hInv.serving_of_running hWorker hActivity hServes
  rw [hCurrent] at hServing
  rw [← finish_mem_domainTrace_iff,
    ← FifoServer.mem_finished_iff,
    hServed.finished] at hFinished
  have hOnce :=
    (chronicle_of_reachable hReach).queued_once worker.key
  rw [hServed.queued] at hOnce
  have hFront := (List.nodup_append.mp hOnce).1
  exact (List.nodup_append.mp hFront).2.2 _ hFinished
    job.completion (by simp [hServing]) rfl

/- A job being completed has not been completed. -/
theorem not_completed_of_completing
    {trace : List (Event ε)} {s : State ε}
    (hReach : (lts ε config).Reachable trace s)
    {w : WorkerId} {worker : Worker ε} {job : PartitionJob ε}
    (hWorker : s.workers[w]? = some worker)
    (hActive : worker.activity = .completing job) :
    ∀ key, Event.completed key job.completion ∉ trace := by
  induction hReach generalizing w worker with
  | initial _ => simp
  | @step trace s s' e hReach hStep ih =>
      have hInv := invariant_of_reachable hReach
      intro key hMem
      rw [List.mem_append, List.mem_singleton] at hMem
      rcases hInv.completing_inv hStep hWorker hActive with
        ⟨before, hBefore, hKey, hWas⟩ | rfl
      · rcases hMem with hOld | rfl
        · exact ih hBefore hWas key hOld
        · -- the worker would have dropped the job
          rcases Step.of_completed hStep with
            ⟨v, other, job', hOther, hOtherActive, hCall,
              rfl⟩
          have hSame := hInv.completing_unique hOther hBefore
            hOtherActive hWas hCall
          subst hSame
          rw [State.setWorker_workers,
            Lists.getElem?_set_eq_some hOther] at hWorker
          rcases hWorker with ⟨_, rfl⟩ | ⟨hNe, _⟩
          · cases hActive
          · exact hNe rfl
      · rcases hMem with hOld | hNow
        · rcases List.mem_iff_append.mp hOld with
            ⟨earlier, later, hTrace⟩
          have hFinished :
              Event.finished key job.completion ∈ trace := by
            rw [hTrace]
            exact List.mem_append_left _
              (finished_before_completed hReach hTrace)
          rcases Step.of_finished_executing hStep with
            ⟨v, other, job', hOther, hExecuting, hCall⟩
          rw [← hCall] at hFinished
          exact not_finished_of_executing hReach hOther
            hExecuting key hFinished
        · cases hNow

/- No completion fires twice. -/
theorem completed_once
    {trace : List (Event ε)} {s : State ε}
    (hReach : (lts ε config).Reachable trace s) :
    (trace.filterMap Event.completedCall?).Nodup := by
  induction hReach with
  | initial _ => exact List.nodup_nil
  | @step trace s s' e hReach hStep ih =>
      rw [List.filterMap_append]
      cases hCompletes : e.completedCall? with
      | none => simpa [hCompletes] using ih
      | some c =>
          have hFresh :
              c ∉ trace.filterMap Event.completedCall? := by
            intro hMem
            rcases mem_completedCalls_iff.mp hMem with
              ⟨key, hMem'⟩
            rcases Event.completedCall?_eq_some hCompletes
              with ⟨key', rfl⟩
            rcases Step.of_completed hStep with
              ⟨w, worker, job, hWorker, hActive, rfl, _⟩
            exact not_completed_of_completing hReach hWorker
              hActive key hMem'
          simp only [List.filterMap_cons, hCompletes,
            List.filterMap_nil]
          rw [← List.concat_eq_append]
          exact ih.concat hFresh

/-
  Every task is in exactly one place, no job starts twice,
  completions fire after their jobs, and calls of one key
  that follow each other run in that order.
-/
structure RunsInOrder
    (trace : List (Event ε)) (s : State ε) : Prop where
  one_place :
    ∀ c, c < s.calls.length → ∃! place, s.At trace c place
  jobs :
    ∀ (w : WorkerId) (worker : Worker ε),
      s.workers[w]? = some worker →
        (worker.queue.map PartitionJob.completion).Nodup ∧
        ∀ job ∈ worker.jobs,
          worker.Live ∧
          ∃ call, s.calls[job.completion]? = some call ∧
            call.key = worker.key ∧ call.task = job.task
  started_once : (trace.filterMap Event.startedCall?).Nodup
  completed_late :
    ∀ earlier key c later,
      trace = earlier ++ .completed key c :: later →
        Event.finished key c ∈ earlier
  in_order :
    ∀ key a b task,
      Precedes (Event.returned key a)
          (Event.called key b task) trace →
        Event.started key b ∈ trace →
          Precedes (Event.finished key a)
            (Event.started key b) trace

/- A domain that can make its channels runs tasks in order. -/
theorem runsInOrder_of_reachable
    {trace : List (Event ε)} {s : State ε}
    (hReach : (lts ε config).Reachable trace s)
    (hNoCancel : ∀ c, Event.cancelled c ∉ trace) :
    RunsInOrder trace s where
  one_place := by
    intro c hBound
    exact existsUnique_place hReach
      (List.getElem?_eq_getElem hBound) (hNoCancel c)
  jobs := by
    have hInv := invariant_of_reachable hReach
    intro w worker hWorker
    refine ⟨queue_nodup hReach hWorker, ?_⟩
    intro job hJob
    exact ⟨hInv.live_of_job hWorker hJob,
      hInv.job_call w worker job hWorker hJob⟩
  started_once := started_once hReach
  completed_late := by
    intro earlier key c later hTrace
    exact finished_before_completed hReach hTrace
  in_order := by
    intro key a b task hOrder hStarted
    exact finished_before_started hReach hOrder hStarted

/- The task of a call that panicked is nowhere. -/
theorem lost_nowhere (key : String) (task : Task ε) :
    ¬ RunsInOrder (lostTrace key task)
      (lostState key task) := by
  intro hRuns
  rcases hRuns.one_place 0 Nat.one_pos with ⟨place, hAt, _⟩
  cases place with
  | submitter =>
      rcases hAt with ⟨call, hCall, hOwns⟩
      cases hCall
      exact hOwns
  | queue w =>
      rcases hAt with ⟨worker, job, hWorker, _⟩
      cases hWorker
  | running w =>
      rcases hAt with ⟨worker, job, hWorker, _⟩
      cases hWorker
  | finished =>
      rcases hAt with ⟨other, hFinished⟩
      simp [lostTrace] at hFinished

/-
  In every run without cancellation tasks are run once and
  in order, exactly if the channel of a worker can have the
  capacity it is asked for.
-/
theorem tasks_run_once_in_order_iff
    (ε : Type) (config : Config) :
    (∀ (trace : List (Event ε)) (s : State ε),
      (lts ε config).Reachable trace s →
        (∀ c, Event.cancelled c ∉ trace) →
          RunsInOrder trace s) ↔
      config.capacity ≤ maxPermits := by
  constructor
  · intro hRuns
    by_contra hOver
    exact lost_nowhere "" ⟨[], false⟩
      (hRuns _ _ (lost_reachable (Nat.not_le.mp hOver) "" _)
        (by simp [lostTrace]))
  · intro hFits trace s hReach hNoCancel
    have hBounded :
        (lts ε (⟨config, hFits⟩ : BoundedConfig)).Reachable
          trace s := hReach
    exact runsInOrder_of_reachable hBounded hNoCancel

/- The task of a first call is discarded unexecuted. -/
theorem task_lost_huge :
    ¬ ∀ (trace : List (Event String)) (s : State String),
      (lts String hugeConfig).Reachable trace s →
        (∀ c, Event.cancelled c ∉ trace) →
          RunsInOrder trace s := by
  intro hRuns
  exact lost_nowhere "k" firstTask
    (hRuns _ _ (lost_reachable (by decide) "k" firstTask)
      (by simp [lostTrace]))

end Partitioner

end Qanat
