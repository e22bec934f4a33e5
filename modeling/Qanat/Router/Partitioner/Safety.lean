import Qanat.Router.Partitioner.Moves
import Qanat.Router.Partitioner.Overflow

/-
  What the invariant says about the partition domain: one
  job a key executes at a time, the entries of the registry
  are true, and no operation fails that the code expects to
  succeed, unless the registry dies making a channel.

  Main declarations:
    * `Partitioner.one_job_per_key`
    * `Partitioner.RegistrySound`
    * `Partitioner.registry_entries_sound_iff`
-/

------------------------------------------------------------
-- Mutual Exclusion
------------------------------------------------------------

namespace Qanat

namespace Partitioner

open Transition.Handover

variable {ε : Type} {config : BoundedConfig}

/- The worker is executing a job submitted under the key. -/
def State.Executes
    (s : State ε) (w : WorkerId) (key : String)
    (job : PartitionJob ε) :
    Prop :=
  ∃ (worker : Worker ε) (call : Call ε),
    s.workers[w]? = some worker ∧
      worker.activity.executing? = some job ∧
      s.calls[job.completion]? = some call ∧
      call.key = key

/- The worker is a new one in the second state. -/
def Spawned
    (s s' : State ε) (w : WorkerId) (worker : Worker ε) :
    Prop :=
  s.workers[w]? = none ∧ s'.workers[w]? = some worker

/- Nothing queued, nothing in hand and nobody to send more. -/
def State.Abandoned
    (s : State ε) (w : WorkerId) (worker : Worker ε) :
    Prop :=
  worker.queue = [] ∧ worker.activity = .none ∧
    ¬ s.HasSender w

/- An executing worker is live and of the key of its job. -/
theorem Invariant.live_of_executes
    {s : State ε} {w : WorkerId} {key : String}
    {job : PartitionJob ε}
    (hInv : Invariant s)
    (hExecutes : s.Executes w key job) :
    ∃ worker, s.workers[w]? = some worker ∧
      worker.Live ∧ worker.key = key ∧
      worker.activity.executing? = some job := by
  rcases hExecutes with
    ⟨worker, call, hWorker, hActivity, hCall, hKey⟩
  have hBusy : worker.activity ≠ .none := by
    intro hNone
    simp [hNone, Activity.executing?] at hActivity
  have hReceives :=
    hInv.busy_receives w worker hWorker hBusy
  have hLive : worker.Live := by
    intro hStopped
    simp [hStopped, WorkerPhase.Receives] at hReceives
  have hJob : job ∈ worker.jobs :=
    Worker.mem_jobs_of_executing hActivity
  rcases hInv.job_call w worker job hWorker hJob with
    ⟨call', hCall', hKey', _⟩
  have hSame : call = call' := by simpa [hCall] using hCall'
  refine ⟨worker, hWorker, hLive, ?_, hActivity⟩
  rw [← hKey', ← hSame, hKey]

/- Two live workers of one key are the same worker. -/
theorem Invariant.live_unique
    {s : State ε} {w v : WorkerId} {worker other : Worker ε}
    (hInv : Invariant s)
    (hWorker : s.workers[w]? = some worker)
    (hOther : s.workers[v]? = some other)
    (hLive : worker.Live)
    (hOtherLive : other.Live)
    (hKey : worker.key = other.key) :
    w = v :=
  hInv.coherent.unique w v worker.post other.post
    (post_of_worker hWorker) (post_of_worker hOther)
    (worker.post_live_iff.mpr hLive)
    (other.post_live_iff.mpr hOtherLive) hKey

/- A stopped worker is done, and nobody can send to it. -/
theorem Invariant.abandoned_of_not_live
    {s : State ε} {w : WorkerId} {worker : Worker ε}
    (hInv : Invariant s)
    (hWorker : s.workers[w]? = some worker)
    (hStopped : ¬ worker.Live) :
    s.Abandoned w worker := by
  have hDeaf : ¬ worker.Listens :=
    fun hListens => hStopped hListens.live
  have hPhase : worker.phase = .stopped := by
    by_contra hLive
    exact hStopped hLive
  refine ⟨hInv.deaf_empty w worker hWorker hDeaf,
    hInv.idle hWorker
      (by simp [hPhase, WorkerPhase.Receives]), ?_⟩
  rintro (⟨key, generation, hEntry⟩ |
    ⟨c, call, hCall, hSender⟩)
  · rcases hInv.coherent.active_post key generation w
        (shape_eq_active_iff.mpr hEntry) with
      ⟨p, hPost, _, _, hCharge⟩
    rw [post_of_worker hWorker] at hPost
    cases hPost
    exact hDeaf (worker.listens_of_inCharge hCharge)
  · rcases hInv.sender_listens c call w hCall hSender with
      ⟨worker', hWorker', hListens, _⟩
    have hSame : worker = worker' := by
      simpa [hWorker] using hWorker'
    rw [← hSame] at hListens
    exact hDeaf hListens

/- Steps other than registry turns spawn nobody. -/
theorem Step.workers_length
    {s s' : State ε} {e : Event ε}
    (hStep : Step config s e s')
    (hTurn : ∀ command verdict, e ≠ .handled command verdict) :
    s'.workers.length = s.workers.length := by
  cases hStep with
  | handle hRunning hCommands =>
      exact absurd rfl (hTurn _ _)
  | panicRegistry | stopRegistry => simp [State.stopRegistry]
  | @retire w worker hWorker hPhase =>
      by_cases hRunning : s.registryRunning = true <;>
        simp [hRunning]
  | _ => simp

/-
  A worker is spawned for a key without entry, or for one
  whose generation has announced that it is gone.
-/
theorem Turn.spawned_inv
    {s : State ε} {command : Command}
    {result : State ε × Verdict}
    (hTurn : Turn s command result)
    {w : WorkerId} {worker : Worker ε}
    (hSpawned : Spawned s result.1 w worker) :
    (∃ reply, command = .acquire worker.key reply ∧
        s.entries.lookup worker.key = none) ∨
      ∃ generation,
        command = .retired worker.key generation := by
  rcases hSpawned with ⟨hFresh, hNew⟩
  cases hTurn with
  | granted hEntry =>
      rw [State.grant_workers, hFresh] at hNew
      cases hNew
  | parked hEntry =>
      simp only [State.setEntry, hFresh] at hNew
      cases hNew
  | @spawned key reply hEntry =>
      simp only [State.grant_workers,
        State.spawnPartitionWorker] at hNew
      rcases Lists.getElem?_append_singleton_eq_some.mp hNew with
        hOld | ⟨_, rfl⟩
      · rw [hFresh] at hOld
        cases hOld
      · exact Or.inl ⟨reply, rfl, hEntry⟩
  | @accepted v other hWorker hPhase hEntry =>
      rcases (Lists.getElem?_set_eq_some hWorker).mp hNew with
        ⟨rfl, _⟩ | ⟨_, hOld⟩
      · rw [hWorker] at hFresh
        cases hFresh
      · rw [hFresh] at hOld
        cases hOld
  | vacated hEntry hClosed =>
      simp only [State.removeEntry, hFresh] at hNew
      cases hNew
  | @replaced key generation waiters hEntry =>
      simp only [State.foldl_grant_workers,
        State.spawnPartitionWorker,
        State.removeEntry] at hNew
      rcases Lists.getElem?_append_singleton_eq_some.mp hNew with
        hOld | ⟨_, rfl⟩
      · rw [hFresh] at hOld
        cases hOld
      · exact Or.inr ⟨generation, rfl⟩

/- No worker of a key lives when one is spawned for it. -/
theorem Invariant.not_live_of_spawned
    {s s' : State ε} {e : Event ε}
    (hInv : Invariant s)
    (hStep : Step config s e s')
    {w : WorkerId} {worker : Worker ε}
    (hSpawned : Spawned s s' w worker)
    {v : WorkerId} {old : Worker ε}
    (hOld : s.workers[v]? = some old)
    (hKey : old.key = worker.key) :
    ¬ old.Live := by
  by_cases hTurn :
      ∃ command verdict, e = .handled command verdict
  · rcases hTurn with ⟨command, verdict, hEvent⟩
    cases hStep with
    | handle hRunning hCommands =>
        have hExpected := hInv.handle hRunning hCommands
        intro hLive
        have hPostLive := old.post_live_iff.mpr hLive
        rcases hExpected.spawned_inv hSpawned with
          ⟨reply, rfl, hEntry⟩ | ⟨generation, rfl⟩
        · exact hInv.coherent.no_owner hRunning
            (shape_eq_none_iff.mpr hEntry) v old.post
            (post_of_worker hOld) hKey hPostLive
        · have hNotice :
              Notice.leaves worker.key generation ∈
                s.roster.notices :=
            leaves_mem_notices_iff.mpr (by simp [hCommands])
          exact hInv.coherent.leaves_stopped worker.key
            generation v old.post hNotice
            (post_of_worker hOld) hKey hPostLive
    | _ => cases hEvent
  · have hLength :
        s'.workers.length = s.workers.length := by
      apply hStep.workers_length
      intro command verdict hEvent
      exact hTurn ⟨command, verdict, hEvent⟩
    rcases hSpawned with ⟨hFresh, hNew⟩
    have hBelow := (List.getElem?_eq_some_iff.mp hNew).1
    have hAbove := List.getElem?_eq_none_iff.mp hFresh
    omega

/- The jobs of one key are one, in a domain with workers. -/
theorem Invariant.executes_unique
    {s : State ε}
    (hInv : Invariant s)
    {key : String} {w v : WorkerId}
    {job job' : PartitionJob ε}
    (hFirst : s.Executes w key job)
    (hSecond : s.Executes v key job') :
    w = v ∧ job = job' := by
  rcases hInv.live_of_executes hFirst with
    ⟨worker, hWorker, hLive, hKey, hJob⟩
  rcases hInv.live_of_executes hSecond with
    ⟨other, hOther, hOtherLive, hOtherKey, hOtherJob⟩
  have hSame : w = v :=
    hInv.live_unique hWorker hOther hLive hOtherLive
      (hKey.trans hOtherKey.symm)
  subst hSame
  rw [hWorker] at hOther
  cases hOther
  rw [hJob] at hOtherJob
  cases hOtherJob
  exact ⟨rfl, rfl⟩

/-
  In every reachable state at most one job submitted under a
  key executes, and a worker is spawned for a key only when
  every earlier worker of the key is done, its channel is
  empty and its senders are dropped.
-/
theorem one_job_per_key
    {config : Config}
    {trace : List (Event ε)}
    {s : State ε}
    (hReach : (lts ε config).Reachable trace s) :
    (∀ key w v job job',
      s.Executes w key job → s.Executes v key job' →
        w = v ∧ job = job') ∧
    (∀ e s' w worker,
      (lts ε config).step s e s' → Spawned s s' w worker →
        ∀ v old, s.workers[v]? = some old →
          old.key = worker.key → s.Abandoned v old) := by
  by_cases hFits : config.capacity ≤ maxPermits
  · have hBounded :
        (lts ε (⟨config, hFits⟩ : BoundedConfig)).Reachable
          trace s := hReach
    have hInv := invariant_of_reachable hBounded
    refine ⟨fun key w v job job' hFirst hSecond =>
      hInv.executes_unique hFirst hSecond, ?_⟩
    intro e s' w worker hStep hSpawned v old hOld hKey
    have hTaken :
        Step (⟨config, hFits⟩ : BoundedConfig) s e s' := hStep
    exact hInv.abandoned_of_not_live hOld
      (hInv.not_live_of_spawned hTaken hSpawned hOld hKey)
  · have hBarren :=
      barren_of_reachable (Nat.not_le.mp hFits) hReach
    constructor
    · rintro key w v job job' ⟨worker, call, hWorker, _⟩ _
      exact absurd hWorker hBarren.no_worker
    · intro e s' w worker hStep hSpawned v old hOld hKey
      exact absurd hOld hBarren.no_worker

end Partitioner

end Qanat

------------------------------------------------------------
-- A Run
------------------------------------------------------------

namespace Qanat

namespace Partitioner

open Transition

/- One handle, channels of one job. -/
def smallConfig : BoundedConfig where
  capacity := 1
  idleTimeout := 1
  capacity_pos := by decide
  idleTimeout_pos := by decide
  capacity_le := by decide

def firstTask : Task String where
  effects := ["first"]
  panics := false

def secondTask : Task String where
  effects := ["second"]
  panics := true

/-
  The job of `a` is done and its worker begins to retire;
  the worker of `b` is at its job.
-/
def retiringTrace : List (Event String) :=
  [.called "a" 0 firstTask,
    .called "b" 1 secondTask,
    .acquiring 0,
    .acquiring 1,
    .handled (.acquire "a" 0) .spawned,
    .handled (.acquire "b" 1) .spawned,
    .queued "b" ⟨secondTask, 1⟩,
    .queued "a" ⟨firstTask, 0⟩,
    .returned "b" 1,
    .returned "a" 0,
    .started "a" 0,
    .started "b" 1,
    .performed "a" 0 "first",
    .finished "a" 0,
    .completed "a" 0,
    .timedOut 0,
    .upgraded 0 true,
    .announced 0,
    .called "a" 2 secondTask,
    .handled (.beginRetirement "a" 1 0) (.retirement true),
    .acquiring 2,
    .handled (.acquire "a" 2) .parked,
    .resumed 0]

def retiringState : State String where
  handles := 1
  calls :=
    [⟨"a", firstTask, .returned⟩,
      ⟨"b", secondTask, .returned⟩,
      ⟨"a", secondTask, .awaiting⟩]
  commands := []
  entries :=
    ((∅ : AList (fun _ : String => Entry)).insert "b"
      (.active 2 1)).insert "a" (.retiring 1 [2])
  nextGeneration := 3
  registryRunning := true
  workers :=
    [⟨"a", 1, [], .draining true, .none⟩,
      ⟨"b", 2, [], .receiving,
        .executing ⟨secondTask, 1⟩ ["second"]⟩]

theorem retiring_reachable :
    (lts String smallConfig).Reachable retiringTrace
      retiringState := by
  have hStart :
      (lts String smallConfig).Reachable [] State.start :=
    Lts.Reachable.initial rfl
  have hCalled :=
    (hStart.step
      (@Step.call _ smallConfig _ "a" firstTask
        (by decide))).step
      (@Step.call _ smallConfig _ "b" secondTask
        (by decide))
  have hSent :=
    (hCalled.step
      (@Step.acquire _ smallConfig _ 0 _ rfl rfl rfl)).step
      (@Step.acquire _ smallConfig _ 1 _ rfl rfl rfl)
  have hSpawned :=
    (hSent.step (Step.handle rfl rfl (by decide))).step
      (Step.handle rfl rfl (by decide))
  have hQueued :=
    (hSpawned.step
      (@Step.send _ smallConfig _ 1 _ 1 _ rfl rfl rfl
        (by decide) (by decide))).step
      (@Step.send _ smallConfig _ 0 _ 0 _ rfl rfl rfl
        (by decide) (by decide))
  have hReturned :=
    (hQueued.step
      (@Step.return _ smallConfig _ 1 _ _ rfl rfl)).step
      (@Step.return _ smallConfig _ 0 _ _ rfl rfl)
  have hStarted :=
    (hReturned.step
      (@Step.receive _ smallConfig _ 0 _ _ _ rfl trivial rfl
        rfl)).step
      (@Step.receive _ smallConfig _ 1 _ _ _ rfl trivial rfl
        rfl)
  have hCompleted :=
    ((hStarted.step
      (@Step.perform _ smallConfig _ 0 _ _ _ _ rfl rfl)).step
      (@Step.finish _ smallConfig _ 0 _ _ rfl rfl)).step
      (@Step.complete _ smallConfig _ 0 _ _ rfl rfl)
  have hAnnounced :=
    ((hCompleted.step
      (@Step.timeout _ smallConfig _ 0 _ rfl rfl rfl)).step
      (@Step.upgrade _ smallConfig _ 0 _ rfl rfl
        (Or.inl (by decide)))).step
      (@Step.announce _ smallConfig _ 0 _ rfl rfl rfl)
  have hAccepted :=
    (hAnnounced.step
      (@Step.call _ smallConfig _ "a" secondTask
        (by decide))).step
      (Step.handle rfl rfl (by decide))
  have hParked :=
    (hAccepted.step
      (@Step.acquire _ smallConfig _ 2 _ rfl rfl rfl)).step
      (Step.handle rfl rfl (by decide))
  have hResumed :=
    hParked.step
      (@Step.resume _ smallConfig _ 0 _ _ rfl rfl)
  exact hResumed

/- The entry of `a` has no sender, and no call holds one. -/
theorem retiringState_not_hasSender :
    ¬ retiringState.HasSender 0 := by
  rintro (⟨key, generation, hEntry⟩ |
    ⟨c, call, hCall, hSender⟩)
  · by_cases hKey : key = "a"
    · subst hKey
      cases hEntry
    · by_cases hOther : key = "b"
      · subst hOther
        cases hEntry
      · rw [retiringState, AList.lookup_insert_ne hKey,
          AList.lookup_insert_ne hOther] at hEntry
        cases hEntry
  · match c with
    | 0 | 1 | 2 =>
        cases hCall
        cases hSender
    | _ + 3 => cases hCall

/- The next generation takes over while `b` goes on. -/
def takeoverTrace : List (Event String) :=
  retiringTrace ++
    [.drained 0,
      .retired 0,
      .handled (.retired "a" 1) .replaced,
      .queued "a" ⟨secondTask, 2⟩,
      .started "a" 2]

def takeoverState : State String where
  handles := 1
  calls :=
    [⟨"a", firstTask, .returned⟩,
      ⟨"b", secondTask, .returned⟩,
      ⟨"a", secondTask, .sent 2⟩]
  commands := []
  entries :=
    ((∅ : AList (fun _ : String => Entry)).insert "b"
      (.active 2 1)).insert "a" (.active 3 2)
  nextGeneration := 4
  registryRunning := true
  workers :=
    [⟨"a", 1, [], .stopped, .none⟩,
      ⟨"b", 2, [], .receiving,
        .executing ⟨secondTask, 1⟩ ["second"]⟩,
      ⟨"a", 3, [], .receiving,
        .executing ⟨secondTask, 2⟩ ["second"]⟩]

theorem takeover_reachable :
    (lts String smallConfig).Reachable takeoverTrace
      takeoverState := by
  have hDrained :=
    retiring_reachable.step
      (@Step.drain _ smallConfig _ 0 _ _ rfl rfl rfl rfl
        retiringState_not_hasSender)
  have hRetired :=
    hDrained.step (@Step.retire _ smallConfig _ 0 _ rfl rfl)
  have hReplaced :=
    hRetired.step (Step.handle rfl rfl (by decide))
  have hQueued :=
    hReplaced.step
      (@Step.send _ smallConfig _ 2 _ 2 _ rfl rfl rfl
        (by decide) (by decide))
  have hStarted :=
    hQueued.step
      (@Step.receive _ smallConfig _ 2 _ _ _ rfl trivial rfl
        rfl)
  exact hStarted

/- While the second generation executes, no other worker does. -/
theorem one_job_per_key_takeover :
    takeoverState.Executes 2 "a" ⟨secondTask, 2⟩ ∧
      takeoverState.Executes 1 "b" ⟨secondTask, 1⟩ ∧
      ∀ v job, takeoverState.Executes v "a" job →
        2 = v ∧ ⟨secondTask, 2⟩ = job := by
  have hExecutes :
      takeoverState.Executes 2 "a" ⟨secondTask, 2⟩ :=
    ⟨_, _, rfl, rfl, rfl, rfl⟩
  refine ⟨hExecutes, ⟨_, _, rfl, rfl, rfl, rfl⟩, ?_⟩
  intro v job hOther
  exact (one_job_per_key takeover_reachable).1 "a" 2 v _ job
    hExecutes hOther

end Partitioner

end Qanat

------------------------------------------------------------
-- The Entries of the Registry
------------------------------------------------------------

namespace Qanat

namespace Partitioner

open Transition.Handover

variable {ε : Type} {config : BoundedConfig}

/- The worker serves its key and has not begun to drain. -/
def WorkerPhase.IsRunning : WorkerPhase → Prop
| .receiving | .elapsed | .announcing | .retiring => True
| .answered accepted => accepted = false
| _ => False

/- The registry has let the worker go; it finishes its jobs. -/
def WorkerPhase.IsDraining : WorkerPhase → Prop
| .answered accepted => accepted = true
| .draining _ | .drained => True
| _ => False

/- Every entry, and every missing one, is true of the workers. -/
structure State.EntriesSound (s : State ε) : Prop where
  active :
    ∀ key generation w,
      s.entries.lookup key = some (.active generation w) →
        ∃ worker, s.workers[w]? = some worker ∧
          worker.key = key ∧
          worker.generation = generation ∧
          worker.phase.IsRunning
  retiring :
    ∀ key generation waiters,
      s.entries.lookup key =
          some (.retiring generation waiters) →
        (∃ (w : WorkerId) (worker : Worker ε),
          s.workers[w]? = some worker ∧
            worker.key = key ∧
            worker.generation = generation ∧
            worker.phase.IsDraining) ∨
          Command.retired key generation ∈ s.commands
  vacant :
    ∀ key, s.entries.lookup key = none →
      ∀ (w : WorkerId) (worker : Worker ε),
        s.workers[w]? = some worker → worker.key = key →
          ¬ worker.Live ∧ worker.jobs = []

/-
  In charge, and not draining because the registry is gone.
-/
theorem WorkerPhase.isRunning_of_inCharge
    {phase : WorkerPhase}
    (hCharge : phase.role.InCharge)
    (hAnnounced : phase ≠ .draining false) :
    phase.IsRunning := by
  cases phase with
  | answered accepted =>
      cases accepted
      · rfl
      · simp [WorkerPhase.role, Role.InCharge] at hCharge
  | draining announced =>
      cases announced
      · exact absurd rfl hAnnounced
      · simp [WorkerPhase.role, Role.InCharge] at hCharge
  | _ => simp_all [WorkerPhase.role, Role.InCharge,
      WorkerPhase.IsRunning]

theorem WorkerPhase.isDraining_of_retiring
    {phase : WorkerPhase}
    (hRole : phase.role = .retiring) :
    phase.IsDraining := by
  cases phase with
  | answered accepted =>
      cases accepted
      · simp [WorkerPhase.role] at hRole
      · rfl
  | draining announced => trivial
  | drained => trivial
  | _ => simp [WorkerPhase.role] at hRole

/- While a handle is alive the entries are true. -/
theorem Invariant.entriesSound
    {s : State ε}
    (hInv : Invariant s)
    (hHandles : 0 < s.handles) :
    s.EntriesSound where
  active := by
    intro key generation w hEntry
    rcases hInv.coherent.active_post key generation w
        (shape_eq_active_iff.mpr hEntry) with
      ⟨p, hPost, hKey, hGeneration, hCharge⟩
    rcases post_eq_some_iff.mp hPost with
      ⟨worker, hWorker, rfl⟩
    refine ⟨worker, hWorker, hKey, hGeneration, ?_⟩
    apply WorkerPhase.isRunning_of_inCharge hCharge
    intro hPhase
    exact hInv.unannounced w worker hWorker hPhase
      (Or.inl hHandles)
  retiring := by
    intro key generation waiters hEntry
    rcases hInv.coherent.retiring_post key generation
        (shape_eq_retiring_iff.mpr ⟨waiters, hEntry⟩) with
      ⟨w, hPost⟩ | hNotice
    · rcases post_eq_some_iff.mp hPost with
        ⟨worker, hWorker, hWorkerPost⟩
      refine Or.inl ⟨w, worker, hWorker,
        congrArg Post.key hWorkerPost,
        congrArg Post.generation hWorkerPost, ?_⟩
      exact WorkerPhase.isDraining_of_retiring
        (congrArg Post.role hWorkerPost)
    · exact Or.inr (leaves_mem_notices_iff.mp hNotice)
  vacant := by
    intro key hEntry w worker hWorker hKey
    have hRunning : s.registryRunning = true := by
      cases hRegistry : s.registryRunning with
      | true => rfl
      | false =>
          exact absurd (Or.inl hHandles)
            (hInv.registryOff hRegistry).1
    have hDead : ¬ worker.Live := by
      intro hLive
      exact hInv.coherent.no_owner hRunning
        (shape_eq_none_iff.mpr hEntry) w worker.post
        (post_of_worker hWorker) hKey
        (worker.post_live_iff.mpr hLive)
    have hDone := hInv.abandoned_of_not_live hWorker hDead
    exact ⟨hDead, by
      simp [Worker.jobs, hDone.1, hDone.2.1, Activity.job?]⟩

end Partitioner

end Qanat

------------------------------------------------------------
-- Faults
------------------------------------------------------------

namespace Qanat

namespace Partitioner

open Transition.Handover

variable {ε : Type} {config : BoundedConfig}

/-
  What the code provides for but expects not to happen: a
  failed `expect`, a failed send of a job, a refused
  retirement and a stale `Retired`.
-/
def Event.IsFault : Event ε → Prop
| .registryGone _ | .requestDropped _ | .sendFailed _ => True
| .handled _ (.retirement accepted) => accepted = false
| .handled _ .stale => True
| _ => False

/- The call an iteration of `submit_task` is for. -/
def Event.acquiring? : Event ε → Option CallId
| .acquiring c => some c
| _ => none

/- The reply of the call is parked in the entry of the key. -/
def State.Parked (s : State ε) (c : CallId) (key : String) :
    Prop :=
  ∃ generation waiters,
    s.entries.lookup key =
      some (.retiring generation waiters) ∧ c ∈ waiters

theorem Turn.not_isFault
    {s : State ε} {command : Command}
    {result : State ε × Verdict}
    (hTurn : Turn s command result) :
    ¬ (Event.handled command result.2 : Event ε).IsFault := by
  cases hTurn <;> simp [Event.IsFault]

/- No step from a state with the invariant is a fault. -/
theorem Invariant.not_isFault
    {s s' : State ε} {e : Event ε}
    (hInv : Invariant s)
    (hStep : Step config s e s') :
    ¬ e.IsFault := by
  cases hStep with
  | registryGone hCall hPhase hStopped =>
      have hRunning :=
        hInv.registryRunning_of_active hCall
          (by simp [hPhase, CallPhase.IsActive])
      rw [hStopped] at hRunning
      cases hRunning
  | @requestDropped c call hCall hPhase =>
      exact absurd hPhase (hInv.no_panic c call hCall).1
  | sendFailed hCall hPhase hGone =>
      rcases hInv.live_of_holding hCall hPhase with
        ⟨worker, hWorker, hLive⟩
      exact absurd hLive (hGone worker hWorker)
  | handle hRunning hCommands =>
      exact (hInv.handle hRunning hCommands).not_isFault
  | _ => simp [Event.IsFault]

/- Steps other than those of the registry keep its entries. -/
theorem Step.entries_eq
    {s s' : State ε} {e : Event ε}
    (hStep : Step config s e s')
    (hTurn : ∀ command verdict, e ≠ .handled command verdict)
    (hStop : e ≠ .registryStopped) :
    s'.entries = s.entries := by
  cases hStep with
  | handle hRunning hCommands =>
      exact absurd rfl (hTurn _ _)
  | panicRegistry hRunning hCommands hSpawns hOver =>
      exact absurd config.capacity_le (Nat.not_le.mpr hOver)
  | stopRegistry => exact absurd rfl hStop
  | @retire w worker hWorker hPhase =>
      by_cases hRunning : s.registryRunning = true <;>
        simp [hRunning]
  | _ => simp

/-
  A turn of the registry answers a parked reply or keeps it
  parked, unless nobody awaits it.
-/
theorem Turn.parked_kept
    {s : State ε} {command : Command}
    {result : State ε × Verdict}
    (hTurn : Turn s command result)
    {c : CallId} {call : Call ε} {key : String}
    (hCall : s.calls[c]? = some call)
    (hPhase : call.phase = .awaiting)
    (hParked : s.Parked c key) :
    result.1.Parked c key ∨
      ∃ (w : WorkerId) (call' : Call ε),
        result.1.calls[c]? = some call' ∧
          call'.phase = .holding w := by
  have hOpen : s.isClosed c = false := by
    simp [State.isClosed, hCall, hPhase]
  rcases hParked with ⟨generation, waiters, hEntry, hMem⟩
  cases hTurn with
  | granted hActive =>
      refine Or.inl ⟨generation, waiters, ?_, hMem⟩
      simpa using hEntry
  | @parked key' reply generation' waiters' hRetiring =>
      by_cases hEq : key = key'
      · subst hEq
        rw [hRetiring] at hEntry
        cases hEntry
        exact Or.inl ⟨generation, waiters ++ [reply],
          lookup_insert_eq_some_iff.mpr (Or.inl ⟨rfl, rfl⟩),
          by simp [hMem]⟩
      · exact Or.inl ⟨generation, waiters,
          lookup_insert_eq_some_iff.mpr
            (Or.inr ⟨hEq, hEntry⟩), hMem⟩
  | @spawned key' reply hNone =>
      have hNe : key ≠ key' := by
        rintro rfl
        rw [hNone] at hEntry
        cases hEntry
      refine Or.inl ⟨generation, waiters, ?_, hMem⟩
      rw [State.grant_entries]
      exact lookup_insert_eq_some_iff.mpr
        (Or.inr ⟨hNe, hEntry⟩)
  | @accepted w worker hWorker hRetires hActive =>
      have hNe : key ≠ worker.key := by
        rintro rfl
        rw [hActive] at hEntry
        cases hEntry
      refine Or.inl ⟨generation, waiters, ?_, hMem⟩
      simp only [State.setWorker_entries, State.setEntry,
        State.removeEntry, lookup_insert_erase]
      exact lookup_insert_eq_some_iff.mpr
        (Or.inr ⟨hNe, hEntry⟩)
  | @vacated key' generation' waiters' hRetiring hClosed =>
      by_cases hEq : key = key'
      · subst hEq
        rw [hRetiring] at hEntry
        cases hEntry
        rw [hClosed c hMem] at hOpen
        cases hOpen
      · refine Or.inl ⟨generation, waiters, ?_, hMem⟩
        simp only [State.removeEntry]
        rw [AList.lookup_erase_ne hEq]
        exact hEntry
  | @replaced key' generation' waiters' hRetiring =>
      by_cases hEq : key = key'
      · subst hEq
        rw [hRetiring] at hEntry
        cases hEntry
        have hServed :
            c ∈ waiters.filter (fun c => !s.isClosed c) :=
          List.mem_filter.mpr ⟨hMem, by simp [hOpen]⟩
        refine Or.inr ⟨s.workers.length,
          State.Call.granted call s.workers.length, ?_, ?_⟩
        · rw [State.foldl_grant_calls_getElem?,
            if_pos hServed]
          simp [State.spawnPartitionWorker,
            State.removeEntry, hCall]
        · simp [State.Call.granted, hPhase]
      · refine Or.inl ⟨generation, waiters, ?_, hMem⟩
        simp only [State.foldl_grant_entries,
          State.spawnPartitionWorker, State.removeEntry,
          lookup_insert_erase]
        exact lookup_insert_eq_some_iff.mpr
          (Or.inr ⟨hEq, hEntry⟩)

/- The same for every step. -/
theorem Invariant.parked_kept
    {s s' : State ε} {e : Event ε}
    (hInv : Invariant s)
    (hStep : Step config s e s')
    {c : CallId} {key : String}
    (hOpen : s.isClosed c = false)
    (hParked : s.Parked c key) :
    s'.Parked c key ∨
      ∃ (w : WorkerId) (call : Call ε),
        s'.calls[c]? = some call ∧
          call.phase = .holding w := by
  have hAwaits :
      ∃ call, s.calls[c]? = some call ∧
        call.phase = .awaiting := by
    cases hCall : s.calls[c]? with
    | none => simp [State.isClosed, hCall] at hOpen
    | some call =>
        exact ⟨call, rfl, by
          simpa [State.isClosed, hCall] using hOpen⟩
  rcases hAwaits with ⟨call, hCall, hPhase⟩
  by_cases hTurn :
      ∃ command verdict, e = .handled command verdict
  · rcases hTurn with ⟨command, verdict, hEvent⟩
    cases hStep with
    | handle hRunning hCommands =>
        exact (hInv.handle hRunning hCommands).parked_kept
          hCall hPhase hParked
    | _ => cases hEvent
  · by_cases hStop : e = .registryStopped
    · cases hStep with
      | stopRegistry hRunning hCommands hNone =>
          have hActive : call.phase.IsActive := by
            simp [hPhase, CallPhase.IsActive]
          exact absurd
            (Or.inl (hInv.borrowed c call hCall hActive))
            hNone
      | _ => cases hStop
    · have hEntries : s'.entries = s.entries := by
        apply hStep.entries_eq _ hStop
        intro command verdict hEvent
        exact hTurn ⟨command, verdict, hEvent⟩
      rcases hParked with ⟨g, ws, hEntry, hMem⟩
      exact Or.inl ⟨g, ws, by rw [hEntries, hEntry], hMem⟩

/- A call past its first iteration never acquires again. -/
theorem Invariant.not_acquiring_kept
    {s s' : State ε} {e : Event ε}
    (hInv : Invariant s)
    (hStep : Step config s e s')
    {c : CallId}
    (hPast :
      ∃ call, s.calls[c]? = some call ∧
        call.phase ≠ .acquiring) :
    ∃ call, s'.calls[c]? = some call ∧
      call.phase ≠ .acquiring := by
  rcases hPast with ⟨call, hCall, hPhase⟩
  rcases hInv.call_moves hStep hCall with
    ⟨phase, hCall', hMove⟩
  refine ⟨_, hCall', ?_⟩
  cases hMove with
  | stay => exact hPhase
  | _ => simp

/- The steps that acquire a sender, and the calls they are for. -/
theorem Step.of_acquiring
    {s s' : State ε} {e : Event ε} {c : CallId}
    (hStep : Step config s e s')
    (hEvent : e.acquiring? = some c) :
    ∃ call, s.calls[c]? = some call ∧
      call.phase = .acquiring ∧
      s'.calls[c]? = some { call with phase := .awaiting } := by
  cases hStep with
  | @acquire d call hCall hPhase hRunning =>
      have hSame : d = c := by
        simpa [Event.acquiring?] using hEvent
      subst hSame
      refine ⟨call, hCall, hPhase, ?_⟩
      simp [
        List.getElem?_set_of_lt' _ _
          (List.getElem?_eq_some_iff.mp hCall).1]
  | _ => cases hEvent

/- No call of `submit_task` sends `Acquire` twice. -/
theorem acquired_once
    {config : BoundedConfig}
    {trace : List (Event ε)}
    {s : State ε}
    (hReach : (lts ε config).Reachable trace s) :
    (trace.filterMap Event.acquiring?).Nodup ∧
      ∀ c ∈ trace.filterMap Event.acquiring?,
        ∃ call, s.calls[c]? = some call ∧
          call.phase ≠ .acquiring := by
  induction hReach with
  | initial hStart => simp
  | @step trace s s' e hReach hStep ih =>
      have hInv := invariant_of_reachable hReach
      rcases ih with ⟨hNodup, hPast⟩
      rw [List.filterMap_append]
      cases hEvent : e.acquiring? with
      | none =>
          simp only [List.filterMap_cons, hEvent,
            List.filterMap_nil, List.append_nil]
          exact ⟨hNodup, fun c hMem =>
            hInv.not_acquiring_kept hStep (hPast c hMem)⟩
      | some c =>
          rcases hStep.of_acquiring hEvent with
            ⟨call, hCall, hPhase, hCall'⟩
          have hFresh :
              c ∉ trace.filterMap Event.acquiring? := by
            intro hMem
            rcases hPast c hMem with
              ⟨other, hOther, hNot⟩
            rw [hCall] at hOther
            cases hOther
            exact hNot hPhase
          simp only [List.filterMap_cons, hEvent,
            List.filterMap_nil]
          constructor
          · rw [← List.concat_eq_append]
            exact hNodup.concat hFresh
          · intro d hMem
            rw [List.mem_append, List.mem_singleton] at hMem
            rcases hMem with hOld | rfl
            · exact hInv.not_acquiring_kept hStep
                (hPast d hOld)
            · exact ⟨_, hCall', by simp⟩

/-
  While a handle is alive the entries of the registry are
  true of the workers.  In the whole run no fault occurs,
  every call acquires one sender, and an acquisition that
  awaits its reply is held by the registry until it is
  answered or its caller has gone.
-/
structure RegistrySound
    (config : Config) (trace : List (Event ε))
    (s : State ε) : Prop where
  entries : 0 < s.handles → s.EntriesSound
  no_fault : ∀ e ∈ trace, ¬ e.IsFault
  acquired_once : (trace.filterMap Event.acquiring?).Nodup
  held :
    ∀ (c : CallId) (call : Call ε),
      s.calls[c]? = some call →
        call.phase ≠ .unanswered ∧
        (call.phase = .awaiting → s.Held c call.key)
  parked_kept :
    ∀ e s' c key,
      (lts ε config).step s e s' → s.Parked c key →
        s.isClosed c = true ∨ s'.Parked c key ∨
          ∃ (w : WorkerId) (call : Call ε),
            s'.calls[c]? = some call ∧
              call.phase = .holding w

/- A domain that can make its channels is sound. -/
theorem registrySound_of_reachable
    {trace : List (Event ε)} {s : State ε}
    (hReach : (lts ε config).Reachable trace s) :
    RegistrySound config trace s where
  entries := (invariant_of_reachable hReach).entriesSound
  acquired_once := (acquired_once hReach).1
  no_fault := by
    induction hReach with
    | initial hStart => simp
    | step hReach hStep ih =>
        have hBefore := invariant_of_reachable hReach
        intro e hMem
        rw [List.mem_append, List.mem_singleton] at hMem
        rcases hMem with hOld | rfl
        · exact ih e hOld
        · exact hBefore.not_isFault hStep
  held := by
    have hInv := invariant_of_reachable hReach
    intro c call hCall
    exact ⟨(hInv.no_panic c call hCall).1,
      hInv.held c call hCall⟩
  parked_kept := by
    have hInv := invariant_of_reachable hReach
    intro e s' c key hStep hParked
    cases hClosed : s.isClosed c with
    | true => exact Or.inl rfl
    | false =>
        exact Or.inr (hInv.parked_kept hStep hClosed hParked)

/-
  The registry is sound in every run exactly if the channel
  of a worker can have the capacity it is asked for.
  Otherwise the first acquisition is dropped and its caller
  panics.
-/
theorem registry_entries_sound_iff
    (ε : Type) (config : Config) :
    (∀ (trace : List (Event ε)) (s : State ε),
      (lts ε config).Reachable trace s →
        RegistrySound config trace s) ↔
      config.capacity ≤ maxPermits := by
  constructor
  · intro hSound
    by_contra hOver
    have hLost := hSound _ _
      (lost_reachable (Nat.not_le.mp hOver) "" ⟨[], false⟩)
    exact hLost.no_fault (.requestDropped 0)
      (by simp [lostTrace]) trivial
  · intro hFits trace s hReach
    have hBounded :
        (lts ε (⟨config, hFits⟩ : BoundedConfig)).Reachable
          trace s := hReach
    exact registrySound_of_reachable hBounded

/- `with_options` takes any nonzero capacity. -/
def hugeConfig : Config where
  capacity := 18446744073709551615
  idleTimeout := 1
  capacity_pos := by decide
  idleTimeout_pos := by decide

/- The acquisition of a first call is dropped unanswered. -/
theorem registry_unsound_huge :
    ¬ ∀ (trace : List (Event String)) (s : State String),
      (lts String hugeConfig).Reachable trace s →
        RegistrySound hugeConfig trace s := by
  intro hSound
  have hLost := hSound _ _
    (lost_reachable (by decide) "k" firstTask)
  exact hLost.no_fault (.requestDropped 0)
    (by simp [lostTrace]) trivial

end Partitioner

end Qanat
