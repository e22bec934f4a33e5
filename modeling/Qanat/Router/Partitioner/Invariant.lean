import Qanat.Library.Handover
import Qanat.Router.Partitioner.Frame

/-
  The invariant of the partition domain.

  The registry, the workers and the commands in flight follow
  the hand-over protocol with the keys as offices and the
  workers as owners.  On top of it, senders handed out point
  to live workers of the same key, and every acquisition
  that awaits its reply is held by the registry.

  Main declarations:
    * `Partitioner.State.roster`
    * `Partitioner.Consistent`, `Partitioner.Invariant`
    * `Partitioner.Invariant.moveWorker`
    * `Partitioner.Invariant.setPhase`
-/

------------------------------------------------------------
-- The Hand-Over Protocol in the Partition Domain
------------------------------------------------------------

namespace Qanat

namespace Partitioner

open Transition.Handover

variable {ε : Type}

/-
  A worker that gave up announcing, or drains because no
  registry is left, never told the registry: it still serves.
-/
def WorkerPhase.role : WorkerPhase → Role
| .receiving | .elapsed | .announcing => .serving
| .retiring => .asking
| .answered accepted =>
    if accepted then .retiring else .serving
| .draining announced =>
    if announced then .retiring else .serving
| .drained => .retiring
| .stopped => .stopped

theorem WorkerPhase.role_live_iff (phase : WorkerPhase) :
    phase.role.Live ↔ phase ≠ .stopped := by
  cases phase with
  | answered accepted =>
      cases accepted <;> simp [WorkerPhase.role, Role.Live]
  | draining announced =>
      cases announced <;> simp [WorkerPhase.role, Role.Live]
  | _ => simp [WorkerPhase.role, Role.Live]

/- Only workers with the registry in hand ask or retire. -/
theorem WorkerPhase.holdsRegistry_of_role
    {phase : WorkerPhase}
    (hRole : phase.role = .asking ∨ phase.role = .retiring) :
    phase.HoldsRegistry := by
  cases phase with
  | answered accepted => trivial
  | draining announced =>
      cases announced
      · simp [WorkerPhase.role] at hRole
      · simp [WorkerPhase.HoldsRegistry]
  | _ => simp_all [WorkerPhase.role,
      WorkerPhase.HoldsRegistry]

theorem WorkerPhase.role_eq_asking_iff (phase : WorkerPhase) :
    phase.role = .asking ↔ phase = .retiring := by
  cases phase with
  | answered accepted =>
      cases accepted <;> simp [WorkerPhase.role]
  | draining announced =>
      cases announced <;> simp [WorkerPhase.role]
  | _ => simp [WorkerPhase.role]

def Worker.post (worker : Worker ε) :
    Post String Generation where
  key := worker.key
  generation := worker.generation
  role := worker.phase.role

theorem Worker.post_live_iff (worker : Worker ε) :
    worker.post.role.Live ↔ worker.Live :=
  worker.phase.role_live_iff

def Entry.shape : Entry → Shape Generation WorkerId
| .active generation sender => .active generation sender
| .retiring generation _ => .retiring generation

def Command.notice? :
    Command → Option (Notice String Generation WorkerId)
| .acquire _ _ => none
| .beginRetirement key generation reply =>
    some (.asks key generation reply)
| .retired key generation => some (.leaves key generation)

/- The hand-over protocol as the state shows it. -/
def State.roster (s : State ε) :
    Roster String Generation WorkerId where
  post w := (s.workers[w]?).map Worker.post
  shape key := (s.entries.lookup key).map Entry.shape
  notices := s.commands.filterMap Command.notice?
  running := s.registryRunning = true

theorem post_eq_some_iff
    {s : State ε} {w : WorkerId}
    {p : Post String Generation} :
    s.roster.post w = some p ↔
      ∃ worker, s.workers[w]? = some worker ∧
        worker.post = p := by
  simp [State.roster]

theorem post_of_worker
    {s : State ε} {w : WorkerId} {worker : Worker ε}
    (hWorker : s.workers[w]? = some worker) :
    s.roster.post w = some worker.post := by
  simp [State.roster, hWorker]

theorem shape_eq_active_iff
    {s : State ε} {key : String} {generation : Generation}
    {w : WorkerId} :
    s.roster.shape key = some (.active generation w) ↔
      s.entries.lookup key =
        some (.active generation w) := by
  cases hEntry : s.entries.lookup key with
  | none => simp [State.roster, hEntry]
  | some entry =>
      cases entry <;>
        simp [State.roster, hEntry, Entry.shape]

theorem shape_eq_retiring_iff
    {s : State ε} {key : String} {generation : Generation} :
    s.roster.shape key = some (.retiring generation) ↔
      ∃ waiters, s.entries.lookup key =
        some (.retiring generation waiters) := by
  cases hEntry : s.entries.lookup key with
  | none => simp [State.roster, hEntry]
  | some entry =>
      cases entry <;>
        simp [State.roster, hEntry, Entry.shape]

theorem shape_eq_none_iff
    {s : State ε} {key : String} :
    s.roster.shape key = none ↔
      s.entries.lookup key = none := by
  simp [State.roster]

theorem asks_mem_notices_iff
    {s : State ε} {key : String} {generation : Generation}
    {w : WorkerId} :
    Notice.asks key generation w ∈ s.roster.notices ↔
      Command.beginRetirement key generation w ∈
        s.commands := by
  simp only [State.roster, List.mem_filterMap]
  constructor
  · rintro ⟨command, hMem, hNotice⟩
    cases command <;> simp_all [Command.notice?]
  · intro hMem
    exact ⟨_, hMem, rfl⟩

theorem leaves_mem_notices_iff
    {s : State ε} {key : String} {generation : Generation} :
    Notice.leaves key generation ∈ s.roster.notices ↔
      Command.retired key generation ∈ s.commands := by
  simp only [State.roster, List.mem_filterMap]
  constructor
  · rintro ⟨command, hMem, hNotice⟩
    cases command <;> simp_all [Command.notice?]
  · intro hMem
    exact ⟨_, hMem, rfl⟩

/- The post of an updated worker. -/
theorem post_set
    {s : State ε} {w : WorkerId} {old : Worker ε}
    (hOld : s.workers[w]? = some old)
    (new : Worker ε) :
    (fun i => ((s.workers.set w new)[i]?).map Worker.post) =
      Function.update s.roster.post w (some new.post) := by
  funext i
  rw [
    List.getElem?_set_of_lt' _ _
      (List.getElem?_eq_some_iff.mp hOld).1,
    Function.update_apply]
  by_cases hEq : w = i
  · simp [hEq]
  · have hNe : ¬ i = w := fun h => hEq h.symm
    simp [hEq, hNe, State.roster]

/- The post of a worker added at the end. -/
theorem post_append
    (s : State ε) (new : Worker ε) :
    (fun i => ((s.workers ++ [new])[i]?).map Worker.post) =
      Function.update s.roster.post s.workers.length
        (some new.post) := by
  funext i
  rw [Function.update_apply]
  by_cases hEq : i = s.workers.length
  · simp [hEq]
  · rw [if_neg hEq]
    rcases Nat.lt_or_gt_of_ne hEq with hLt | hGt
    · rw [List.getElem?_append_left hLt]
      rfl
    · rw [List.getElem?_eq_none (by simp; omega)]
      simp [State.roster, Nat.le_of_lt hGt]

/- The shape after an entry is inserted. -/
theorem shape_insert
    (s : State ε) (key : String) (entry : Entry) :
    (fun k => ((s.entries.insert key entry).lookup k).map
        Entry.shape) =
      Function.update s.roster.shape key
        (some entry.shape) := by
  funext k
  rw [Function.update_apply]
  by_cases hEq : k = key
  · subst hEq
    simp
  · rw [if_neg hEq, AList.lookup_insert_ne hEq]
    rfl

/- The shape after an entry is removed. -/
theorem shape_erase (s : State ε) (key : String) :
    (fun k => ((s.entries.erase key).lookup k).map
        Entry.shape) =
      Function.update s.roster.shape key none := by
  funext k
  rw [Function.update_apply]
  by_cases hEq : k = key
  · subst hEq
    simp
  · rw [if_neg hEq, AList.lookup_erase_ne hEq]
    rfl

/- The entries after one of them is set. -/
theorem lookup_insert_eq_some_iff
    {entries : AList (fun _ : String => Entry)}
    {key k : String} {entry found : Entry} :
    (entries.insert key entry).lookup k = some found ↔
      (k = key ∧ found = entry) ∨
        (k ≠ key ∧ entries.lookup k = some found) := by
  by_cases hEq : k = key
  · subst hEq
    simp [eq_comm]
  · rw [AList.lookup_insert_ne hEq]
    simp [hEq]

/- Inserting over a removed entry is inserting. -/
theorem lookup_insert_erase
    (entries : AList (fun _ : String => Entry))
    (key k : String) (entry : Entry) :
    ((entries.erase key).insert key entry).lookup k =
      (entries.insert key entry).lookup k := by
  by_cases hEq : k = key
  · subst hEq
    simp
  · rw [AList.lookup_insert_ne hEq,
      AList.lookup_insert_ne hEq,
      AList.lookup_erase_ne hEq]

end Partitioner

end Qanat

------------------------------------------------------------
-- The Invariant
------------------------------------------------------------

namespace Qanat

namespace Partitioner

open Transition.Handover

variable {ε : Type}

/- The worker has not received for the last time. -/
def Worker.Listens (worker : Worker ε) : Prop :=
  worker.phase ≠ .drained ∧ worker.phase ≠ .stopped

theorem Worker.Listens.live
    {worker : Worker ε}
    (hListens : worker.Listens) :
    worker.Live :=
  hListens.2

/- A worker in charge of its key still listens. -/
theorem Worker.listens_of_inCharge
    {worker : Worker ε}
    (hCharge : worker.post.role.InCharge) :
    worker.Listens := by
  constructor <;> intro hPhase <;>
    simp [Worker.post, hPhase, WorkerPhase.role,
      Role.InCharge] at hCharge

theorem Worker.mem_jobs_of_mem_queue
    {worker : Worker ε} {job : PartitionJob ε}
    (hJob : job ∈ worker.queue) :
    job ∈ worker.jobs :=
  List.mem_append_right _ hJob

theorem Worker.mem_jobs_of_executing
    {worker : Worker ε} {job : PartitionJob ε}
    (hActivity : worker.activity.executing? = some job) :
    job ∈ worker.jobs := by
  cases hActive : worker.activity with
  | executing job' rest =>
      have hSame : job' = job := by
        simpa [hActive, Activity.executing?] using hActivity
      simp [Worker.jobs, hActive, Activity.job?, hSame]
  | _ => simp [hActive, Activity.executing?] at hActivity

/-
  What holds between calls, commands, entries and workers.
  A registry that has ended has nothing left to do and
  nobody left to hear from; a call keeps a handle alive.
-/
structure Consistent (s : State ε) : Prop where
  coherent : Coherent s.roster
  registryOff :
    s.registryRunning = false →
      ¬ s.HasRegistrySender ∧ s.commands = []
  unannounced :
    ∀ (w : WorkerId) (worker : Worker ε),
      s.workers[w]? = some worker →
      worker.phase = .draining false →
        ¬ s.HasRegistrySender
  borrowed :
    ∀ (c : CallId) (call : Call ε),
      s.calls[c]? = some call →
      call.phase.IsActive → 0 < s.handles
  deaf_empty :
    ∀ (w : WorkerId) (worker : Worker ε),
      s.workers[w]? = some worker →
      ¬ worker.Listens → worker.queue = []
  busy_receives :
    ∀ (w : WorkerId) (worker : Worker ε),
      s.workers[w]? = some worker →
      worker.activity ≠ .none → worker.phase.Receives
  sender_listens :
    ∀ (c : CallId) (call : Call ε) (w : WorkerId),
      s.calls[c]? = some call →
      call.phase.sender? = some w →
        ∃ worker, s.workers[w]? = some worker ∧
          worker.Listens ∧ worker.key = call.key
  job_call :
    ∀ (w : WorkerId) (worker : Worker ε)
      (job : PartitionJob ε),
      s.workers[w]? = some worker →
      job ∈ worker.jobs →
        ∃ call, s.calls[job.completion]? = some call ∧
          call.key = worker.key ∧ call.task = job.task
  acquire_key :
    ∀ key c, Command.acquire key c ∈ s.commands →
      ∃ call, s.calls[c]? = some call ∧ call.key = key
  waiter_key :
    ∀ key generation waiters c,
      s.entries.lookup key =
          some (.retiring generation waiters) →
        c ∈ waiters →
          ∃ call, s.calls[c]? = some call ∧ call.key = key
  no_panic :
    ∀ (c : CallId) (call : Call ε),
      s.calls[c]? = some call →
      call.phase ≠ .unanswered ∧ call.phase ≠ .panicked

/-
  An acquisition that awaits its reply is queued at the
  registry or parked in the retiring entry of its key.
-/
def State.Held (s : State ε) (c : CallId) (key : String) :
    Prop :=
  Command.acquire key c ∈ s.commands ∨
    ∃ generation waiters,
      s.entries.lookup key =
        some (.retiring generation waiters) ∧ c ∈ waiters

structure Invariant (s : State ε) : Prop
    extends Consistent s where
  held :
    ∀ (c : CallId) (call : Call ε),
      s.calls[c]? = some call →
      call.phase = .awaiting → s.Held c call.key

/- A partition domain starts out consistent. -/
theorem Invariant.start :
    Invariant (State.start : State ε) := by
  constructor
  · constructor
    · apply Coherent.start <;>
        simp [State.roster, State.start]
    all_goals simp [State.start]
  · simp [State.start]

end Partitioner

end Qanat

------------------------------------------------------------
-- Updates of One Worker
------------------------------------------------------------

namespace Qanat

namespace Partitioner

open Transition.Handover

variable {ε : Type}

/- A worker moves and may send commands to the registry. -/
def State.moveWorker
    (s : State ε) (w : WorkerId) (worker : Worker ε)
    (sent : List Command) :
    State ε :=
  { s with
    workers := s.workers.set w worker
    commands := s.commands ++ sent }

theorem State.setWorker_eq_moveWorker
    (s : State ε) (w : WorkerId) (worker : Worker ε) :
    s.setWorker w worker = s.moveWorker w worker [] := by
  simp [State.setWorker, State.moveWorker]

theorem State.setWorker_send_eq_moveWorker
    (s : State ε) (w : WorkerId) (worker : Worker ε)
    (command : Command) :
    (s.setWorker w worker).send command =
      s.moveWorker w worker [command] := rfl

/-
  The registry keeps strong senders only through workers that
  had one before, or could still get one.
-/
theorem State.hasRegistrySender_moveWorker
    {s : State ε} {w : WorkerId} {old : Worker ε}
    {sent : List Command}
    (hOld : s.workers[w]? = some old)
    (new : Worker ε)
    (hHolds :
      new.phase.HoldsRegistry → s.HasRegistrySender)
    (hSender :
      (s.moveWorker w new sent).HasRegistrySender) :
    s.HasRegistrySender := by
  rcases hSender with hHandles | ⟨i, worker, hWorker, hPhase⟩
  · exact Or.inl hHandles
  · rcases (Lists.getElem?_set_eq_some hOld).mp hWorker with
      ⟨_, rfl⟩ | ⟨_, hSame⟩
    · exact hHolds hPhase
    · exact Or.inr ⟨i, worker, hSame, hPhase⟩

/-
  The move of one worker keeps the invariant when the
  protocol stays coherent, every new job is of a call with
  its key and task, and a worker only stops once nobody can
  send to it.
-/
theorem Invariant.moveWorker
    {s : State ε} {w : WorkerId} {old new : Worker ε}
    {sent : List Command}
    (hInv : Invariant s)
    (hOld : s.workers[w]? = some old)
    (hCoherent : Coherent (s.moveWorker w new sent).roster)
    (hKey : new.key = old.key)
    (hJobs :
      ∀ job ∈ new.jobs, job ∈ old.jobs ∨
        ∃ call, s.calls[job.completion]? = some call ∧
          call.key = new.key ∧ call.task = job.task)
    (hHolds :
      new.phase.HoldsRegistry → s.HasRegistrySender)
    (hUnannounced :
      new.phase = .draining false → ¬ s.HasRegistrySender)
    (hListens :
      new.Listens ∨
        ((∀ (c : CallId) (call : Call ε),
            s.calls[c]? = some call →
              call.phase.sender? ≠ some w) ∧
          new.queue = []))
    (hBusy :
      new.activity ≠ .none → new.phase.Receives)
    (hSent :
      ∀ command ∈ sent,
        command.notice?.isSome ∧ s.registryRunning = true) :
    Invariant (s.moveWorker w new sent) := by
  have hSender :
      (s.moveWorker w new sent).HasRegistrySender →
        s.HasRegistrySender :=
    State.hasRegistrySender_moveWorker hOld new hHolds
  have hWorkers :
      ∀ i worker,
        (s.moveWorker w new sent).workers[i]? = some worker →
          (w = i ∧ worker = new) ∨
            (w ≠ i ∧ s.workers[i]? = some worker) :=
    fun i worker hWorker =>
      (Lists.getElem?_set_eq_some hOld).mp hWorker
  have hAcquire :
      ∀ key c,
        Command.acquire key c ∈
            (s.moveWorker w new sent).commands ↔
          Command.acquire key c ∈ s.commands := by
    intro key c
    simp only [State.moveWorker, List.mem_append,
      or_iff_left_iff_imp]
    intro hMem
    have hNotice := (hSent _ hMem).1
    simp [Command.notice?] at hNotice
  refine ⟨⟨hCoherent, ?registryOff, ?unannounced,
    hInv.borrowed, ?deaf_empty, ?busy_receives,
    ?sender_listens, ?job_call, ?acquire_key,
    hInv.waiter_key, hInv.no_panic⟩, ?held⟩
  case registryOff =>
    intro hOff
    rcases hInv.registryOff hOff with ⟨hNone, hEmpty⟩
    refine ⟨fun h => hNone (hSender h), ?_⟩
    cases sent with
    | nil => simpa [State.moveWorker] using hEmpty
    | cons command rest =>
        have hOn := (hSent command (by simp)).2
        have hOff' : s.registryRunning = false := hOff
        rw [hOn] at hOff'
        cases hOff'
  case unannounced =>
    intro i worker hWorker hPhase hRegistry
    rcases hWorkers i worker hWorker with
      ⟨_, rfl⟩ | ⟨_, hSame⟩
    · exact hUnannounced hPhase (hSender hRegistry)
    · exact hInv.unannounced i worker hSame hPhase
        (hSender hRegistry)
  case deaf_empty =>
    intro i worker hWorker hDeaf
    rcases hWorkers i worker hWorker with
      ⟨_, rfl⟩ | ⟨_, hSame⟩
    · rcases hListens with hHears | ⟨_, hEmpty⟩
      · exact absurd hHears hDeaf
      · exact hEmpty
    · exact hInv.deaf_empty i worker hSame hDeaf
  case busy_receives =>
    intro i worker hWorker hActive
    rcases hWorkers i worker hWorker with
      ⟨_, rfl⟩ | ⟨_, hSame⟩
    · exact hBusy hActive
    · exact hInv.busy_receives i worker hSame hActive
  case sender_listens =>
    intro c call i hCall hHandle
    rcases hInv.sender_listens c call i hCall hHandle with
      ⟨worker, hWorker, hHears, hCallKey⟩
    by_cases hEq : w = i
    · subst hEq
      have hSame : old = worker := by
        simpa [hOld] using hWorker
      subst hSame
      rcases hListens with hNew | ⟨hNone, _⟩
      · exact ⟨new,
          (Lists.getElem?_set_eq_some hOld).mpr
            (Or.inl ⟨rfl, rfl⟩),
          hNew, hKey.trans hCallKey⟩
      · exact absurd hHandle (hNone c call hCall)
    · exact ⟨worker,
        (Lists.getElem?_set_eq_some hOld).mpr
          (Or.inr ⟨hEq, hWorker⟩),
        hHears, hCallKey⟩
  case job_call =>
    intro i worker job hWorker hJob
    rcases hWorkers i worker hWorker with
      ⟨_, rfl⟩ | ⟨_, hSame⟩
    · rcases hJobs job hJob with hOldJob | hCalled
      · rw [hKey]
        exact hInv.job_call w old job hOld hOldJob
      · exact hCalled
    · exact hInv.job_call i worker job hSame hJob
  case acquire_key =>
    intro key c hMem
    exact hInv.acquire_key key c ((hAcquire key c).mp hMem)
  case held =>
    intro c call hCall hPhase
    rcases hInv.held c call hCall hPhase with
      hQueued | hParked
    · exact Or.inl ((hAcquire _ _).mpr hQueued)
    · exact Or.inr hParked

/- The roster after the move of one worker. -/
theorem State.roster_moveWorker
    {s : State ε} {w : WorkerId} {old : Worker ε}
    (hOld : s.workers[w]? = some old)
    (new : Worker ε)
    (sent : List Command) :
    (s.moveWorker w new sent).roster =
      { s.roster with
        post := Function.update s.roster.post w
          (some new.post)
        notices := s.roster.notices ++
          sent.filterMap Command.notice? } := by
  unfold State.roster State.moveWorker
  simp only [List.filterMap_append]
  congr 1
  exact post_set hOld new

/- A silent move that keeps the post keeps the roster. -/
theorem State.roster_moveWorker_of_post_eq
    {s : State ε} {w : WorkerId} {old new : Worker ε}
    (hOld : s.workers[w]? = some old)
    (hPost : new.post = old.post) :
    (s.moveWorker w new []).roster = s.roster := by
  rw [State.roster_moveWorker hOld, hPost]
  have hSame :
      Function.update s.roster.post w (some old.post) =
        s.roster.post := by
    rw [← post_of_worker hOld]
    exact Function.update_eq_self w _
  rw [hSame]
  simp

end Partitioner

end Qanat

------------------------------------------------------------
-- Updates of One Call
------------------------------------------------------------

namespace Qanat

namespace Partitioner

open Transition.Handover

variable {ε : Type}

/- The calls after one of them changes its phase. -/
theorem getElem?_setPhase
    {s : State ε} {c : CallId} {call : Call ε}
    (hCall : s.calls[c]? = some call)
    (phase : CallPhase)
    {i : CallId} {other : Call ε}
    (hOther :
      (s.setCall c { call with phase := phase }).calls[i]? =
        some other) :
    (c = i ∧ other = { call with phase := phase }) ∨
      (c ≠ i ∧ s.calls[i]? = some other) :=
  (Lists.getElem?_set_eq_some hCall).mp hOther

/- A call that changes its phase keeps its key and its task. -/
theorem exists_call_setPhase
    {s : State ε} {c : CallId} {call : Call ε}
    (hCall : s.calls[c]? = some call)
    (phase : CallPhase)
    {i : CallId} {other : Call ε}
    (hOther : s.calls[i]? = some other) :
    ∃ other',
      (s.setCall c { call with phase := phase }).calls[i]? =
          some other' ∧
        other'.key = other.key ∧
        other'.task = other.task := by
  rw [State.setCall_calls,
    List.getElem?_set_of_lt' _ _
      (List.getElem?_eq_some_iff.mp hCall).1]
  by_cases hEq : c = i
  · subst hEq
    rw [hCall] at hOther
    cases hOther
    exact ⟨_, if_pos rfl, rfl, rfl⟩
  · exact ⟨other, by simpa [hEq] using hOther, rfl, rfl⟩

/- A call moves without gaining a sender of a deaf worker. -/
theorem Consistent.setPhase
    {s : State ε} {c : CallId} {call : Call ε}
    {phase : CallPhase}
    (hCons : Consistent s)
    (hCall : s.calls[c]? = some call)
    (hActive : phase.IsActive → call.phase.IsActive)
    (hSender :
      ∀ w, phase.sender? = some w →
        ∃ worker, s.workers[w]? = some worker ∧
          worker.Listens ∧ worker.key = call.key)
    (hPanic : phase ≠ .unanswered ∧ phase ≠ .panicked) :
    Consistent (s.setCall c { call with phase := phase }) := by
  have hKeys :
      ∀ (i : CallId) (key : String),
        (∃ other, s.calls[i]? = some other ∧
          other.key = key) →
        ∃ other,
          (s.setCall c
              { call with phase := phase }).calls[i]? =
            some other ∧ other.key = key := by
    rintro i key ⟨other, hOther, rfl⟩
    rcases exists_call_setPhase hCall phase hOther with
      ⟨other', hOther', hKey, _⟩
    exact ⟨other', hOther', hKey⟩
  refine ⟨hCons.coherent, hCons.registryOff,
    hCons.unannounced, ?borrowed, hCons.deaf_empty,
    hCons.busy_receives, ?sender_listens, ?job_call,
    ?acquire_key, ?waiter_key, ?no_panic⟩
  case borrowed =>
    intro i other hOther hOtherActive
    rcases getElem?_setPhase hCall phase hOther with
      ⟨_, rfl⟩ | ⟨_, hSame⟩
    · exact hCons.borrowed c call hCall
        (hActive hOtherActive)
    · exact hCons.borrowed i other hSame hOtherActive
  case sender_listens =>
    intro i other w hOther hHandle
    rcases getElem?_setPhase hCall phase hOther with
      ⟨_, rfl⟩ | ⟨_, hSame⟩
    · exact hSender w hHandle
    · exact hCons.sender_listens i other w hSame hHandle
  case job_call =>
    intro w worker job hWorker hJob
    rcases hCons.job_call w worker job hWorker hJob with
      ⟨other, hOther, hKey, hTask⟩
    rcases exists_call_setPhase hCall phase hOther with
      ⟨other', hOther', hKey', hTask'⟩
    exact ⟨other', hOther', hKey'.trans hKey,
      hTask'.trans hTask⟩
  case acquire_key =>
    intro key i hMem
    exact hKeys _ _ (hCons.acquire_key key i hMem)
  case waiter_key =>
    intro key generation waiters i hEntry hMem
    exact hKeys _ _
      (hCons.waiter_key key generation waiters i hEntry hMem)
  case no_panic =>
    intro i other hOther
    rcases getElem?_setPhase hCall phase hOther with
      ⟨_, rfl⟩ | ⟨_, hSame⟩
    · exact hPanic
    · exact hCons.no_panic i other hSame

/- A call that does not start to wait keeps the invariant. -/
theorem Invariant.setPhase
    {s : State ε} {c : CallId} {call : Call ε}
    {phase : CallPhase}
    (hInv : Invariant s)
    (hCall : s.calls[c]? = some call)
    (hActive : phase.IsActive → call.phase.IsActive)
    (hSender :
      ∀ w, phase.sender? = some w →
        call.phase.sender? = some w)
    (hPanic : phase ≠ .unanswered ∧ phase ≠ .panicked)
    (hWait : phase ≠ .awaiting) :
    Invariant
      (s.setCall c { call with phase := phase }) where
  toConsistent := by
    apply hInv.toConsistent.setPhase hCall hActive _ hPanic
    intro w hHandle
    exact hInv.sender_listens c call w hCall
      (hSender w hHandle)
  held := by
    intro i other hOther hAwaiting
    rcases getElem?_setPhase hCall phase hOther with
      ⟨_, rfl⟩ | ⟨_, hSame⟩
    · exact absurd hAwaiting hWait
    · exact hInv.held i other hSame hAwaiting

/- Sending an acquisition to a running registry. -/
theorem Invariant.acquire
    {s : State ε} {c : CallId} {call : Call ε}
    (hInv : Invariant s)
    (hCall : s.calls[c]? = some call)
    (hPhase : call.phase = .acquiring)
    (hRunning : s.registryRunning = true) :
    Invariant
      ((s.setCall c { call with phase := .awaiting }).send
        (.acquire call.key c)) := by
  have hCons :
      Consistent
        (s.setCall c { call with phase := .awaiting }) := by
    apply hInv.toConsistent.setPhase hCall
    · intro _
      simp [hPhase, CallPhase.IsActive]
    · simp [CallPhase.sender?]
    · simp
  refine ⟨⟨?coherent, ?registryOff, hCons.unannounced,
    hCons.borrowed, hCons.deaf_empty, hCons.busy_receives,
    hCons.sender_listens, hCons.job_call, ?acquire_key,
    hCons.waiter_key, hCons.no_panic⟩, ?held⟩
  case coherent =>
    have hRoster :
        ((s.setCall c { call with phase := .awaiting }).send
          (.acquire call.key c)).roster = s.roster := by
      simp [State.roster, Command.notice?]
    rw [hRoster]
    exact hInv.coherent
  case registryOff =>
    intro hOff
    have hOff' : s.registryRunning = false := hOff
    rw [hRunning] at hOff'
    cases hOff'
  case acquire_key =>
    intro key i hMem
    rw [State.send_commands, List.mem_append,
      List.mem_singleton] at hMem
    rcases hMem with hOld | hNew
    · exact hCons.acquire_key key i hOld
    · cases hNew
      exact ⟨{ call with phase := .awaiting },
        (Lists.getElem?_set_eq_some hCall).mpr
          (Or.inl ⟨rfl, rfl⟩), rfl⟩
  case held =>
    intro i other hOther hAwaiting
    rcases getElem?_setPhase hCall .awaiting hOther with
      ⟨rfl, rfl⟩ | ⟨_, hSame⟩
    · exact Or.inl (by simp)
    · rcases hInv.held i other hSame hAwaiting with
        hQueued | hParked
      · exact Or.inl (by simp [hQueued])
      · exact Or.inr hParked

/- Sending the job on the acquired sender. -/
theorem Invariant.sendJob
    {s : State ε} {c : CallId} {call : Call ε}
    {w : WorkerId} {worker : Worker ε}
    (hInv : Invariant s)
    (hCall : s.calls[c]? = some call)
    (hPhase : call.phase = .holding w)
    (hWorker : s.workers[w]? = some worker) :
    Invariant
      ((s.setCall c { call with phase := .sent w }).setWorker
        w { worker with
            queue := worker.queue ++ [⟨call.task, c⟩] }) := by
  have hOpen : worker.Listens ∧ worker.key = call.key := by
    rcases hInv.sender_listens c call w hCall
        (by simp [hPhase, CallPhase.sender?]) with
      ⟨worker', hWorker', hListens, hKey⟩
    have hSame : worker = worker' := by
      simpa [hWorker] using hWorker'
    rw [hSame]
    exact ⟨hListens, hKey⟩
  rcases hOpen with ⟨hListens, hKey⟩
  have hSent :
      Invariant
        (s.setCall c { call with phase := .sent w }) := by
    apply hInv.setPhase hCall
    · intro _
      simp [hPhase, CallPhase.IsActive]
    · simp [hPhase, CallPhase.sender?]
    · simp
    · simp
  rw [State.setWorker_eq_moveWorker]
  apply hSent.moveWorker hWorker
  case hCoherent =>
    have hPost :
        ({ worker with
            queue := worker.queue ++ [⟨call.task, c⟩] } :
          Worker ε).post = worker.post := rfl
    have hRoster :=
      State.roster_moveWorker_of_post_eq
        (s := s.setCall c { call with phase := .sent w })
        hWorker hPost
    rw [hRoster]
    exact hSent.coherent
  case hKey => rfl
  case hJobs =>
    intro job hJob
    have hCases : job ∈ worker.jobs ∨ job = ⟨call.task, c⟩ := by
      simpa [Worker.jobs, or_assoc] using hJob
    rcases hCases with hOldJob | rfl
    · exact Or.inl hOldJob
    · exact Or.inr ⟨{ call with phase := .sent w },
        (Lists.getElem?_set_eq_some hCall).mpr
          (Or.inl ⟨rfl, rfl⟩),
        hKey.symm, rfl⟩
  case hHolds =>
    intro hHolds
    exact Or.inr ⟨w, worker, hWorker, hHolds⟩
  case hUnannounced =>
    exact hSent.unannounced w worker hWorker
  case hListens => exact Or.inl hListens
  case hBusy => exact hSent.busy_receives w worker hWorker
  case hSent => simp

end Partitioner

end Qanat
