import Mathlib.Data.List.AList
import Qanat.Library.Lts

/-
  The keyed execution domain of the route core: the
  `Partitioner` with its submitters, its registry task and
  its worker tasks.

  Every channel operation is one step, so submitters, the
  registry and the workers of all generations interleave
  freely.  The registry handles one command per step: it has
  no suspension point between two receives.

  Main declarations:
    * `Partitioner.State`, `Partitioner.Event`
    * `Partitioner.State.partitionRegistry`
    * `Partitioner.Step`, `Partitioner.lts`
-/

------------------------------------------------------------
-- Tasks, Jobs and Channels
------------------------------------------------------------

namespace Qanat

namespace Partitioner

/- One call of `submit_task`, and its completion channel. -/
abbrev CallId := Nat

/- One spawned worker, and the channel it receives from. -/
abbrev WorkerId := Nat

/- The registry counts generations in a wrapping `u64`. -/
abbrev Generation := UInt64

/-
  A boxed future as far as an execution of it is observed:
  the effects it performs while it is polled, and whether it
  unwinds at the end instead of returning.
-/
structure Task (ε : Type) where
  effects : List ε
  panics : Bool
deriving DecidableEq, Repr

/- `PartitionJob`: the task with the sender of its completion. -/
structure PartitionJob (ε : Type) where
  task : Task ε
  completion : CallId
deriving DecidableEq, Repr

/-
  Where a call of `submit_task` stands.  `awaiting` has its
  `Acquire` out, `holding` owns a sender of a worker and has
  still to send its job, and `sent` has sent it but not yet
  dropped the sender.
-/
inductive CallPhase where
| acquiring
| awaiting
| unanswered
| holding (sender : WorkerId)
| sent (sender : WorkerId)
| returned
| panicked
| cancelled
deriving DecidableEq, Repr

/- The sender handle a call owns. -/
def CallPhase.sender? : CallPhase → Option WorkerId
| .holding sender => some sender
| .sent sender => some sender
| _ => none

/- The future of the call still exists. -/
def CallPhase.IsActive : CallPhase → Prop
| .returned | .panicked | .cancelled => False
| _ => True

instance (phase : CallPhase) : Decidable phase.IsActive := by
  cases phase <;> unfold CallPhase.IsActive <;>
    infer_instance

/- The call still owns the job it was given. -/
def CallPhase.OwnsJob : CallPhase → Prop
| .acquiring | .awaiting | .unanswered => True
| .holding _ => True
| _ => False

instance (phase : CallPhase) : Decidable phase.OwnsJob := by
  cases phase <;> unfold CallPhase.OwnsJob <;>
    infer_instance

structure Call (ε : Type) where
  key : String
  task : Task ε
  phase : CallPhase
deriving DecidableEq, Repr

/-
  Control points of a worker.  `elapsed` is the timeout
  branch before the weak handle is upgraded, `announcing`
  holds the upgraded handle, `retiring` waits for the answer
  to `BeginRetirement`.  A worker drains with the handle, or
  without it after a failed upgrade.
-/
inductive WorkerPhase where
| receiving
| elapsed
| announcing
| retiring
| answered (accepted : Bool)
| draining (announced : Bool)
| drained
| stopped
deriving DecidableEq, Repr

/- The worker owns an upgraded handle of the registry. -/
def WorkerPhase.HoldsRegistry : WorkerPhase → Prop
| .announcing | .retiring | .drained => True
| .answered _ => True
| .draining announced => announced = true
| _ => False

instance (phase : WorkerPhase) :
    Decidable phase.HoldsRegistry := by
  cases phase <;> unfold WorkerPhase.HoldsRegistry <;>
    infer_instance

/- The worker is at a receive of its own channel. -/
def WorkerPhase.Receives : WorkerPhase → Prop
| .receiving => True
| .draining _ => True
| _ => False

instance (phase : WorkerPhase) : Decidable phase.Receives := by
  cases phase <;> unfold WorkerPhase.Receives <;>
    infer_instance

/-
  `run_partition_job`: no job, a job with the effects it has
  still to perform, or a job that has ended and whose
  completion has not been sent.
-/
inductive Activity (ε : Type) where
| none
| executing (job : PartitionJob ε) (rest : List ε)
| completing (job : PartitionJob ε)
deriving DecidableEq, Repr

/- The job being executed. -/
def Activity.executing? {ε : Type} :
    Activity ε → Option (PartitionJob ε)
| .executing job _ => some job
| _ => Option.none

/- The job a worker is busy with. -/
def Activity.job? {ε : Type} :
    Activity ε → Option (PartitionJob ε)
| .none => Option.none
| .executing job _ => some job
| .completing job => some job

structure Worker (ε : Type) where
  key : String
  generation : Generation
  queue : List (PartitionJob ε)
  phase : WorkerPhase
  activity : Activity ε
deriving DecidableEq, Repr

/- The jobs a worker has, the one it is busy with first. -/
def Worker.jobs {ε : Type} (worker : Worker ε) :
    List (PartitionJob ε) :=
  worker.activity.job?.toList ++ worker.queue

/- The task of the worker, and with it the receiver, exists. -/
def Worker.Live {ε : Type} (worker : Worker ε) : Prop :=
  worker.phase ≠ .stopped

instance {ε : Type} (worker : Worker ε) :
    Decidable worker.Live := by
  unfold Worker.Live
  infer_instance

/- `PartitionRegistryCommand`. -/
inductive Command where
| acquire (key : String) (reply : CallId)
| beginRetirement
    (key : String) (generation : Generation)
    (reply : WorkerId)
| retired (key : String) (generation : Generation)
deriving DecidableEq, Repr

/- `PartitionRegistryEntry`. -/
inductive Entry where
| active (generation : Generation) (sender : WorkerId)
| retiring (generation : Generation) (waiters : List CallId)
deriving DecidableEq, Repr

/-
  `PartitionerConfig`.  Zero capacities and zero timeouts do
  not get past the assertions of `with_options`.
-/
structure Config where
  capacity : Nat
  idleTimeout : Nat
  capacity_pos : 0 < capacity
  idleTimeout_pos : 0 < idleTimeout

/-
  `Semaphore::MAX_PERMITS`, which is `usize::MAX >> 3`.
  `mpsc::channel` panics on a capacity above it.
-/
def maxPermits : Nat := 2305843009213693951

/- The options under which a worker's channel can be made. -/
structure BoundedConfig extends Config where
  capacity_le : capacity ≤ maxPermits

instance : Coe BoundedConfig Config :=
  ⟨BoundedConfig.toConfig⟩

/- `with_options`; `none` is the panic of a failed assertion. -/
def withOptions (capacity idleTimeout : Nat) :
    Option Config :=
  if hCapacity : 0 < capacity then
    if hTimeout : 0 < idleTimeout then
      some ⟨capacity, idleTimeout, hCapacity, hTimeout⟩
    else
      none
  else
    none

/- Exactly the configurations come out of `with_options`. -/
theorem withOptions_eq_some_iff
    {capacity idleTimeout : Nat} {config : Config} :
    withOptions capacity idleTimeout = some config ↔
      config.capacity = capacity ∧
        config.idleTimeout = idleTimeout := by
  rcases config with ⟨c, t, hCapacity, hTimeout⟩
  unfold withOptions
  constructor
  · intro hSome
    split at hSome
    · split at hSome
      · cases hSome
        exact ⟨rfl, rfl⟩
      · cases hSome
    · cases hSome
  · rintro ⟨rfl, rfl⟩
    rw [dif_pos hCapacity, dif_pos hTimeout]

def defaultPartitionCapacity : Nat := 64

/- In seconds, as every idle timeout here. -/
def defaultPartitionIdleTimeout : Nat := 60

def withCapacity (capacity : Nat) : Option Config :=
  withOptions capacity defaultPartitionIdleTimeout

/- `with_capacity` panics on zero only. -/
theorem withCapacity_eq_none_iff (capacity : Nat) :
    withCapacity capacity = none ↔ capacity = 0 := by
  unfold withCapacity withOptions
  by_cases hCapacity : 0 < capacity
  · simp [hCapacity, defaultPartitionIdleTimeout]
    omega
  · simp [hCapacity]
    omega

/- `Partitioner::new`. -/
def new : Option Config :=
  withOptions defaultPartitionCapacity
    defaultPartitionIdleTimeout

/- The defaults pass the assertions and bound the channels. -/
theorem new_eq_some :
    ∃ config : BoundedConfig, new = some config :=
  ⟨⟨⟨64, 60, by decide, by decide⟩, by decide⟩, rfl⟩

end Partitioner

end Qanat

------------------------------------------------------------
-- States
------------------------------------------------------------

namespace Qanat

namespace Partitioner

/-
  `handles` counts the `Partitioner` clones.  `commands`,
  `entries`, `nextGeneration` and `registryRunning` belong to
  the registry task.  Calls and workers are named by their
  position.
-/
structure State (ε : Type) where
  handles : Nat
  calls : List (Call ε)
  commands : List Command
  entries : AList (fun _ : String => Entry)
  nextGeneration : Generation
  registryRunning : Bool
  workers : List (Worker ε)

namespace State

variable {ε : Type}

/- One handle, an idle registry and no worker. -/
def start : State ε where
  handles := 1
  calls := []
  commands := []
  entries := ∅
  nextGeneration := 1
  registryRunning := true
  workers := []

def setCall (s : State ε) (c : CallId) (call : Call ε) :
    State ε :=
  { s with calls := s.calls.set c call }

def setWorker
    (s : State ε) (w : WorkerId) (worker : Worker ε) :
    State ε :=
  { s with workers := s.workers.set w worker }

def setEntry (s : State ε) (key : String) (entry : Entry) :
    State ε :=
  { s with entries := s.entries.insert key entry }

def removeEntry (s : State ε) (key : String) : State ε :=
  { s with entries := s.entries.erase key }

def send (s : State ε) (command : Command) : State ε :=
  { s with commands := s.commands ++ [command] }

/- Some sender of the worker's channel has not been dropped. -/
def HasSender (s : State ε) (w : WorkerId) : Prop :=
  (∃ key generation,
    s.entries.lookup key = some (.active generation w)) ∨
  ∃ (c : CallId) (call : Call ε),
    s.calls[c]? = some call ∧ call.phase.sender? = some w

/- Some strong sender of the registry has not been dropped. -/
def HasRegistrySender (s : State ε) : Prop :=
  0 < s.handles ∨
    ∃ (w : WorkerId) (worker : Worker ε),
      s.workers[w]? = some worker ∧
        worker.phase.HoldsRegistry

/-
  The sender of the completion of a call is gone, used or
  dropped, and whoever awaits the completion is told.
-/
def Released (s : State ε) (c : CallId) : Prop :=
  (∃ call, s.calls[c]? = some call ∧
    ¬ call.phase.OwnsJob) ∧
  ∀ (w : WorkerId) (worker : Worker ε),
    s.workers[w]? = some worker →
      ∀ job ∈ worker.jobs, job.completion ≠ c

/-
  `reply.send(sender.clone())` on an acquisition: a cancelled
  call has dropped the receiver and the clone goes with it.
-/
def grant (s : State ε) (c : CallId) (sender : WorkerId) :
    State ε :=
  match s.calls[c]? with
  | some call =>
      if call.phase = .awaiting then
        s.setCall c { call with phase := .holding sender }
      else
        s
  | none => s

/- `reply.send(accepted)` on a retirement request. -/
def answer (s : State ε) (w : WorkerId) (accepted : Bool) :
    State ε :=
  match s.workers[w]? with
  | some worker =>
      if worker.phase = .retiring then
        s.setWorker w
          { worker with phase := .answered accepted }
      else
        s
  | none => s

/- `waiter.is_closed()`: nobody awaits the reply any more. -/
def isClosed (s : State ε) (c : CallId) : Bool :=
  match s.calls[c]? with
  | some call => call.phase ≠ .awaiting
  | none => true

/- The record `spawn_partition_worker` starts a worker with. -/
def spawned (key : String) (generation : Generation) :
    Worker ε where
  key := key
  generation := generation
  queue := []
  phase := .receiving
  activity := .none

/-
  Spawn the next generation for `key` and make it the active
  entry; the new worker's sender is its position.
-/
def spawnPartitionWorker (s : State ε) (key : String) :
    State ε :=
  { s with
    nextGeneration := s.nextGeneration + 1
    workers := s.workers ++ [spawned key s.nextGeneration]
    entries := s.entries.insert key
      (.active s.nextGeneration s.workers.length) }

end State

/- What the registry did with a command. -/
inductive Verdict where
| granted
| parked
| spawned
| retirement (accepted : Bool)
| replaced
| vacated
| stale
deriving DecidableEq, Repr

/- The turn has called `spawn_partition_worker`. -/
def Verdict.Spawns : Verdict → Prop
| .spawned | .replaced => True
| _ => False

instance (verdict : Verdict) : Decidable verdict.Spawns := by
  cases verdict <;> unfold Verdict.Spawns <;>
    infer_instance

namespace State

variable {ε : Type}

/-
  One turn of the loop of `partition_registry`.  Erasing an
  entry and inserting it again is kept as in the source.
-/
def partitionRegistry (s : State ε) :
    Command → State ε × Verdict
| .acquire key reply =>
    match s.entries.lookup key with
    | some (.active _ sender) =>
        (s.grant reply sender, .granted)
    | some (.retiring generation waiters) =>
        (s.setEntry key
          (.retiring generation (waiters ++ [reply])),
          .parked)
    | none =>
        ((s.spawnPartitionWorker key).grant reply
          s.workers.length, .spawned)
| .beginRetirement key generation reply =>
    let removed := s.removeEntry key
    match s.entries.lookup key with
    | some (.active current sender) =>
        if current = generation then
          ((removed.setEntry key
            (.retiring generation [])).answer reply true,
            .retirement true)
        else
          ((removed.setEntry key
            (.active current sender)).answer reply false,
            .retirement false)
    | some entry =>
        ((removed.setEntry key entry).answer reply false,
          .retirement false)
    | none => (removed.answer reply false, .retirement false)
| .retired key generation =>
    let removed := s.removeEntry key
    match s.entries.lookup key with
    | some (.retiring current waiters) =>
        if current = generation then
          let retained := waiters.filter
            (fun c => !s.isClosed c)
          if retained.isEmpty then
            (removed, .vacated)
          else
            (retained.foldl
              (fun s' c => s'.grant c s.workers.length)
              (removed.spawnPartitionWorker key), .replaced)
        else
          (removed.setEntry key
            (.retiring current waiters), .stale)
    | some entry => (removed.setEntry key entry, .stale)
    | none => (removed, .stale)

/-
  The registry task ends: its entries are dropped, with the
  senders of active workers and the replies parked in
  retiring entries.  Whoever awaits a reply is told so.
-/
def stopRegistry (s : State ε) : State ε :=
  { s with
    registryRunning := false
    entries := ∅
    calls := s.calls.map (fun call =>
      if call.phase = .awaiting then
        { call with phase := .unanswered }
      else
        call)
    workers := s.workers.map (fun worker =>
      if worker.phase = .retiring then
        { worker with phase := .answered false }
      else
        worker) }

end State

end Partitioner

end Qanat

------------------------------------------------------------
-- Steps
------------------------------------------------------------

namespace Qanat

namespace Partitioner

/-
  What a step does.  Events of a job carry the key it was
  submitted under.
-/
inductive Event (ε : Type) where
| cloned
| dropped
| called (key : String) (call : CallId) (task : Task ε)
| acquiring (call : CallId)
| registryGone (call : CallId)
| requestDropped (call : CallId)
| queued (key : String) (job : PartitionJob ε)
| sendFailed (call : CallId)
| returned (key : String) (call : CallId)
| cancelled (call : CallId)
| handled (command : Command) (verdict : Verdict)
| registryPanicked (command : Command)
| registryStopped
| started (key : String) (call : CallId)
| performed (key : String) (call : CallId) (effect : ε)
| finished (key : String) (call : CallId)
| completed (key : String) (call : CallId)
| closed (worker : WorkerId)
| timedOut (worker : WorkerId)
| upgraded (worker : WorkerId) (succeeded : Bool)
| announced (worker : WorkerId)
| announceFailed (worker : WorkerId)
| resumed (worker : WorkerId)
| drained (worker : WorkerId)
| retired (worker : WorkerId)

variable {ε : Type}

/-
  The steps of all tasks sharing one partition domain.  A
  turn of the registry that spawns a worker makes a channel
  for it, which takes a capacity of at most `maxPermits`.
-/
inductive Step (config : Config) :
    State ε → Event ε → State ε → Prop where
-- handles: a call borrows the handle it is made on
| clone {s : State ε} :
    0 < s.handles →
    Step config s .cloned
      { s with handles := s.handles + 1 }
| drop {s : State ε} {n : Nat} :
    s.handles = n + 1 →
    (n = 0 → ∀ call ∈ s.calls, ¬ call.phase.IsActive) →
    Step config s .dropped { s with handles := n }
-- `submit_task`
| call {s : State ε} {key : String} {task : Task ε} :
    0 < s.handles →
    Step config s (.called key s.calls.length task)
      { s with
        calls := s.calls ++ [⟨key, task, .acquiring⟩] }
| acquire {s : State ε} {c : CallId} {call : Call ε} :
    s.calls[c]? = some call →
    call.phase = .acquiring →
    s.registryRunning = true →
    Step config s (.acquiring c)
      ((s.setCall c { call with phase := .awaiting }).send
        (.acquire call.key c))
| registryGone {s : State ε} {c : CallId} {call : Call ε} :
    s.calls[c]? = some call →
    call.phase = .acquiring →
    s.registryRunning = false →
    Step config s (.registryGone c)
      (s.setCall c { call with phase := .panicked })
| requestDropped
    {s : State ε} {c : CallId} {call : Call ε} :
    s.calls[c]? = some call →
    call.phase = .unanswered →
    Step config s (.requestDropped c)
      (s.setCall c { call with phase := .panicked })
| send
    {s : State ε} {c : CallId} {call : Call ε}
    {w : WorkerId} {worker : Worker ε} :
    s.calls[c]? = some call →
    call.phase = .holding w →
    s.workers[w]? = some worker →
    worker.Live →
    worker.queue.length < config.capacity →
    Step config s (.queued call.key ⟨call.task, c⟩)
      ((s.setCall c { call with phase := .sent w }).setWorker
        w { worker with
            queue := worker.queue ++ [⟨call.task, c⟩] })
| sendFailed
    {s : State ε} {c : CallId} {call : Call ε}
    {w : WorkerId} :
    s.calls[c]? = some call →
    call.phase = .holding w →
    (∀ worker : Worker ε, s.workers[w]? = some worker →
      ¬ worker.Live) →
    Step config s (.sendFailed c)
      (s.setCall c { call with phase := .acquiring })
| return
    {s : State ε} {c : CallId} {call : Call ε}
    {w : WorkerId} :
    s.calls[c]? = some call →
    call.phase = .sent w →
    Step config s (.returned call.key c)
      (s.setCall c { call with phase := .returned })
| cancel {s : State ε} {c : CallId} {call : Call ε} :
    s.calls[c]? = some call →
    call.phase.OwnsJob →
    Step config s (.cancelled c)
      (s.setCall c { call with phase := .cancelled })
-- `partition_registry`
| handle
    {s : State ε} {command : Command}
    {rest : List Command} :
    s.registryRunning = true →
    s.commands = command :: rest →
    ((({ s with commands := rest }).partitionRegistry
        command).2.Spawns →
      config.capacity ≤ maxPermits) →
    Step config s
      (.handled command
        (({ s with commands := rest }).partitionRegistry
          command).2)
      (({ s with commands := rest }).partitionRegistry
        command).1
| panicRegistry
    {s : State ε} {command : Command}
    {rest : List Command} :
    s.registryRunning = true →
    s.commands = command :: rest →
    (({ s with commands := rest }).partitionRegistry
      command).2.Spawns →
    maxPermits < config.capacity →
    Step config s (.registryPanicked command)
      ({ s with commands := [] }).stopRegistry
| stopRegistry {s : State ε} :
    s.registryRunning = true →
    s.commands = [] →
    ¬ s.HasRegistrySender →
    Step config s .registryStopped s.stopRegistry
-- the loops of a worker
| receive
    {s : State ε} {w : WorkerId} {worker : Worker ε}
    {job : PartitionJob ε}
    {rest : List (PartitionJob ε)} :
    s.workers[w]? = some worker →
    worker.phase.Receives →
    worker.activity = .none →
    worker.queue = job :: rest →
    Step config s (.started worker.key job.completion)
      (s.setWorker w { worker with
        queue := rest
        activity := .executing job job.task.effects })
| close {s : State ε} {w : WorkerId} {worker : Worker ε} :
    s.workers[w]? = some worker →
    worker.phase = .receiving →
    worker.activity = .none →
    worker.queue = [] →
    ¬ s.HasSender w →
    Step config s (.closed w)
      (s.setWorker w { worker with phase := .stopped })
| timeout
    {s : State ε} {w : WorkerId} {worker : Worker ε} :
    s.workers[w]? = some worker →
    worker.phase = .receiving →
    worker.activity = .none →
    Step config s (.timedOut w)
      (s.setWorker w { worker with phase := .elapsed })
| upgrade
    {s : State ε} {w : WorkerId} {worker : Worker ε} :
    s.workers[w]? = some worker →
    worker.phase = .elapsed →
    s.HasRegistrySender →
    Step config s (.upgraded w true)
      (s.setWorker w { worker with phase := .announcing })
| upgradeFailed
    {s : State ε} {w : WorkerId} {worker : Worker ε} :
    s.workers[w]? = some worker →
    worker.phase = .elapsed →
    ¬ s.HasRegistrySender →
    Step config s (.upgraded w false)
      (s.setWorker w { worker with
        phase := .draining false })
| announce
    {s : State ε} {w : WorkerId} {worker : Worker ε} :
    s.workers[w]? = some worker →
    worker.phase = .announcing →
    s.registryRunning = true →
    Step config s (.announced w)
      ((s.setWorker w
        { worker with phase := .retiring }).send
        (.beginRetirement worker.key worker.generation w))
| announceFailed
    {s : State ε} {w : WorkerId} {worker : Worker ε} :
    s.workers[w]? = some worker →
    worker.phase = .announcing →
    s.registryRunning = false →
    Step config s (.announceFailed w)
      (s.setWorker w { worker with phase := .receiving })
| resume
    {s : State ε} {w : WorkerId} {worker : Worker ε}
    {accepted : Bool} :
    s.workers[w]? = some worker →
    worker.phase = .answered accepted →
    Step config s (.resumed w)
      (s.setWorker w { worker with
        phase :=
          if accepted then .draining true
          else .receiving })
| drain
    {s : State ε} {w : WorkerId} {worker : Worker ε}
    {announced : Bool} :
    s.workers[w]? = some worker →
    worker.phase = .draining announced →
    worker.activity = .none →
    worker.queue = [] →
    ¬ s.HasSender w →
    Step config s (.drained w)
      (s.setWorker w { worker with
        phase := if announced then .drained else .stopped })
| retire {s : State ε} {w : WorkerId} {worker : Worker ε} :
    s.workers[w]? = some worker →
    worker.phase = .drained →
    Step config s (.retired w)
      (if s.registryRunning then
        (s.setWorker w { worker with phase := .stopped }).send
          (.retired worker.key worker.generation)
      else
        s.setWorker w { worker with phase := .stopped })
-- `run_partition_job`: an unwinding task completes as well
| perform
    {s : State ε} {w : WorkerId} {worker : Worker ε}
    {job : PartitionJob ε} {effect : ε} {rest : List ε} :
    s.workers[w]? = some worker →
    worker.activity = .executing job (effect :: rest) →
    Step config s
      (.performed worker.key job.completion effect)
      (s.setWorker w { worker with
        activity := .executing job rest })
| finish
    {s : State ε} {w : WorkerId} {worker : Worker ε}
    {job : PartitionJob ε} :
    s.workers[w]? = some worker →
    worker.activity = .executing job [] →
    Step config s (.finished worker.key job.completion)
      (s.setWorker w { worker with
        activity := .completing job })
| complete
    {s : State ε} {w : WorkerId} {worker : Worker ε}
    {job : PartitionJob ε} :
    s.workers[w]? = some worker →
    worker.activity = .completing job →
    Step config s (.completed worker.key job.completion)
      (s.setWorker w { worker with activity := .none })

/- A partition domain with the given options. -/
def lts (ε : Type) (config : Config) :
    Transition.Lts (State ε) (Event ε) where
  initial s := s = State.start
  step := Step config

end Partitioner

end Qanat
