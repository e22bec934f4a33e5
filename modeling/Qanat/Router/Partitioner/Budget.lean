import Qanat.Library.Budgets
import Qanat.Router.Partitioner.Safety

/-
  Why a partition domain cannot spin.

  What every call, command and worker has still to do is
  counted, generously enough that each step does part of it.
  A worker goes idle once at most, since the registry never
  refuses to let it go, and the successor it may get is paid
  for by a call that waits for one.

  Main declarations:
    * `Partitioner.Asking`, `Partitioner.Asking.step`
    * `Partitioner.State.workLeft`
    * `Partitioner.Invariant.spend`
    * `Partitioner.domain_never_spins`
-/

------------------------------------------------------------
-- Retirements Asked For
------------------------------------------------------------

namespace Qanat

namespace Partitioner

variable {ε : Type} {config : BoundedConfig}

/-
  A worker that waits for the answer to its retirement has
  its request queued, and no answer is a refusal.
-/
structure Asking (s : State ε) : Prop where
  asked :
    ∀ (w : WorkerId) (worker : Worker ε),
      s.workers[w]? = some worker →
      worker.phase = .retiring →
        Command.beginRetirement worker.key worker.generation
          w ∈ s.commands
  accepted :
    ∀ (w : WorkerId) (worker : Worker ε),
      s.workers[w]? = some worker →
        worker.phase ≠ .answered false

theorem Asking.start :
    Asking (State.start : State ε) := by
  constructor <;> simp [State.start]

/- Workers and requests are as they were. -/
theorem Asking.of_eq
    {s s' : State ε}
    (hAsking : Asking s)
    (hWorkers : s'.workers = s.workers)
    (hCommands : ∀ command ∈ s.commands,
      command ∈ s'.commands) :
    Asking s' where
  asked := by
    intro w worker hWorker hPhase
    rw [hWorkers] at hWorker
    exact hCommands _ (hAsking.asked w worker hWorker hPhase)
  accepted := by
    intro w worker hWorker
    rw [hWorkers] at hWorker
    exact hAsking.accepted w worker hWorker

/- One worker moves. -/
theorem Asking.moveWorker
    {s : State ε} {w : WorkerId} {old new : Worker ε}
    {sent : List Command}
    (hAsking : Asking s)
    (hOld : s.workers[w]? = some old)
    (hAsked :
      new.phase = .retiring →
        Command.beginRetirement new.key new.generation w ∈
          s.commands ++ sent)
    (hAccepted : new.phase ≠ .answered false) :
    Asking (s.moveWorker w new sent) where
  asked := by
    intro v worker hWorker hPhase
    rcases (Lists.getElem?_set_eq_some hOld).mp hWorker with
      ⟨rfl, rfl⟩ | ⟨_, hSame⟩
    · exact hAsked hPhase
    · exact List.mem_append_left _
        (hAsking.asked v worker hSame hPhase)
  accepted := by
    intro v worker hWorker
    rcases (Lists.getElem?_set_eq_some hOld).mp hWorker with
      ⟨rfl, rfl⟩ | ⟨_, hSame⟩
    · exact hAccepted
    · exact hAsking.accepted v worker hSame

/- The worker moves to a phase nobody is asked in. -/
theorem Asking.setWorker
    {s : State ε} {w : WorkerId} {old new : Worker ε}
    (hAsking : Asking s)
    (hOld : s.workers[w]? = some old)
    (hAsked : new.phase ≠ .retiring)
    (hAccepted : new.phase ≠ .answered false) :
    Asking (s.setWorker w new) := by
  rw [State.setWorker_eq_moveWorker]
  exact hAsking.moveWorker hOld
    (fun hPhase => absurd hPhase hAsked) hAccepted

/- A worker at a receive neither asks nor is answered. -/
theorem WorkerPhase.Receives.not_asking
    {phase : WorkerPhase}
    (hReceives : phase.Receives) :
    phase ≠ .retiring ∧ phase ≠ .answered false := by
  constructor <;> rintro rfl <;> exact hReceives

/-
  A turn answers the request it was made by, and grants it;
  the other requests stay queued.
-/
theorem Asking.turn
    {s : State ε} {command : Command} {rest : List Command}
    {result : State ε × Verdict}
    (hAsking : Asking s)
    (hCommands : s.commands = command :: rest)
    (hTurn :
      Turn ({ s with commands := rest } : State ε) command
        result) :
    Asking result.1 where
  asked := by
    intro w worker hWorker hPhase
    rw [hTurn.commands]
    rcases hTurn.workers_inv hWorker with
      hSame | ⟨old, _, _, rfl⟩ | ⟨key, generation, rfl⟩
    · have hQueued := hAsking.asked w worker hSame hPhase
      rw [hCommands] at hQueued
      rcases List.mem_cons.mp hQueued with hHead | hRest
      · -- the turn would have answered this very worker
        exfalso
        cases hTurn with
        | @accepted v old hOld _ _ =>
            have hSelf : w = v := by
              injection hHead
            rcases (Lists.getElem?_set_eq_some hOld).mp hWorker
              with ⟨_, rfl⟩ | ⟨hOther, _⟩
            · cases hPhase
            · exact hOther hSelf.symm
        | _ => cases hHead
      · exact hRest
    · cases hPhase
    · cases hPhase
  accepted := by
    intro w worker hWorker
    rcases hTurn.workers_inv hWorker with
      hSame | ⟨old, _, _, rfl⟩ | ⟨key, generation, rfl⟩
    · exact hAsking.accepted w worker hSame
    · simp
    · simp [State.spawned]

/- Every step keeps what is asked and how it is answered. -/
theorem Asking.step
    {s s' : State ε} {e : Event ε}
    (hAsking : Asking s)
    (hInv : Invariant s)
    (hStep : Step config s e s') :
    Asking s' := by
  cases hStep with
  | clone | drop | call | registryGone | requestDropped
  | sendFailed | «return» | cancel =>
      exact hAsking.of_eq rfl (fun _ hMem => hMem)
  | acquire =>
      exact hAsking.of_eq rfl
        (fun _ hMem => List.mem_append_left _ hMem)
  | @send c call w worker hCall hPhase hWorker hLive hRoom =>
      have hMoved : Asking (s.setWorker w
          { worker with
            queue := worker.queue ++ [⟨call.task, c⟩] }) := by
        rw [State.setWorker_eq_moveWorker]
        apply hAsking.moveWorker hWorker
        · intro hAsks
          simpa using hAsking.asked w worker hWorker hAsks
        · exact hAsking.accepted w worker hWorker
      exact hMoved.of_eq rfl (fun _ hMem => hMem)
  | handle hRunning hCommands =>
      exact hAsking.turn hCommands
        (hInv.handle hRunning hCommands)
  | panicRegistry hRunning hCommands hSpawns hOver =>
      exact absurd config.capacity_le (Nat.not_le.mpr hOver)
  | stopRegistry hRunning hCommands hNone =>
      rw [hInv.stopRegistry_eq hNone]
      exact hAsking.of_eq rfl (fun _ hMem => hMem)
  | receive hWorker hReceives hIdle hQueue =>
      exact hAsking.setWorker hWorker hReceives.not_asking.1
        hReceives.not_asking.2
  | close hWorker | timeout hWorker | upgrade hWorker
  | upgradeFailed hWorker | announceFailed hWorker =>
      exact hAsking.setWorker hWorker (by simp) (by simp)
  | announce hWorker hPhase hRunning =>
      rw [State.setWorker_send_eq_moveWorker]
      exact hAsking.moveWorker hWorker (by simp) (by simp)
  | @resume w worker accepted hWorker hPhase =>
      cases accepted <;>
        exact hAsking.setWorker hWorker (by simp) (by simp)
  | @drain w worker announced hWorker hPhase hIdle hEmpty
      hSender =>
      cases announced <;>
        exact hAsking.setWorker hWorker (by simp) (by simp)
  | @retire w worker hWorker hPhase =>
      by_cases hRunning : s.registryRunning = true
      · rw [if_pos hRunning,
          State.setWorker_send_eq_moveWorker]
        exact hAsking.moveWorker hWorker (by simp) (by simp)
      · rw [if_neg hRunning]
        exact hAsking.setWorker hWorker (by simp) (by simp)
  | @perform w worker job effect rest hWorker hExecuting =>
      have hReceives := hInv.busy_receives w worker hWorker
        (by simp [hExecuting])
      exact hAsking.setWorker hWorker hReceives.not_asking.1
        hReceives.not_asking.2
  | @finish w worker job hWorker hExecuting =>
      have hReceives := hInv.busy_receives w worker hWorker
        (by simp [hExecuting])
      exact hAsking.setWorker hWorker hReceives.not_asking.1
        hReceives.not_asking.2
  | @complete w worker job hWorker hCompleting =>
      have hReceives := hInv.busy_receives w worker hWorker
        (by simp [hCompleting])
      exact hAsking.setWorker hWorker hReceives.not_asking.1
        hReceives.not_asking.2

theorem asking_of_reachable
    {config : BoundedConfig}
    {trace : List (Event ε)} {s : State ε}
    (hReach : (lts ε config).Reachable trace s) :
    Asking s := by
  apply hReach.invariant (P := fun _ s => Asking s)
  · intro s hStart
    have hEq : s = State.start := hStart
    rw [hEq]
    exact Asking.start
  · intro trace s e s' hBefore hAsking hStep
    exact hAsking.step (invariant_of_reachable hBefore) hStep

end Partitioner

end Qanat

------------------------------------------------------------
-- What Is Left To Do
------------------------------------------------------------

namespace Qanat

namespace Partitioner

variable {ε : Type}

/- The effects of a task, its start, its end and its answer. -/
def Task.dues (task : Task ε) : Nat :=
  task.effects.length + 3

def Activity.dues : Activity ε → Nat
| .none => 0
| .executing _ rest => rest.length + 2
| .completing _ => 1

/- The way of a worker to its end, by way of a retirement. -/
def WorkerPhase.dues : WorkerPhase → Nat
| .receiving => 8
| .elapsed => 7
| .announcing => 6
| .retiring => 4
| .answered _ => 4
| .draining _ => 3
| .drained => 2
| .stopped => 0

def Worker.dues (worker : Worker ε) : Nat :=
  worker.phase.dues + worker.activity.dues +
    (worker.queue.map (fun job => job.task.dues)).sum

/-
  An acquisition may have a worker spawned even if its call
  is gone.  The other commands are done with when handled.
-/
def Command.dues : Command → Nat
| .acquire _ _ => 9
| .beginRetirement _ _ _ => 1
| .retired _ _ => 1

/-
  A call that awaits its sender pays for the worker that may
  have to be spawned to serve it.
-/
def Call.dues (call : Call ε) : Nat :=
  match call.phase with
  | .acquiring => call.task.dues + 20
  | .awaiting => call.task.dues + 10
  | .unanswered => 1
  | .holding _ => call.task.dues + 2
  | .sent _ => 1
  | .returned | .panicked | .cancelled => 0

namespace State

def callDues (s : State ε) : Nat :=
  (s.calls.map Call.dues).sum

def commandDues (s : State ε) : Nat :=
  (s.commands.map Command.dues).sum

def workerDues (s : State ε) : Nat :=
  (s.workers.map Worker.dues).sum

/- What the tasks of the domain have still to do. -/
def workLeft (s : State ε) : Nat :=
  s.handles + s.registryRunning.toNat + s.callDues +
    s.commandDues + s.workerDues

end State

/- What a label brings into the domain, itself included. -/
def Event.brings : Event ε → Nat
| .cloned => 2
| .called _ _ task => task.dues + 21
| _ => 0

/- A call that moves. -/
theorem callDues_setCall
    {s : State ε} {c : CallId} {call : Call ε}
    (hCall : s.calls[c]? = some call)
    (new : Call ε) :
    (s.setCall c new).callDues + call.dues =
      s.callDues + new.dues :=
  Lists.sum_map_set Call.dues hCall new

/- A worker that moves. -/
theorem workerDues_setWorker
    {s : State ε} {w : WorkerId} {worker : Worker ε}
    (hWorker : s.workers[w]? = some worker)
    (new : Worker ε) :
    (s.setWorker w new).workerDues + worker.dues =
      s.workerDues + new.dues :=
  Lists.sum_map_set Worker.dues hWorker new

theorem commandDues_send
    (s : State ε) (command : Command) :
    (s.send command).commandDues =
      s.commandDues + command.dues := by
  simp [State.commandDues]

end Partitioner

end Qanat

------------------------------------------------------------
-- What a Turn of the Registry Spends
------------------------------------------------------------

namespace Qanat

namespace Partitioner

variable {ε : Type}

/- A grant spends what was put aside for a worker. -/
theorem callDues_grant
    (s : State ε) (c : CallId) (sender : WorkerId) :
    (s.grant c sender).callDues +
      (if s.isClosed c then 0 else 8) = s.callDues := by
  unfold State.grant State.isClosed
  cases hCall : s.calls[c]? with
  | none => simp
  | some call =>
      by_cases hPhase : call.phase = .awaiting
      · have hMoved := callDues_setCall hCall
          { call with phase := .holding sender }
        simp only [Call.dues, hPhase] at hMoved
        simp only [hPhase, if_true]
        simp only [ne_eq, not_true_eq_false, decide_false,
          Bool.false_eq_true, if_false]
        omega
      · simp [hPhase]

theorem callDues_grantAll_le
    (waiters : List CallId) (s : State ε)
    (sender : WorkerId) :
    (waiters.foldl (fun s' c => s'.grant c sender)
      s).callDues ≤ s.callDues := by
  induction waiters generalizing s with
  | nil => exact Nat.le_refl _
  | cons c rest ih =>
      have hFirst := callDues_grant s c sender
      have hRest := ih (s.grant c sender)
      simp only [List.foldl_cons]
      omega

/- One waiter that is still there pays for the new worker. -/
theorem callDues_grantAll
    {waiters : List CallId} {s : State ε}
    (hOpen : ∃ c rest, waiters = c :: rest ∧
      s.isClosed c = false)
    (sender : WorkerId) :
    (waiters.foldl (fun s' c => s'.grant c sender)
      s).callDues + 8 ≤ s.callDues := by
  rcases hOpen with ⟨c, rest, rfl, hOpen⟩
  have hFirst := callDues_grant s c sender
  have hRest :=
    callDues_grantAll_le rest (s.grant c sender) sender
  rw [hOpen] at hFirst
  simp only [Bool.false_eq_true, if_false] at hFirst
  simp only [List.foldl_cons]
  omega

theorem workerDues_spawnPartitionWorker
    (s : State ε) (key : String) :
    (s.spawnPartitionWorker key).workerDues =
      s.workerDues + 8 := by
  simp [State.workerDues, State.spawnPartitionWorker,
    State.spawned, Worker.dues, WorkerPhase.dues,
    Activity.dues]

/- A generation is replaced only if somebody waits for it. -/
theorem open_of_replaced
    {s : State ε} {key : String} {generation : Generation}
    {waiters : List CallId}
    (hEntry :
      s.entries.lookup key =
        some (.retiring generation waiters))
    (hVerdict :
      (s.partitionRegistry (.retired key generation)).2 =
        .replaced) :
    ∃ c rest,
      waiters.filter (fun c => !s.isClosed c) = c :: rest ∧
        s.isClosed c = false := by
  cases hRetained :
      waiters.filter (fun c => !s.isClosed c) with
  | nil =>
      simp [State.partitionRegistry, hEntry, hRetained]
        at hVerdict
  | cons c rest =>
      have hMem : c ∈ waiters.filter
          (fun c => !s.isClosed c) := by
        rw [hRetained]
        exact List.mem_cons_self
      exact ⟨c, rest, rfl, by
        simpa using (List.mem_filter.mp hMem).2⟩

/- A turn does at least the command it is made for. -/
theorem Turn.spends
    {s : State ε} {command : Command}
    {result : State ε × Verdict}
    (hTurn : Turn s command result)
    (hOpen :
      ∀ key generation waiters,
        command = .retired key generation →
        result.2 = .replaced →
        s.entries.lookup key =
            some (.retiring generation waiters) →
          ∃ c rest,
            waiters.filter (fun c => !s.isClosed c) =
                c :: rest ∧
              s.isClosed c = false) :
    result.1.callDues + result.1.workerDues + 1 ≤
      s.callDues + s.workerDues + command.dues := by
  cases hTurn with
  | @granted key reply generation sender hEntry =>
      have hCalls := callDues_grant s reply sender
      have hWorkers :
          (s.grant reply sender).workerDues =
            s.workerDues := by
        simp [State.workerDues]
      simp only [Command.dues]
      omega
  | parked hEntry =>
      show s.callDues + s.workerDues + 1 ≤
        s.callDues + s.workerDues + 9
      omega
  | @spawned key reply hEntry =>
      have hCalls := callDues_grant
        (s.spawnPartitionWorker key) reply s.workers.length
      have hWorkers :
          ((s.spawnPartitionWorker key).grant reply
            s.workers.length).workerDues =
              s.workerDues + 8 := by
        rw [← workerDues_spawnPartitionWorker s key]
        simp [State.workerDues]
      have hSame :
          (s.spawnPartitionWorker key).callDues =
            s.callDues := rfl
      simp only [Command.dues]
      omega
  | @accepted w worker hWorker hPhase hEntry =>
      have hWorkers := workerDues_setWorker hWorker
        { worker with phase := .answered true }
      simp only [Worker.dues, hPhase, WorkerPhase.dues]
        at hWorkers
      show s.callDues + (s.setWorker w _).workerDues + 1 ≤
        s.callDues + s.workerDues + 1
      omega
  | vacated hEntry hClosed =>
      show s.callDues + s.workerDues + 1 ≤
        s.callDues + s.workerDues + 1
      omega
  | @replaced key generation waiters hEntry =>
      have hCalls := callDues_grantAll
        (s := (s.removeEntry key).spawnPartitionWorker key)
        (hOpen key generation waiters rfl rfl hEntry)
        s.workers.length
      have hSame :
          ((s.removeEntry key).spawnPartitionWorker
            key).callDues = s.callDues := rfl
      have hWorkers :
          ((waiters.filter (fun c => !s.isClosed c)).foldl
            (fun s' c => s'.grant c s.workers.length)
            ((s.removeEntry key).spawnPartitionWorker
              key)).workerDues = s.workerDues + 8 := by
        have hSpawned :=
          workerDues_spawnPartitionWorker
            (s.removeEntry key) key
        simp only [State.workerDues,
          State.foldl_grant_workers] at hSpawned ⊢
        exact hSpawned
      simp only [Command.dues]
      omega

end Partitioner

end Qanat

------------------------------------------------------------
-- Every Step Does Part of It
------------------------------------------------------------

namespace Qanat

namespace Partitioner

variable {ε : Type} {config : BoundedConfig}

/- A call moves on and sends nothing. -/
theorem workLeft_setCall
    {s : State ε} {c : CallId} {call new : Call ε}
    (hCall : s.calls[c]? = some call)
    (hLess : new.dues + 1 ≤ call.dues) :
    (s.setCall c new).workLeft + 1 ≤ s.workLeft := by
  have hCalls := callDues_setCall hCall new
  have hWorkers :
      (s.setCall c new).workerDues = s.workerDues := rfl
  have hCommands :
      (s.setCall c new).commandDues = s.commandDues := rfl
  simp only [State.workLeft, State.setCall_handles,
    State.setCall_registryRunning]
  omega

/- A call that still has its job has something to do. -/
theorem Call.dues_pos_of_ownsJob
    {call : Call ε}
    (hOwns : call.phase.OwnsJob) :
    1 ≤ call.dues := by
  unfold Call.dues Task.dues
  cases hPhase : call.phase <;>
    simp [hPhase, CallPhase.OwnsJob] at hOwns ⊢

/- A worker moves on and sends nothing. -/
theorem workLeft_setWorker
    {s : State ε} {w : WorkerId} {worker new : Worker ε}
    (hWorker : s.workers[w]? = some worker)
    (hLess : new.dues + 1 ≤ worker.dues) :
    (s.setWorker w new).workLeft + 1 ≤ s.workLeft := by
  have hWorkers := workerDues_setWorker hWorker new
  have hCalls :
      (s.setWorker w new).callDues = s.callDues := rfl
  have hCommands :
      (s.setWorker w new).commandDues = s.commandDues := rfl
  simp only [State.workLeft, State.setWorker_handles,
    State.setWorker_registryRunning]
  omega

theorem workLeft_send
    (s : State ε) (command : Command) :
    (s.send command).workLeft =
      s.workLeft + command.dues := by
  have hCommands := commandDues_send s command
  have hCalls :
      (s.send command).callDues = s.callDues := rfl
  have hWorkers :
      (s.send command).workerDues = s.workerDues := rfl
  simp only [State.workLeft, State.send_handles,
    State.send_registryRunning]
  omega

/- A phase with less to do, and nothing else. -/
theorem Worker.dues_goto
    {worker : Worker ε} {phase phase' : WorkerPhase}
    (hPhase : worker.phase = phase)
    (hLess : phase'.dues + 1 ≤ phase.dues) :
    ({ worker with phase := phase' } : Worker ε).dues + 1 ≤
      worker.dues := by
  simp only [Worker.dues, hPhase]
  omega

/- A worker does part of its job. -/
theorem Worker.dues_work
    {worker : Worker ε} {activity : Activity ε}
    (hLess : activity.dues + 1 ≤ worker.activity.dues) :
    ({ worker with activity := activity } :
      Worker ε).dues + 1 ≤ worker.dues := by
  simp only [Worker.dues]
  omega

/- A job that is sent is paid for by its call. -/
theorem workLeft_sendJob
    {s : State ε} {c : CallId} {call : Call ε}
    {w : WorkerId} {worker : Worker ε}
    (hCall : s.calls[c]? = some call)
    (hPhase : call.phase = .holding w)
    (hWorker : s.workers[w]? = some worker) :
    ((s.setCall c { call with phase := .sent w }).setWorker w
      { worker with
        queue := worker.queue ++
          [⟨call.task, c⟩] }).workLeft + 1 ≤
      s.workLeft := by
  have hCalls := callDues_setCall hCall
    { call with phase := .sent w }
  simp only [Call.dues, hPhase] at hCalls
  have hCalled :
      (s.setCall c { call with phase := .sent w }).workers[w]? =
        some worker := hWorker
  have hWorkers := workerDues_setWorker hCalled
    { worker with
      queue := worker.queue ++ [⟨call.task, c⟩] }
  simp only [Worker.dues, List.map_append, List.map_cons,
    List.map_nil, List.sum_append, List.sum_singleton]
    at hWorkers
  have hSameCalls :
      ((s.setCall c { call with phase := .sent w }).setWorker
        w { worker with
            queue := worker.queue ++
              [⟨call.task, c⟩] }).callDues =
        (s.setCall c
          { call with phase := .sent w }).callDues := rfl
  have hSameWorkers :
      (s.setCall c
        { call with phase := .sent w }).workerDues =
          s.workerDues := rfl
  have hSameCommands :
      ((s.setCall c { call with phase := .sent w }).setWorker
        w { worker with
            queue := worker.queue ++
              [⟨call.task, c⟩] }).commandDues =
        s.commandDues := rfl
  simp only [State.workLeft, State.setWorker_handles,
    State.setWorker_registryRunning, State.setCall_handles,
    State.setCall_registryRunning]
  omega

/- A handled command is done with. -/
theorem Invariant.workLeft_handle
    {s : State ε} {command : Command} {rest : List Command}
    (hInv : Invariant s)
    (hRunning : s.registryRunning = true)
    (hCommands : s.commands = command :: rest) :
    (({ s with commands := rest } :
      State ε).partitionRegistry command).1.workLeft + 1 ≤
        s.workLeft := by
  have hTurn := hInv.handle hRunning hCommands
  have hSpends := hTurn.spends (by
    rintro key generation waiters rfl hVerdict hEntry
    exact open_of_replaced hEntry hVerdict)
  have hHandles := hTurn.handles
  have hRegistry := hTurn.registryRunning
  have hQueue := hTurn.commands
  have hLeft :
      s.commandDues = command.dues +
        (({ s with commands := rest } :
          State ε).partitionRegistry
            command).1.commandDues := by
    simp only [State.commandDues, hQueue, hCommands,
      List.map_cons, List.sum_cons]
  have hCalls :
      ({ s with commands := rest } : State ε).callDues =
        s.callDues := rfl
  have hWorkers :
      ({ s with commands := rest } : State ε).workerDues =
        s.workerDues := rfl
  simp only [State.workLeft, hHandles, hRegistry]
  omega

/- What becomes of handles and of callers without a sender. -/
def Event.IsSubmitting : Event ε → Prop
| .cloned | .dropped | .acquiring _ => True
| .called _ _ _ | .registryGone _ | .requestDropped _ => True
| .returned _ _ | .cancelled _ => True
| _ => False

/- These steps spend whatever the options are. -/
theorem Step.spend_submitting
    {config : Config} {s s' : State ε} {e : Event ε}
    (hStep : Step config s e s')
    (hSubmits : e.IsSubmitting) :
    s'.workLeft + 1 ≤ s.workLeft + e.brings := by
  cases hStep with
  | clone hHandles =>
      show (s.handles + 1) + s.registryRunning.toNat +
        s.callDues + s.commandDues + s.workerDues + 1 ≤ _
      simp only [State.workLeft, Event.brings]
      omega
  | @drop n hHandles hCalls =>
      show n + s.registryRunning.toNat +
        s.callDues + s.commandDues + s.workerDues + 1 ≤ _
      simp only [State.workLeft, Event.brings]
      omega
  | @call key task hHandles =>
      have hCalls :
          ({ s with
            calls := s.calls ++ [⟨key, task, .acquiring⟩] } :
              State ε).callDues =
            s.callDues + (task.dues + 20) := by
        simp [State.callDues, Call.dues]
      show s.handles + s.registryRunning.toNat +
        State.callDues _ + s.commandDues +
          s.workerDues + 1 ≤ _
      rw [hCalls]
      simp only [State.workLeft, Event.brings]
      omega
  | @acquire c call hCall hPhase hRunning =>
      have hMoved := callDues_setCall hCall
        { call with phase := .awaiting }
      rw [workLeft_send]
      simp only [Call.dues, hPhase] at hMoved
      show s.handles + s.registryRunning.toNat +
        State.callDues _ + s.commandDues +
          s.workerDues + 9 + 1 ≤ _
      simp only [State.workLeft, Event.brings]
      omega
  | registryGone hCall hPhase | requestDropped hCall hPhase =>
      apply workLeft_setCall hCall
      simp [Call.dues, hPhase]
  | «return» hCall hPhase =>
      apply workLeft_setCall hCall
      simp [Call.dues, hPhase]
  | cancel hCall hOwns =>
      exact workLeft_setCall hCall
        (Call.dues_pos_of_ownsJob hOwns)
  | _ => exact hSubmits.elim

/-
  Every step of a reachable state spends part of what is
  left, or of what it brings itself.
-/
theorem Invariant.spend
    {s s' : State ε} {e : Event ε}
    (hInv : Invariant s)
    (hAsking : Asking s)
    (hStep : Step config s e s') :
    s'.workLeft + 1 ≤ s.workLeft + e.brings := by
  have hNoFault := hInv.not_isFault hStep
  have hSubmits :
      e.IsSubmitting →
        s'.workLeft + 1 ≤ s.workLeft + e.brings :=
    hStep.spend_submitting
  cases hStep with
  | clone | drop | call | acquire | registryGone
  | requestDropped | «return» | cancel =>
      exact hSubmits trivial
  | sendFailed => exact absurd trivial hNoFault
  | @send c call w worker hCall hPhase hWorker hLive hRoom =>
      exact workLeft_sendJob hCall hPhase hWorker
  | handle hRunning hCommands =>
      exact hInv.workLeft_handle hRunning hCommands
  | panicRegistry hRunning hCommands hSpawns hOver =>
      exact absurd config.capacity_le (Nat.not_le.mpr hOver)
  | stopRegistry hRunning hCommands hNone =>
      rw [hInv.stopRegistry_eq hNone]
      show s.handles + 0 + s.callDues + s.commandDues +
        s.workerDues + 1 ≤ _
      simp only [State.workLeft, hRunning, Bool.toNat_true]
      omega
  | @receive w worker job rest hWorker hReceives hIdle hQueue =>
      apply workLeft_setWorker hWorker
      simp only [Worker.dues, hIdle, hQueue, Activity.dues,
        Task.dues, List.map_cons, List.sum_cons]
      omega
  | close hWorker hPhase | timeout hWorker hPhase
  | upgrade hWorker hPhase | upgradeFailed hWorker hPhase =>
      exact workLeft_setWorker hWorker
        (Worker.dues_goto hPhase (by simp [WorkerPhase.dues]))
  | @announce w worker hWorker hPhase hRunning =>
      rw [workLeft_send]
      have hMoved := workerDues_setWorker hWorker
        { worker with phase := .retiring }
      simp only [Worker.dues, hPhase, WorkerPhase.dues]
        at hMoved
      show s.handles + s.registryRunning.toNat +
        s.callDues + s.commandDues +
          State.workerDues _ + 1 + 1 ≤ _
      simp only [State.workLeft, Event.brings]
      omega
  | @announceFailed w worker hWorker hPhase hStopped =>
      -- the worker itself keeps the registry running
      exact absurd
        (Or.inr ⟨w, worker, hWorker, by
          simp [hPhase, WorkerPhase.HoldsRegistry]⟩)
        (hInv.registryOff hStopped).1
  | @resume w worker accepted hWorker hPhase =>
      cases accepted with
      | true =>
          exact workLeft_setWorker hWorker
            (Worker.dues_goto hPhase
              (by simp [WorkerPhase.dues]))
      | false =>
          exact absurd hPhase
            (hAsking.accepted w worker hWorker)
  | @drain w worker announced hWorker hPhase =>
      cases announced <;>
        exact workLeft_setWorker hWorker
          (Worker.dues_goto hPhase
            (by simp [WorkerPhase.dues]))
  | @retire w worker hWorker hPhase =>
      have hMoved := workerDues_setWorker hWorker
        { worker with phase := .stopped }
      simp only [Worker.dues, hPhase, WorkerPhase.dues]
        at hMoved
      by_cases hRunning : s.registryRunning = true
      · rw [if_pos hRunning, workLeft_send]
        show s.handles + s.registryRunning.toNat +
          s.callDues + s.commandDues +
            State.workerDues _ + 1 + 1 ≤ _
        simp only [State.workLeft, Event.brings]
        omega
      · rw [if_neg hRunning]
        exact workLeft_setWorker hWorker
          (Worker.dues_goto hPhase
            (by simp [WorkerPhase.dues]))
  | perform hWorker hExecuting =>
      apply workLeft_setWorker hWorker
      apply Worker.dues_work
      simp [hExecuting, Activity.dues]
  | finish hWorker hExecuting =>
      apply workLeft_setWorker hWorker
      apply Worker.dues_work
      simp [hExecuting, Activity.dues]
  | complete hWorker hCompleting =>
      apply workLeft_setWorker hWorker
      apply Worker.dues_work
      simp [hCompleting, Activity.dues]

/- Callers that are told of the end have less to do. -/
theorem callDues_stopRegistry_le (s : State ε) :
    s.stopRegistry.callDues ≤ s.callDues := by
  simp only [State.callDues, State.stopRegistry]
  induction s.calls with
  | nil => exact Nat.le_refl _
  | cons call rest ih =>
      simp only [List.map_cons, List.sum_cons]
      apply Nat.add_le_add _ ih
      split
      · next hPhase =>
          simp only [Call.dues, hPhase, Task.dues]
          omega
      · exact Nat.le_refl _

/- A registry that ends, with nobody at work. -/
theorem Barren.workLeft_stopRegistry
    {s : State ε}
    (hBarren : Barren s)
    (hRunning : s.registryRunning = true) :
    ({ s with commands := [] } :
        State ε).stopRegistry.workLeft + 1 ≤ s.workLeft := by
  have hCalls :=
    callDues_stopRegistry_le
      ({ s with commands := [] } : State ε)
  have hSame :
      ({ s with commands := [] } : State ε).callDues =
        s.callDues := rfl
  have hWorkers :
      ({ s with commands := [] } :
        State ε).stopRegistry.workerDues = 0 := by
    simp [State.workerDues, State.stopRegistry,
      hBarren.workers]
  have hLeft :
      s.workLeft = s.handles + 1 + s.callDues +
        s.commandDues + s.workerDues := by
    simp only [State.workLeft, hRunning, Bool.toNat_true]
  show s.handles + 0 + State.callDues _ + 0 +
    State.workerDues _ + 1 ≤ _
  omega

/- The same for a domain that cannot make channels. -/
theorem Barren.spend
    {config : Config} {s s' : State ε} {e : Event ε}
    (hBarren : Barren s)
    (hOver : maxPermits < config.capacity)
    (hStep : Step config s e s') :
    s'.workLeft + 1 ≤ s.workLeft + e.brings := by
  have hSubmits :
      e.IsSubmitting →
        s'.workLeft + 1 ≤ s.workLeft + e.brings :=
    hStep.spend_submitting
  cases hStep with
  | clone | drop | call | acquire | registryGone
  | requestDropped | «return» | cancel =>
      exact hSubmits trivial
  | sendFailed hCall hPhase =>
      have hNone := hBarren.calls _ _ hCall
      rw [hPhase] at hNone
      exact hNone.elim
  | handle hRunning hCommands hFits =>
      exact absurd (hFits (hBarren.spawns hCommands))
        (Nat.not_le.mpr hOver)
  | panicRegistry hRunning =>
      exact hBarren.workLeft_stopRegistry hRunning
  | stopRegistry hRunning hCommands hNone =>
      have hSpends := hBarren.workLeft_stopRegistry hRunning
      rw [← hCommands] at hSpends
      exact hSpends
  | send _ _ hWorker | receive hWorker | close hWorker
  | timeout hWorker | upgrade hWorker | upgradeFailed hWorker
  | announce hWorker | announceFailed hWorker
  | resume hWorker | drain hWorker | retire hWorker
  | perform hWorker | finish hWorker | complete hWorker =>
      exact absurd hWorker hBarren.no_worker

theorem spend_of_reachable
    {config : Config}
    {trace : List (Event ε)} {s s' : State ε} {e : Event ε}
    (hReach : (lts ε config).Reachable trace s)
    (hStep : Step config s e s') :
    s'.workLeft + 1 ≤ s.workLeft + e.brings := by
  by_cases hFits : config.capacity ≤ maxPermits
  · have hBounded :
        (lts ε (⟨config, hFits⟩ : BoundedConfig)).Reachable
          trace s := hReach
    have hTaken :
        Step (⟨config, hFits⟩ : BoundedConfig) s e s' := hStep
    exact (invariant_of_reachable hBounded).spend
      (asking_of_reachable hBounded) hTaken
  · have hOver := Nat.not_le.mp hFits
    exact (barren_of_reachable hOver hReach).spend hOver hStep

/- Every domain lives on what is brought into it. -/
def budget (ε : Type) (config : Config) :
    (lts ε config).Budget where
  left := State.workLeft
  paid := Event.brings
  spend _ _ _ _ hReach hStep :=
    spend_of_reachable hReach hStep

/-
  However submitters, registry and workers of all
  generations interleave, and whenever idle timers fire, a
  run is bounded by the handles cloned and the tasks
  submitted in it: nothing in the domain goes round in
  circles.
-/
theorem domain_never_spins
    {config : Config}
    {trace : List (Event ε)} {s : State ε}
    (hReach : (lts ε config).Reachable trace s) :
    trace.length ≤ 2 + (trace.map Event.brings).sum := by
  have hFirst :
      ∀ s, (lts ε config).initial s →
        (budget ε config).left s ≤ 2 := by
    intro s hStart
    have hEq : s = State.start := hStart
    subst hEq
    simp [budget, State.workLeft, State.start,
      State.callDues, State.commandDues, State.workerDues]
  have hBound := (budget ε config).length_le hFirst hReach
  exact Nat.le_trans (Nat.le_add_right _ _) hBound

/- A run with a retirement, which three calls have paid for. -/
theorem domain_never_spins_takeover :
    takeoverTrace.length ≤
      2 + (takeoverTrace.map Event.brings).sum :=
  domain_never_spins takeover_reachable

end Partitioner

end Qanat
