import Qanat.Library.Lists
import Qanat.Router.Partitioner.Model

/-
  What the state updates of the partition domain leave as it
  was, and the effect of one registry turn on each component.
-/

------------------------------------------------------------
-- Updates
------------------------------------------------------------

namespace Qanat

namespace Partitioner

namespace State

variable {ε : Type}

@[simp] theorem setCall_calls
    (s : State ε) (c : CallId) (call : Call ε) :
    (s.setCall c call).calls = s.calls.set c call := rfl

@[simp] theorem setCall_workers
    (s : State ε) (c : CallId) (call : Call ε) :
    (s.setCall c call).workers = s.workers := rfl

@[simp] theorem setCall_entries
    (s : State ε) (c : CallId) (call : Call ε) :
    (s.setCall c call).entries = s.entries := rfl

@[simp] theorem setCall_commands
    (s : State ε) (c : CallId) (call : Call ε) :
    (s.setCall c call).commands = s.commands := rfl

@[simp] theorem setCall_handles
    (s : State ε) (c : CallId) (call : Call ε) :
    (s.setCall c call).handles = s.handles := rfl

@[simp] theorem setCall_registryRunning
    (s : State ε) (c : CallId) (call : Call ε) :
    (s.setCall c call).registryRunning =
      s.registryRunning := rfl

@[simp] theorem setWorker_calls
    (s : State ε) (w : WorkerId) (worker : Worker ε) :
    (s.setWorker w worker).calls = s.calls := rfl

@[simp] theorem setWorker_workers
    (s : State ε) (w : WorkerId) (worker : Worker ε) :
    (s.setWorker w worker).workers =
      s.workers.set w worker := rfl

@[simp] theorem setWorker_entries
    (s : State ε) (w : WorkerId) (worker : Worker ε) :
    (s.setWorker w worker).entries = s.entries := rfl

@[simp] theorem setWorker_commands
    (s : State ε) (w : WorkerId) (worker : Worker ε) :
    (s.setWorker w worker).commands = s.commands := rfl

@[simp] theorem setWorker_handles
    (s : State ε) (w : WorkerId) (worker : Worker ε) :
    (s.setWorker w worker).handles = s.handles := rfl

@[simp] theorem setWorker_registryRunning
    (s : State ε) (w : WorkerId) (worker : Worker ε) :
    (s.setWorker w worker).registryRunning =
      s.registryRunning := rfl

@[simp] theorem send_calls (s : State ε) (command : Command) :
    (s.send command).calls = s.calls := rfl

@[simp] theorem send_workers
    (s : State ε) (command : Command) :
    (s.send command).workers = s.workers := rfl

@[simp] theorem send_entries
    (s : State ε) (command : Command) :
    (s.send command).entries = s.entries := rfl

@[simp] theorem send_commands
    (s : State ε) (command : Command) :
    (s.send command).commands = s.commands ++ [command] := rfl

@[simp] theorem send_handles
    (s : State ε) (command : Command) :
    (s.send command).handles = s.handles := rfl

@[simp] theorem send_registryRunning
    (s : State ε) (command : Command) :
    (s.send command).registryRunning =
      s.registryRunning := rfl

/- Only the calls differ. -/
structure SameButCalls (s s' : State ε) : Prop where
  handles : s'.handles = s.handles
  commands : s'.commands = s.commands
  entries : s'.entries = s.entries
  nextGeneration : s'.nextGeneration = s.nextGeneration
  registryRunning : s'.registryRunning = s.registryRunning
  workers : s'.workers = s.workers

theorem SameButCalls.refl (s : State ε) :
    SameButCalls s s :=
  ⟨rfl, rfl, rfl, rfl, rfl, rfl⟩

theorem SameButCalls.trans
    {s s' s'' : State ε}
    (hFirst : SameButCalls s s')
    (hSecond : SameButCalls s' s'') :
    SameButCalls s s'' where
  handles := hSecond.handles.trans hFirst.handles
  commands := hSecond.commands.trans hFirst.commands
  entries := hSecond.entries.trans hFirst.entries
  nextGeneration :=
    hSecond.nextGeneration.trans hFirst.nextGeneration
  registryRunning :=
    hSecond.registryRunning.trans hFirst.registryRunning
  workers := hSecond.workers.trans hFirst.workers

theorem grant_sameButCalls
    (s : State ε) (c : CallId) (sender : WorkerId) :
    SameButCalls s (s.grant c sender) := by
  unfold grant
  cases s.calls[c]? with
  | none => exact SameButCalls.refl s
  | some call =>
      by_cases hPhase : call.phase = .awaiting
      · simp only [hPhase, if_true]
        exact ⟨rfl, rfl, rfl, rfl, rfl, rfl⟩
      · simp only [hPhase, if_false]
        exact SameButCalls.refl s

/- Granting to several calls changes nothing but the calls. -/
theorem foldl_grant_sameButCalls
    (waiters : List CallId)
    (s : State ε)
    (sender : WorkerId) :
    SameButCalls s
      (waiters.foldl (fun s' c => s'.grant c sender) s) := by
  induction waiters generalizing s with
  | nil => exact SameButCalls.refl s
  | cons c rest ih =>
      exact (grant_sameButCalls s c sender).trans
        (ih (s.grant c sender))

/- A grant turns a call that awaits its reply into a holder. -/
def Call.granted (call : Call ε) (sender : WorkerId) :
    Call ε :=
  if call.phase = .awaiting then
    { call with phase := .holding sender }
  else
    call

theorem grant_calls_getElem?
    (s : State ε) (c : CallId) (sender : WorkerId)
    (i : CallId) :
    (s.grant c sender).calls[i]? =
      if c = i then
        (s.calls[i]?).map (fun call =>
          Call.granted call sender)
      else
        s.calls[i]? := by
  unfold grant Call.granted
  cases hCall : s.calls[c]? with
  | none =>
      by_cases hEq : c = i
      · subst hEq
        simp [hCall]
      · simp [hEq]
  | some call =>
      by_cases hEq : c = i
      · subst hEq
        by_cases hPhase : call.phase = .awaiting
        · simp [hPhase, hCall,
            List.getElem?_set_of_lt' _ _
              (List.getElem?_eq_some_iff.mp hCall).1]
        · simp [hPhase, hCall]
      · by_cases hPhase : call.phase = .awaiting
        · simp [hPhase, hEq,
            List.getElem?_set_of_lt' _ _
              (List.getElem?_eq_some_iff.mp hCall).1]
        · simp [hPhase, hEq]

/- Granting to several calls reaches each of them. -/
theorem foldl_grant_calls_getElem?
    (waiters : List CallId)
    (s : State ε)
    (sender : WorkerId)
    (i : CallId) :
    (waiters.foldl (fun s' c => s'.grant c sender)
        s).calls[i]? =
      if i ∈ waiters then
        (s.calls[i]?).map (fun call =>
          Call.granted call sender)
      else
        s.calls[i]? := by
  induction waiters generalizing s with
  | nil => simp
  | cons c rest ih =>
      rw [List.foldl_cons, ih, grant_calls_getElem?]
      by_cases hEq : c = i
      · subst hEq
        cases hCall : s.calls[c]? with
        | none => simp
        | some call =>
            by_cases hPhase : call.phase = .awaiting <;>
              simp [Call.granted, hPhase]
      · have hNe : ¬ i = c := fun h => hEq h.symm
        simp [hEq, hNe]

theorem grant_calls_length
    (s : State ε) (c : CallId) (sender : WorkerId) :
    (s.grant c sender).calls.length = s.calls.length := by
  unfold grant
  cases s.calls[c]? with
  | none => rfl
  | some call =>
      by_cases hPhase : call.phase = .awaiting <;>
        simp [hPhase]

theorem foldl_grant_calls_length
    (waiters : List CallId)
    (s : State ε)
    (sender : WorkerId) :
    (waiters.foldl (fun s' c => s'.grant c sender)
      s).calls.length = s.calls.length := by
  induction waiters generalizing s with
  | nil => rfl
  | cons c rest ih =>
      rw [List.foldl_cons, ih, grant_calls_length]

/- Only the workers differ. -/
structure SameButWorkers (s s' : State ε) : Prop where
  handles : s'.handles = s.handles
  calls : s'.calls = s.calls
  commands : s'.commands = s.commands
  entries : s'.entries = s.entries
  registryRunning : s'.registryRunning = s.registryRunning

theorem answer_sameButWorkers
    (s : State ε) (w : WorkerId) (accepted : Bool) :
    SameButWorkers s (s.answer w accepted) := by
  unfold answer
  cases s.workers[w]? with
  | none => exact ⟨rfl, rfl, rfl, rfl, rfl⟩
  | some worker =>
      by_cases hPhase : worker.phase = .retiring
      · simp only [hPhase, if_true]
        exact ⟨rfl, rfl, rfl, rfl, rfl⟩
      · simp only [hPhase, if_false]
        exact ⟨rfl, rfl, rfl, rfl, rfl⟩

@[simp] theorem grant_workers
    (s : State ε) (c : CallId) (sender : WorkerId) :
    (s.grant c sender).workers = s.workers :=
  (grant_sameButCalls s c sender).workers

@[simp] theorem grant_entries
    (s : State ε) (c : CallId) (sender : WorkerId) :
    (s.grant c sender).entries = s.entries :=
  (grant_sameButCalls s c sender).entries

@[simp] theorem grant_commands
    (s : State ε) (c : CallId) (sender : WorkerId) :
    (s.grant c sender).commands = s.commands :=
  (grant_sameButCalls s c sender).commands

@[simp] theorem grant_handles
    (s : State ε) (c : CallId) (sender : WorkerId) :
    (s.grant c sender).handles = s.handles :=
  (grant_sameButCalls s c sender).handles

@[simp] theorem grant_registryRunning
    (s : State ε) (c : CallId) (sender : WorkerId) :
    (s.grant c sender).registryRunning =
      s.registryRunning :=
  (grant_sameButCalls s c sender).registryRunning

@[simp] theorem foldl_grant_workers
    (waiters : List CallId) (s : State ε)
    (sender : WorkerId) :
    (waiters.foldl (fun s' c => s'.grant c sender)
      s).workers = s.workers :=
  (foldl_grant_sameButCalls waiters s sender).workers

@[simp] theorem foldl_grant_entries
    (waiters : List CallId) (s : State ε)
    (sender : WorkerId) :
    (waiters.foldl (fun s' c => s'.grant c sender)
      s).entries = s.entries :=
  (foldl_grant_sameButCalls waiters s sender).entries

@[simp] theorem foldl_grant_commands
    (waiters : List CallId) (s : State ε)
    (sender : WorkerId) :
    (waiters.foldl (fun s' c => s'.grant c sender)
      s).commands = s.commands :=
  (foldl_grant_sameButCalls waiters s sender).commands

@[simp] theorem foldl_grant_handles
    (waiters : List CallId) (s : State ε)
    (sender : WorkerId) :
    (waiters.foldl (fun s' c => s'.grant c sender)
      s).handles = s.handles :=
  (foldl_grant_sameButCalls waiters s sender).handles

@[simp] theorem foldl_grant_registryRunning
    (waiters : List CallId) (s : State ε)
    (sender : WorkerId) :
    (waiters.foldl (fun s' c => s'.grant c sender)
      s).registryRunning = s.registryRunning :=
  (foldl_grant_sameButCalls waiters s sender).registryRunning

@[simp] theorem answer_calls
    (s : State ε) (w : WorkerId) (accepted : Bool) :
    (s.answer w accepted).calls = s.calls :=
  (answer_sameButWorkers s w accepted).calls

@[simp] theorem answer_entries
    (s : State ε) (w : WorkerId) (accepted : Bool) :
    (s.answer w accepted).entries = s.entries :=
  (answer_sameButWorkers s w accepted).entries

@[simp] theorem answer_commands
    (s : State ε) (w : WorkerId) (accepted : Bool) :
    (s.answer w accepted).commands = s.commands :=
  (answer_sameButWorkers s w accepted).commands

@[simp] theorem answer_handles
    (s : State ε) (w : WorkerId) (accepted : Bool) :
    (s.answer w accepted).handles = s.handles :=
  (answer_sameButWorkers s w accepted).handles

@[simp] theorem answer_registryRunning
    (s : State ε) (w : WorkerId) (accepted : Bool) :
    (s.answer w accepted).registryRunning =
      s.registryRunning :=
  (answer_sameButWorkers s w accepted).registryRunning

end State

end Partitioner

end Qanat

------------------------------------------------------------
-- One Turn of the Registry
------------------------------------------------------------

namespace Qanat

namespace Partitioner

variable {ε : Type}

/-
  The turns the registry takes when its entries agree with
  the workers: an acquisition is granted, parked or served
  by a new worker, a retirement is accepted, and a retired
  generation is replaced or leaves its key vacant.
-/
inductive Turn (s : State ε) :
    Command → State ε × Verdict → Prop where
| granted
    {key : String} {reply : CallId}
    {generation : Generation} {sender : WorkerId} :
    s.entries.lookup key =
      some (.active generation sender) →
    Turn s (.acquire key reply)
      (s.grant reply sender, .granted)
| parked
    {key : String} {reply : CallId}
    {generation : Generation} {waiters : List CallId} :
    s.entries.lookup key =
      some (.retiring generation waiters) →
    Turn s (.acquire key reply)
      (s.setEntry key
        (.retiring generation (waiters ++ [reply])), .parked)
| spawned {key : String} {reply : CallId} :
    s.entries.lookup key = none →
    Turn s (.acquire key reply)
      ((s.spawnPartitionWorker key).grant reply
        s.workers.length, .spawned)
| accepted
    {w : WorkerId} {worker : Worker ε} :
    s.workers[w]? = some worker →
    worker.phase = .retiring →
    s.entries.lookup worker.key =
      some (.active worker.generation w) →
    Turn s
      (.beginRetirement worker.key worker.generation w)
      (((s.removeEntry worker.key).setEntry worker.key
          (.retiring worker.generation [])).setWorker w
        { worker with phase := .answered true },
        .retirement true)
| vacated
    {key : String} {generation : Generation}
    {waiters : List CallId} :
    s.entries.lookup key =
      some (.retiring generation waiters) →
    (∀ c ∈ waiters, s.isClosed c = true) →
    Turn s (.retired key generation)
      (s.removeEntry key, .vacated)
| replaced
    {key : String} {generation : Generation}
    {waiters : List CallId} :
    s.entries.lookup key =
      some (.retiring generation waiters) →
    Turn s (.retired key generation)
      ((waiters.filter (fun c => !s.isClosed c)).foldl
        (fun s' c => s'.grant c s.workers.length)
        ((s.removeEntry key).spawnPartitionWorker key),
        .replaced)

/- An acquisition always takes one of its three turns. -/
theorem turn_acquire
    (s : State ε) (key : String) (reply : CallId) :
    Turn s (.acquire key reply)
      (s.partitionRegistry (.acquire key reply)) := by
  cases hEntry : s.entries.lookup key with
  | none =>
      simp only [State.partitionRegistry, hEntry]
      exact Turn.spawned hEntry
  | some entry =>
      cases entry with
      | active generation sender =>
          simp only [State.partitionRegistry, hEntry]
          exact Turn.granted hEntry
      | retiring generation waiters =>
          simp only [State.partitionRegistry, hEntry]
          exact Turn.parked hEntry

/- A retirement asked for by the active worker is accepted. -/
theorem turn_beginRetirement
    {s : State ε} {w : WorkerId} {worker : Worker ε}
    (hWorker : s.workers[w]? = some worker)
    (hPhase : worker.phase = .retiring)
    (hEntry :
      s.entries.lookup worker.key =
        some (.active worker.generation w)) :
    Turn s
      (.beginRetirement worker.key worker.generation w)
      (s.partitionRegistry
        (.beginRetirement worker.key worker.generation
          w)) := by
  have hResult :
      s.partitionRegistry
          (.beginRetirement worker.key worker.generation w) =
        (((s.removeEntry worker.key).setEntry worker.key
            (.retiring worker.generation [])).setWorker w
          { worker with phase := .answered true },
          .retirement true) := by
    simp only [State.partitionRegistry, hEntry, if_true]
    simp [State.answer, State.setEntry, State.removeEntry,
      hWorker, hPhase]
  rw [hResult]
  exact Turn.accepted hWorker hPhase hEntry

/- A retired generation that is known to be retiring. -/
theorem turn_retired
    {s : State ε} {key : String} {generation : Generation}
    {waiters : List CallId}
    (hEntry :
      s.entries.lookup key =
        some (.retiring generation waiters)) :
    Turn s (.retired key generation)
      (s.partitionRegistry (.retired key generation)) := by
  by_cases hClosed : ∀ c ∈ waiters, s.isClosed c = true
  · have hEmpty :
        waiters.filter (fun c => !s.isClosed c) = [] := by
      simpa using hClosed
    simp only [State.partitionRegistry, hEntry, if_true,
      hEmpty, List.isEmpty_nil]
    exact Turn.vacated hEntry hClosed
  · have hSome :
        (waiters.filter
          (fun c => !s.isClosed c)).isEmpty = false := by
      simpa using hClosed
    simp only [State.partitionRegistry, hEntry, if_true,
      hSome, Bool.false_eq_true, if_false]
    exact Turn.replaced hEntry

/- The registry handles commands without touching them. -/
theorem Turn.commands
    {s : State ε} {command : Command}
    {result : State ε × Verdict}
    (hTurn : Turn s command result) :
    result.1.commands = s.commands := by
  cases hTurn <;>
    simp [State.setEntry, State.removeEntry,
      State.spawnPartitionWorker]

theorem Turn.handles
    {s : State ε} {command : Command}
    {result : State ε × Verdict}
    (hTurn : Turn s command result) :
    result.1.handles = s.handles := by
  cases hTurn <;>
    simp [State.setEntry, State.removeEntry,
      State.spawnPartitionWorker]

/-
  A turn changes the workers at most by answering one that
  awaits the reply to its retirement or by spawning one.
-/
theorem Turn.workers_inv
    {s : State ε} {command : Command}
    {result : State ε × Verdict}
    (hTurn : Turn s command result)
    {w : WorkerId} {worker' : Worker ε}
    (hWorker' : result.1.workers[w]? = some worker') :
    s.workers[w]? = some worker' ∨
      (∃ worker, s.workers[w]? = some worker ∧
        worker.phase = .retiring ∧
        worker' = { worker with phase := .answered true }) ∨
      ∃ key generation,
        worker' = State.spawned key generation := by
  cases hTurn with
  | granted hEntry =>
      exact Or.inl (by simpa using hWorker')
  | parked hEntry => exact Or.inl hWorker'
  | spawned hEntry =>
      simp only [State.grant_workers,
        State.spawnPartitionWorker] at hWorker'
      rcases Lists.getElem?_append_singleton_eq_some.mp hWorker'
        with hOld | ⟨_, hNew⟩
      · exact Or.inl hOld
      · exact Or.inr (Or.inr ⟨_, _, hNew⟩)
  | @accepted v worker hWorker hPhase hEntry =>
      rcases (Lists.getElem?_set_eq_some hWorker).mp hWorker'
        with ⟨rfl, hNew⟩ | ⟨_, hOld⟩
      · exact Or.inr (Or.inl ⟨worker, hWorker, hPhase, hNew⟩)
      · exact Or.inl hOld
  | vacated hEntry hClosed => exact Or.inl hWorker'
  | replaced hEntry =>
      simp only [State.foldl_grant_workers,
        State.spawnPartitionWorker,
        State.removeEntry] at hWorker'
      rcases Lists.getElem?_append_singleton_eq_some.mp hWorker'
        with hOld | ⟨_, hNew⟩
      · exact Or.inl hOld
      · exact Or.inr (Or.inr ⟨_, _, hNew⟩)

/- The workers there are before a turn are there after it. -/
theorem Turn.workers_kept
    {s : State ε} {command : Command}
    {result : State ε × Verdict}
    (hTurn : Turn s command result)
    {w : WorkerId} {worker : Worker ε}
    (hWorker : s.workers[w]? = some worker) :
    result.1.workers[w]? = some worker ∨
      (worker.phase = .retiring ∧
        result.1.workers[w]? =
          some { worker with phase := .answered true }) := by
  cases hTurn with
  | granted hEntry =>
      exact Or.inl (by simpa using hWorker)
  | parked hEntry => exact Or.inl hWorker
  | spawned hEntry =>
      simp only [State.grant_workers,
        State.spawnPartitionWorker]
      exact Or.inl (Lists.getElem?_append_singleton_eq_some.mpr
        (Or.inl hWorker))
  | @accepted v old hOld hPhase hEntry =>
      by_cases hEq : v = w
      · subst hEq
        rw [hWorker] at hOld
        cases hOld
        exact Or.inr ⟨hPhase,
          (Lists.getElem?_set_eq_some hWorker).mpr
            (Or.inl ⟨rfl, rfl⟩)⟩
      · exact Or.inl
          ((Lists.getElem?_set_eq_some hOld).mpr
            (Or.inr ⟨hEq, hWorker⟩))
  | vacated hEntry hClosed => exact Or.inl hWorker
  | replaced hEntry =>
      simp only [State.foldl_grant_workers,
        State.spawnPartitionWorker, State.removeEntry]
      exact Or.inl (Lists.getElem?_append_singleton_eq_some.mpr
        (Or.inl hWorker))

/- A turn neither makes nor drops a call. -/
theorem Turn.calls_length
    {s : State ε} {command : Command}
    {result : State ε × Verdict}
    (hTurn : Turn s command result) :
    result.1.calls.length = s.calls.length := by
  cases hTurn with
  | granted => exact State.grant_calls_length _ _ _
  | parked => rfl
  | spawned => exact State.grant_calls_length _ _ _
  | accepted => rfl
  | vacated => rfl
  | replaced => exact State.foldl_grant_calls_length _ _ _

theorem Turn.registryRunning
    {s : State ε} {command : Command}
    {result : State ε × Verdict}
    (hTurn : Turn s command result) :
    result.1.registryRunning = s.registryRunning := by
  cases hTurn <;>
    simp [State.setEntry, State.removeEntry,
      State.spawnPartitionWorker]

end Partitioner

end Qanat
