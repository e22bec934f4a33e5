import Qanat.Router.Partitioner.Preservation

/-
  A domain whose options pass the assertions of
  `with_options` but ask for channels that cannot be made.

  The registry task of such a domain ends with its first
  acquisition, and no worker is ever spawned.  Whoever calls
  `submit_task` loses the task.

  Main declarations:
    * `Partitioner.Barren`
    * `Partitioner.barren_of_reachable`
    * `Partitioner.not_isJob_of_reachable`
    * `Partitioner.lost_reachable`
-/

------------------------------------------------------------
-- Domains Without Workers
------------------------------------------------------------

namespace Qanat

namespace Partitioner

variable {ε : Type} {config : Config}

/- The call has no sender and never had one. -/
def CallPhase.IsBarren : CallPhase → Prop
| .acquiring | .awaiting | .unanswered => True
| .panicked | .cancelled => True
| _ => False

/- Nobody has spawned a worker, and nobody knows of one. -/
structure Barren (s : State ε) : Prop where
  workers : s.workers = []
  entries : s.entries = ∅
  commands :
    ∀ command ∈ s.commands,
      ∃ key reply, command = .acquire key reply
  stopped : s.registryRunning = false → s.commands = []
  calls :
    ∀ (c : CallId) (call : Call ε),
      s.calls[c]? = some call → call.phase.IsBarren
  awaits :
    ∀ (c : CallId) (call : Call ε),
      s.calls[c]? = some call → call.phase = .awaiting →
        Command.acquire call.key c ∈ s.commands

theorem Barren.start : Barren (State.start : State ε) where
  workers := rfl
  entries := rfl
  commands := by simp [State.start]
  stopped := fun _ => rfl
  calls := by simp [State.start]
  awaits := by simp [State.start]

/- A call of its own domain moves, but not to wait. -/
theorem Barren.setCall
    {s : State ε} {c : CallId} {call : Call ε}
    (hBarren : Barren s)
    (hPhase : call.phase.IsBarren)
    (hOther : call.phase ≠ .awaiting) :
    Barren (s.setCall c call) where
  workers := hBarren.workers
  entries := hBarren.entries
  commands := hBarren.commands
  stopped := hBarren.stopped
  calls := by
    intro d other hCall
    rw [State.setCall_calls, List.getElem?_set] at hCall
    split at hCall
    · split at hCall
      · cases hCall
        exact hPhase
      · cases hCall
    · exact hBarren.calls d other hCall
  awaits := by
    intro d other hCall hAwaits
    rw [State.setCall_calls, List.getElem?_set] at hCall
    split at hCall
    · split at hCall
      · cases hCall
        exact absurd hAwaits hOther
      · cases hCall
    · exact hBarren.awaits d other hCall hAwaits

/- A registry that ends takes its queue with it. -/
theorem Barren.stopRegistry
    {s : State ε}
    (hBarren : Barren s) :
    Barren ({ s with commands := [] } :
      State ε).stopRegistry where
  workers := by simp [State.stopRegistry, hBarren.workers]
  entries := rfl
  commands := by simp [State.stopRegistry]
  stopped := fun _ => rfl
  calls := by
    intro c call hCall
    simp only [State.stopRegistry, List.getElem?_map,
      Option.map_eq_some_iff] at hCall
    rcases hCall with ⟨old, hOld, rfl⟩
    split
    · trivial
    · exact hBarren.calls c old hOld
  awaits := by
    intro c call hCall hAwaits
    simp only [State.stopRegistry, List.getElem?_map,
      Option.map_eq_some_iff] at hCall
    rcases hCall with ⟨old, hOld, rfl⟩
    split at hAwaits
    · cases hAwaits
    · next hOther => exact absurd hAwaits hOther

/- An acquisition would have a worker spawned. -/
theorem Barren.spawns
    {s : State ε} {command : Command}
    {rest : List Command}
    (hBarren : Barren s)
    (hCommands : s.commands = command :: rest) :
    (({ s with commands := rest } :
      State ε).partitionRegistry command).2.Spawns := by
  rcases hBarren.commands command
      (by simp [hCommands]) with ⟨key, reply, rfl⟩
  simp [State.partitionRegistry, hBarren.entries,
    Verdict.Spawns]

/- No worker steps where there is none. -/
theorem Barren.no_worker
    {s : State ε} {w : WorkerId} {worker : Worker ε}
    (hBarren : Barren s) :
    s.workers[w]? ≠ some worker := by
  simp [hBarren.workers]

/- An acquisition is sent to the registry. -/
theorem Barren.acquire
    {s : State ε} {c : CallId} {call : Call ε}
    (hBarren : Barren s)
    (hCall : s.calls[c]? = some call)
    (hRunning : s.registryRunning = true) :
    Barren
      ((s.setCall c { call with phase := .awaiting }).send
        (.acquire call.key c)) where
  workers := hBarren.workers
  entries := hBarren.entries
  commands := by
    intro command hMem
    rw [State.send_commands, List.mem_append,
      List.mem_singleton] at hMem
    rcases hMem with hOld | rfl
    · exact hBarren.commands command hOld
    · exact ⟨_, _, rfl⟩
  stopped := by
    intro hStopped
    rw [State.send_registryRunning,
      State.setCall_registryRunning, hRunning] at hStopped
    cases hStopped
  calls := by
    intro d other hOther
    rw [State.send_calls, State.setCall_calls] at hOther
    rcases (Lists.getElem?_set_eq_some hCall).mp hOther with
      ⟨_, rfl⟩ | ⟨_, hSame⟩
    · trivial
    · exact hBarren.calls d other hSame
  awaits := by
    intro d other hOther hAwaits
    rw [State.send_calls, State.setCall_calls] at hOther
    rw [State.send_commands, List.mem_append]
    rcases (Lists.getElem?_set_eq_some hCall).mp hOther with
      ⟨rfl, rfl⟩ | ⟨_, hSame⟩
    · exact Or.inr (List.mem_singleton_self _)
    · exact Or.inl (hBarren.awaits d other hSame hAwaits)

theorem Barren.step
    {s s' : State ε} {e : Event ε}
    (hBarren : Barren s)
    (hOver : maxPermits < config.capacity)
    (hStep : Step config s e s') :
    Barren s' := by
  cases hStep with
  | clone | drop =>
      exact ⟨hBarren.workers, hBarren.entries,
        hBarren.commands, hBarren.stopped, hBarren.calls,
        hBarren.awaits⟩
  | @call key task hHandles =>
      refine ⟨hBarren.workers, hBarren.entries,
        hBarren.commands, hBarren.stopped, ?_, ?_⟩
      · intro c call hCall
        rcases Lists.getElem?_append_singleton_eq_some.mp
          hCall with hOld | ⟨_, rfl⟩
        · exact hBarren.calls c call hOld
        · trivial
      · intro c call hCall hAwaits
        rcases Lists.getElem?_append_singleton_eq_some.mp
          hCall with hOld | ⟨_, rfl⟩
        · exact hBarren.awaits c call hOld hAwaits
        · cases hAwaits
  | acquire hCall hPhase hRunning =>
      exact hBarren.acquire hCall hRunning
  | registryGone | requestDropped | cancel =>
      exact hBarren.setCall trivial (by simp)
  | sendFailed hCall hPhase | «return» hCall hPhase =>
      have hNone := hBarren.calls _ _ hCall
      rw [hPhase] at hNone
      exact hNone.elim
  | handle hRunning hCommands hFits =>
      exact absurd (hFits (hBarren.spawns hCommands))
        (Nat.not_le.mpr hOver)
  | panicRegistry => exact hBarren.stopRegistry
  | stopRegistry hRunning hCommands hNone =>
      have hStopped := hBarren.stopRegistry
      rw [← hCommands] at hStopped
      exact hStopped
  | send _ _ hWorker | receive hWorker | close hWorker
  | timeout hWorker | upgrade hWorker | upgradeFailed hWorker
  | announce hWorker | announceFailed hWorker
  | resume hWorker | drain hWorker | retire hWorker
  | perform hWorker | finish hWorker | complete hWorker =>
      exact absurd hWorker hBarren.no_worker

/- A domain that cannot make channels stays without workers. -/
theorem barren_of_reachable
    {trace : List (Event ε)} {s : State ε}
    (hOver : maxPermits < config.capacity)
    (hReach : (lts ε config).Reachable trace s) :
    Barren s := by
  apply hReach.stateInvariant
  · rintro s rfl
    exact Barren.start
  · intro s e s' hBarren hStep
    exact hBarren.step hOver hStep

/- The events of jobs that have got to a worker. -/
def Event.IsJob : Event ε → Prop
| .queued _ _ | .started _ _ | .performed _ _ _ => True
| .finished _ _ | .completed _ _ => True
| _ => False

/- No job gets that far. -/
theorem Barren.not_isJob
    {s s' : State ε} {e : Event ε}
    (hBarren : Barren s)
    (hStep : Step config s e s') :
    ¬ e.IsJob := by
  cases hStep with
  | send _ _ hWorker | receive hWorker | perform hWorker
  | finish hWorker | complete hWorker =>
      exact absurd hWorker hBarren.no_worker
  | _ => exact fun hJob => hJob

/- The registry of such a domain never gets through a turn. -/
theorem Barren.not_handled
    {s s' : State ε} {command : Command} {verdict : Verdict}
    (hBarren : Barren s)
    (hOver : maxPermits < config.capacity) :
    ¬ Step config s (.handled command verdict) s' := by
  intro hStep
  cases hStep with
  | handle hRunning hCommands hFits =>
      exact absurd (hFits (hBarren.spawns hCommands))
        (Nat.not_le.mpr hOver)

theorem not_isJob_of_reachable
    {trace : List (Event ε)} {s : State ε}
    (hOver : maxPermits < config.capacity)
    (hReach : (lts ε config).Reachable trace s)
    {e : Event ε} (hMem : e ∈ trace) :
    ¬ e.IsJob := by
  rcases hReach.step_of_mem hMem with
    ⟨_, _, r, r', _, hBefore, hStep⟩
  exact (barren_of_reachable hOver hBefore).not_isJob hStep

/- A step of one call, seen from another or from itself. -/
theorem kept_setCall
    {s : State ε} {c d : CallId} {call other : Call ε}
    (hCall : s.calls[c]? = some call)
    (hOther : s.calls[d]? = some other)
    (phase : CallPhase) :
    ∃ phase',
      (s.setCall d { other with phase := phase }).calls[c]? =
          some { call with phase := phase' } ∧
        (phase' = call.phase ∨ d = c ∧ phase' = phase) := by
  rw [State.setCall_calls,
    List.getElem?_set_of_lt' _ _
      (List.getElem?_eq_some_iff.mp hOther).1]
  by_cases hEq : d = c
  · subst hEq
    rw [hOther] at hCall
    cases hCall
    exact ⟨phase, if_pos rfl, Or.inr ⟨rfl, rfl⟩⟩
  · exact ⟨call.phase, by rw [if_neg hEq, hCall],
      Or.inl rfl⟩

/- A call of such a domain is cancelled by its caller only. -/
theorem Barren.call_kept
    {s s' : State ε} {e : Event ε}
    (hBarren : Barren s)
    (hOver : maxPermits < config.capacity)
    (hStep : Step config s e s')
    {c : CallId} {call : Call ε}
    (hCall : s.calls[c]? = some call) :
    ∃ phase,
      s'.calls[c]? = some { call with phase := phase } ∧
        (phase = .cancelled →
          call.phase = .cancelled ∨ e = .cancelled c) := by
  have hSet : ∀ {d : CallId} {other : Call ε},
      s.calls[d]? = some other → ∀ phase,
        (phase = .cancelled → e = .cancelled d) →
          ∃ phase',
            (s.setCall d
                { other with phase := phase }).calls[c]? =
              some { call with phase := phase' } ∧
            (phase' = .cancelled →
              call.phase = .cancelled ∨
                e = .cancelled c) := by
    intro d other hOther phase hWhy
    rcases kept_setCall hCall hOther phase with
      ⟨phase', hNow, hSame | ⟨rfl, rfl⟩⟩
    · exact ⟨phase', hNow, fun hPhase =>
        Or.inl (hSame.symm.trans hPhase)⟩
    · exact ⟨phase', hNow, fun hPhase =>
        Or.inr (hWhy hPhase)⟩
  have hStopped :
      ∃ phase,
        s.stopRegistry.calls[c]? =
            some { call with phase := phase } ∧
          (phase = .cancelled →
            call.phase = .cancelled ∨ e = .cancelled c) := by
    by_cases hWaits : call.phase = .awaiting
    · exact ⟨.unanswered, by
        simp [State.stopRegistry, hCall, hWaits], by simp⟩
    · exact ⟨call.phase, by
        simp [State.stopRegistry, hCall, hWaits], Or.inl⟩
  cases hStep with
  | clone | drop => exact ⟨call.phase, hCall, Or.inl⟩
  | call =>
      exact ⟨call.phase,
        Lists.getElem?_append_singleton_eq_some.mpr
          (Or.inl hCall), Or.inl⟩
  | acquire hOther | registryGone hOther
  | requestDropped hOther =>
      exact hSet hOther _ (fun hPhase => by cases hPhase)
  | cancel hOther => exact hSet hOther _ (fun _ => rfl)
  | sendFailed hOther hPhase | «return» hOther hPhase =>
      have hNone := hBarren.calls _ _ hOther
      rw [hPhase] at hNone
      exact hNone.elim
  | handle hRunning hCommands hFits =>
      exact (hBarren.not_handled hOver
        (Step.handle hRunning hCommands hFits)).elim
  | panicRegistry | stopRegistry => exact hStopped
  | send _ _ hWorker | receive hWorker | close hWorker
  | timeout hWorker | upgrade hWorker | upgradeFailed hWorker
  | announce hWorker | announceFailed hWorker
  | resume hWorker | drain hWorker | retire hWorker
  | perform hWorker | finish hWorker | complete hWorker =>
      exact absurd hWorker hBarren.no_worker

end Partitioner

end Qanat

------------------------------------------------------------
-- A Lost Task
------------------------------------------------------------

namespace Qanat

namespace Partitioner

open Transition

variable {ε : Type} {config : Config}

/- One call, whose acquisition the registry dies of. -/
def lostTrace (key : String) (task : Task ε) :
    List (Event ε) :=
  [.called key 0 task,
    .acquiring 0,
    .registryPanicked (.acquire key 0),
    .requestDropped 0]

def lostState (key : String) (task : Task ε) : State ε where
  handles := 1
  calls := [⟨key, task, .panicked⟩]
  commands := []
  entries := ∅
  nextGeneration := 1
  registryRunning := false
  workers := []

/- `submit_task` panics and takes the task with it. -/
theorem lost_reachable
    (hOver : maxPermits < config.capacity)
    (key : String) (task : Task ε) :
    (lts ε config).Reachable (lostTrace key task)
      (lostState key task) := by
  have hStart :
      (lts ε config).Reachable [] State.start :=
    Lts.Reachable.initial rfl
  have hCalled :=
    hStart.step
      (@Step.call _ config _ key task Nat.one_pos)
  have hSent :=
    hCalled.step (@Step.acquire _ config _ 0 _ rfl rfl rfl)
  have hPanicked :=
    hSent.step (Step.panicRegistry rfl rfl trivial hOver)
  have hDropped :=
    hPanicked.step
      (@Step.requestDropped _ config _ 0 _ rfl rfl)
  exact hDropped

end Partitioner

end Qanat
