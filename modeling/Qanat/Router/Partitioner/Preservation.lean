import Qanat.Router.Partitioner.Registry

/-
  Every step of the partition domain keeps its invariant.

  Main declarations:
    * `Partitioner.Invariant.step`
    * `Partitioner.invariant_of_reachable`
-/

------------------------------------------------------------
-- Handles and Calls
------------------------------------------------------------

namespace Qanat

namespace Partitioner

open Transition.Handover

variable {ε : Type}

/- The number of handles changes, but none appears from none. -/
theorem Invariant.setHandles
    {s : State ε} {n : Nat}
    (hInv : Invariant s)
    (hHandles : 0 < n → 0 < s.handles)
    (hBorrowed :
      n = 0 → ∀ call ∈ s.calls, ¬ call.phase.IsActive) :
    Invariant { s with handles := n } := by
  have hSender :
      ({ s with handles := n } : State ε).HasRegistrySender →
        s.HasRegistrySender := by
    rintro (hPos | hWorker)
    · exact Or.inl (hHandles hPos)
    · exact Or.inr hWorker
  refine ⟨⟨hInv.coherent, ?_, ?_, ?_, hInv.deaf_empty,
    hInv.busy_receives, hInv.sender_listens, hInv.job_call,
    hInv.acquire_key, hInv.waiter_key, hInv.no_panic⟩,
    hInv.held⟩
  · intro hOff
    rcases hInv.registryOff hOff with ⟨hNone, hEmpty⟩
    exact ⟨fun h => hNone (hSender h), hEmpty⟩
  · intro w worker hWorker hPhase hRegistry
    exact hInv.unannounced w worker hWorker hPhase
      (hSender hRegistry)
  · intro c call hCall hActive
    rcases Nat.eq_zero_or_pos n with hZero | hPos
    · have hMem : call ∈ s.calls :=
        List.mem_of_getElem? hCall
      exact absurd hActive (hBorrowed hZero call hMem)
    · exact hPos

/- A call of `submit_task` begins. -/
theorem Invariant.newCall
    {s : State ε} {key : String} {task : Task ε}
    (hInv : Invariant s)
    (hHandles : 0 < s.handles) :
    Invariant
      { s with
        calls := s.calls ++ [⟨key, task, .acquiring⟩] } := by
  have hKeys :
      ∀ (i : CallId) (k : String),
        (∃ call, s.calls[i]? = some call ∧ call.key = k) →
        ∃ call,
          (s.calls ++ [⟨key, task, .acquiring⟩])[i]? =
              some call ∧
            call.key = k := by
    rintro i k ⟨call, hCall, hKey⟩
    exact ⟨call, Lists.getElem?_append_singleton_eq_some.mpr
      (Or.inl hCall), hKey⟩
  refine ⟨⟨hInv.coherent, hInv.registryOff, hInv.unannounced,
    ?_, hInv.deaf_empty, hInv.busy_receives, ?_, ?_, ?_,
    ?_, ?_⟩, ?_⟩
  · intro c call hCall hActive
    exact hHandles
  · intro c call w hCall hHandle
    rcases Lists.getElem?_append_singleton_eq_some.mp hCall with
      hOld | ⟨_, rfl⟩
    · exact hInv.sender_listens c call w hOld hHandle
    · simp [CallPhase.sender?] at hHandle
  · intro w worker job hWorker hJob
    rcases hInv.job_call w worker job hWorker hJob with
      ⟨call, hCall, hKey, hTask⟩
    exact ⟨call, Lists.getElem?_append_singleton_eq_some.mpr
      (Or.inl hCall), hKey, hTask⟩
  · intro k c hMem
    exact hKeys _ _ (hInv.acquire_key k c hMem)
  · intro k g ws c hEntry hMem
    exact hKeys _ _ (hInv.waiter_key k g ws c hEntry hMem)
  · intro c call hCall
    rcases Lists.getElem?_append_singleton_eq_some.mp hCall with
      hOld | ⟨_, rfl⟩
    · exact hInv.no_panic c call hOld
    · simp
  · intro c call hCall hPhase
    rcases Lists.getElem?_append_singleton_eq_some.mp hCall with
      hOld | ⟨_, rfl⟩
    · exact hInv.held c call hOld hPhase
    · cases hPhase

end Partitioner

end Qanat

------------------------------------------------------------
-- The End of the Registry
------------------------------------------------------------

namespace Qanat

namespace Partitioner

open Transition.Handover

variable {ε : Type}

/- A registry that can end has no call and no worker waiting. -/
theorem Invariant.stopRegistry_eq
    {s : State ε}
    (hInv : Invariant s)
    (hNone : ¬ s.HasRegistrySender) :
    s.stopRegistry =
      { s with registryRunning := false, entries := ∅ } := by
  have hCalls :
      s.calls.map (fun call =>
        if call.phase = .awaiting then
          { call with phase := .unanswered }
        else
          call) = s.calls := by
    rw [List.map_congr_left (g := fun call => call)]
    · exact List.map_id' s.calls
    · intro call hMem
      rcases List.mem_iff_getElem?.mp hMem with ⟨c, hCall⟩
      apply if_neg
      intro hPhase
      have hActive : call.phase.IsActive := by
        simp [hPhase, CallPhase.IsActive]
      exact hNone
        (Or.inl (hInv.borrowed c call hCall hActive))
  have hWorkers :
      s.workers.map (fun worker =>
        if worker.phase = .retiring then
          { worker with phase := .answered false }
        else
          worker) = s.workers := by
    rw [List.map_congr_left (g := fun worker => worker)]
    · exact List.map_id' s.workers
    · intro worker hMem
      rcases List.mem_iff_getElem?.mp hMem with ⟨w, hWorker⟩
      apply if_neg
      intro hPhase
      exact hNone (Or.inr ⟨w, worker, hWorker, by
        simp [hPhase, WorkerPhase.HoldsRegistry]⟩)
  simp only [State.stopRegistry, hCalls, hWorkers]

/- The end of the registry keeps the invariant. -/
theorem Invariant.stopRegistry
    {s : State ε}
    (hInv : Invariant s)
    (hCommands : s.commands = [])
    (hNone : ¬ s.HasRegistrySender) :
    Invariant s.stopRegistry := by
  rw [hInv.stopRegistry_eq hNone]
  refine ⟨⟨?_, ?_, hInv.unannounced, hInv.borrowed,
    hInv.deaf_empty, hInv.busy_receives, hInv.sender_listens,
    hInv.job_call, hInv.acquire_key, ?_, hInv.no_panic⟩, ?_⟩
  · have hRoster :
        ({ s with registryRunning := false, entries := ∅ } :
            State ε).roster =
          { s.roster with
            shape := fun _ => none
            running := False } := by
      simp [State.roster]
    rw [hRoster]
    apply hInv.coherent.shutdown
    · simp [State.roster, hCommands]
    · intro w p hPost hRole
      rcases post_eq_some_iff.mp hPost with
        ⟨worker, hWorker, rfl⟩
      exact hNone (Or.inr ⟨w, worker, hWorker,
        WorkerPhase.holdsRegistry_of_role (Or.inr hRole)⟩)
  · intro _
    exact ⟨hNone, hCommands⟩
  · intro key generation waiters c hEntry
    simp at hEntry
  · intro c call hCall hPhase
    have hActive : call.phase.IsActive := by
      simp [hPhase, CallPhase.IsActive]
    exact absurd
      (Or.inl (hInv.borrowed c call hCall hActive)) hNone

end Partitioner

end Qanat

------------------------------------------------------------
-- Workers
------------------------------------------------------------

namespace Qanat

namespace Partitioner

open Transition.Handover

variable {ε : Type}

/-
  A worker that keeps its role moves on: its queue, its job
  and its control point may change.
-/
theorem Invariant.proceed
    {s : State ε} {w : WorkerId} {old new : Worker ε}
    (hInv : Invariant s)
    (hOld : s.workers[w]? = some old)
    (hPost : new.post = old.post)
    (hJobs : ∀ job ∈ new.jobs, job ∈ old.jobs)
    (hListens : new.Listens)
    (hHolds :
      new.phase.HoldsRegistry → s.HasRegistrySender)
    (hUnannounced :
      new.phase = .draining false → ¬ s.HasRegistrySender)
    (hBusy :
      new.activity ≠ .none → new.phase.Receives) :
    Invariant (s.setWorker w new) := by
  rw [State.setWorker_eq_moveWorker]
  apply hInv.moveWorker hOld
  case hCoherent =>
    rw [State.roster_moveWorker_of_post_eq hOld hPost]
    exact hInv.coherent
  case hKey => exact congrArg Post.key hPost
  case hJobs =>
    exact fun job hJob => Or.inl (hJobs job hJob)
  case hHolds => exact hHolds
  case hUnannounced => exact hUnannounced
  case hListens => exact Or.inl hListens
  case hBusy => exact hBusy
  case hSent =>
    intro command hMem
    cases hMem

/- A worker at the same control point works on its jobs. -/
theorem Invariant.work
    {s : State ε} {w : WorkerId} {worker : Worker ε}
    {queue : List (PartitionJob ε)} {activity : Activity ε}
    (hInv : Invariant s)
    (hWorker : s.workers[w]? = some worker)
    (hReceives : worker.phase.Receives)
    (hJobs :
      ∀ job ∈ activity.job?.toList ++ queue,
        job ∈ worker.jobs) :
    Invariant
      (s.setWorker w { worker with
        queue := queue
        activity := activity }) := by
  apply hInv.proceed hWorker
  · rfl
  · exact hJobs
  · exact ⟨fun hPhase => by
        have hDrained : worker.phase = .drained := hPhase
        simp [hDrained, WorkerPhase.Receives] at hReceives,
      fun hPhase => by
        have hStopped : worker.phase = .stopped := hPhase
        simp [hStopped, WorkerPhase.Receives] at hReceives⟩
  · intro hHolds
    exact Or.inr ⟨w, worker, hWorker, hHolds⟩
  · exact hInv.unannounced w worker hWorker
  · intro _
    exact hReceives

/- An idle worker moves to another control point of its role. -/
theorem Invariant.goto
    {s : State ε} {w : WorkerId} {worker : Worker ε}
    {phase : WorkerPhase}
    (hInv : Invariant s)
    (hWorker : s.workers[w]? = some worker)
    (hIdle : worker.activity = .none)
    (hRole : phase.role = worker.phase.role)
    (hListens : phase ≠ .drained ∧ phase ≠ .stopped)
    (hHolds : phase.HoldsRegistry → s.HasRegistrySender)
    (hUnannounced :
      phase = .draining false → ¬ s.HasRegistrySender) :
    Invariant
      (s.setWorker w { worker with phase := phase }) := by
  apply hInv.proceed hWorker
  · simp [Worker.post, hRole]
  · intro job hJob
    exact hJob
  · exact hListens
  · exact hHolds
  · exact hUnannounced
  · intro hActive
    exact absurd hIdle hActive

/- A worker that receives nothing has no job in hand. -/
theorem Invariant.idle
    {s : State ε} {w : WorkerId} {worker : Worker ε}
    (hInv : Invariant s)
    (hWorker : s.workers[w]? = some worker)
    (hReceives : ¬ worker.phase.Receives) :
    worker.activity = .none := by
  by_contra hActive
  exact hReceives
    (hInv.busy_receives w worker hWorker hActive)

/-
  A serving worker without a sender stops: its registry has
  ended, since an active entry would keep a sender.
-/
theorem Invariant.quit
    {s : State ε} {w : WorkerId} {worker : Worker ε}
    (hInv : Invariant s)
    (hWorker : s.workers[w]? = some worker)
    (hRole : worker.phase.role = .serving)
    (hIdle : worker.activity = .none)
    (hEmpty : worker.queue = [])
    (hSender : ¬ s.HasSender w) :
    Invariant
      (s.setWorker w { worker with phase := .stopped }) := by
  rw [State.setWorker_eq_moveWorker]
  apply hInv.moveWorker hWorker
  case hCoherent =>
    rw [State.roster_moveWorker hWorker]
    have hQuit :=
      hInv.coherent.quit (post_of_worker hWorker) hRole
        (by
          intro k g hShape
          exact hSender
            (Or.inl ⟨k, g, shape_eq_active_iff.mp hShape⟩))
    simp only [List.filterMap_nil, List.append_nil]
    exact hQuit
  case hKey => rfl
  case hJobs => exact fun job hJob => Or.inl hJob
  case hHolds =>
    intro hHolds
    cases hHolds
  case hUnannounced =>
    intro hPhase
    cases hPhase
  case hListens =>
    refine Or.inr ⟨?_, hEmpty⟩
    intro c call hCall hHandle
    exact hSender (Or.inr ⟨c, call, hCall, hHandle⟩)
  case hBusy =>
    intro hActive
    exact absurd hIdle hActive
  case hSent =>
    intro command hMem
    cases hMem

/- `BeginRetirement` goes out. -/
theorem Invariant.announce
    {s : State ε} {w : WorkerId} {worker : Worker ε}
    (hInv : Invariant s)
    (hWorker : s.workers[w]? = some worker)
    (hPhase : worker.phase = .announcing)
    (hRunning : s.registryRunning = true) :
    Invariant
      ((s.setWorker w
        { worker with phase := .retiring }).send
        (.beginRetirement worker.key worker.generation
          w)) := by
  have hIdle : worker.activity = .none := by
    apply hInv.idle hWorker
    simp [hPhase, WorkerPhase.Receives]
  have hPost :
      s.roster.post w =
        some ⟨worker.key, worker.generation, .serving⟩ := by
    rw [post_of_worker hWorker]
    simp [Worker.post, hPhase, WorkerPhase.role]
  rw [State.setWorker_send_eq_moveWorker]
  apply hInv.moveWorker hWorker
  case hCoherent =>
    rw [State.roster_moveWorker hWorker]
    exact hInv.coherent.ask hPost
  case hKey => rfl
  case hJobs => exact fun job hJob => Or.inl hJob
  case hHolds =>
    intro _
    exact Or.inr ⟨w, worker, hWorker, by
      simp [hPhase, WorkerPhase.HoldsRegistry]⟩
  case hUnannounced =>
    intro hDraining
    cases hDraining
  case hListens => exact Or.inl (by simp [Worker.Listens])
  case hBusy =>
    intro hActive
    exact absurd hIdle hActive
  case hSent =>
    intro command hMem
    rw [List.mem_singleton] at hMem
    subst hMem
    exact ⟨rfl, hRunning⟩

/- The last receive of a retiring worker has yielded `None`. -/
theorem Invariant.drained
    {s : State ε} {w : WorkerId} {worker : Worker ε}
    (hInv : Invariant s)
    (hWorker : s.workers[w]? = some worker)
    (hPhase : worker.phase = .draining true)
    (hIdle : worker.activity = .none)
    (hEmpty : worker.queue = [])
    (hSender : ¬ s.HasSender w) :
    Invariant
      (s.setWorker w { worker with phase := .drained }) := by
  rw [State.setWorker_eq_moveWorker]
  apply hInv.moveWorker hWorker
  case hCoherent =>
    rw [State.roster_moveWorker_of_post_eq hWorker
      (by simp [Worker.post, hPhase, WorkerPhase.role])]
    exact hInv.coherent
  case hKey => rfl
  case hJobs => exact fun job hJob => Or.inl hJob
  case hHolds =>
    intro _
    exact Or.inr ⟨w, worker, hWorker, by
      simp [hPhase, WorkerPhase.HoldsRegistry]⟩
  case hUnannounced =>
    intro hDraining
    cases hDraining
  case hListens =>
    refine Or.inr ⟨?_, hEmpty⟩
    intro c call hCall hHandle
    exact hSender (Or.inr ⟨c, call, hCall, hHandle⟩)
  case hBusy =>
    intro hActive
    exact absurd hIdle hActive
  case hSent =>
    intro command hMem
    cases hMem

/- `Retired` goes out; the registry is there to hear it. -/
theorem Invariant.retire
    {s : State ε} {w : WorkerId} {worker : Worker ε}
    (hInv : Invariant s)
    (hWorker : s.workers[w]? = some worker)
    (hPhase : worker.phase = .drained) :
    Invariant
      (if s.registryRunning then
        (s.setWorker w { worker with phase := .stopped }).send
          (.retired worker.key worker.generation)
      else
        s.setWorker w { worker with phase := .stopped }) := by
  have hRunning : s.registryRunning = true := by
    cases hRegistry : s.registryRunning with
    | true => rfl
    | false =>
        refine absurd ?_ (hInv.registryOff hRegistry).1
        exact Or.inr ⟨w, worker, hWorker, by
          simp [hPhase, WorkerPhase.HoldsRegistry]⟩
  have hDeaf : ¬ worker.Listens := by
    simp [Worker.Listens, hPhase]
  have hIdle : worker.activity = .none := by
    apply hInv.idle hWorker
    simp [hPhase, WorkerPhase.Receives]
  have hPost :
      s.roster.post w =
        some ⟨worker.key, worker.generation, .retiring⟩ := by
    rw [post_of_worker hWorker]
    simp [Worker.post, hPhase, WorkerPhase.role]
  rw [if_pos hRunning, State.setWorker_send_eq_moveWorker]
  apply hInv.moveWorker hWorker
  case hCoherent =>
    rw [State.roster_moveWorker hWorker]
    exact hInv.coherent.leave hPost
  case hKey => rfl
  case hJobs => exact fun job hJob => Or.inl hJob
  case hHolds =>
    intro hHolds
    cases hHolds
  case hUnannounced =>
    intro hDraining
    cases hDraining
  case hListens =>
    refine Or.inr ⟨?_, hInv.deaf_empty w worker hWorker hDeaf⟩
    intro c call hCall hHandle
    rcases hInv.sender_listens c call w hCall hHandle with
      ⟨worker', hWorker', hListens, _⟩
    have hSame : worker = worker' := by
      simpa [hWorker] using hWorker'
    subst hSame
    exact hDeaf hListens
  case hBusy =>
    intro hActive
    exact absurd hIdle hActive
  case hSent =>
    intro command hMem
    rw [List.mem_singleton] at hMem
    subst hMem
    exact ⟨rfl, hRunning⟩

end Partitioner

end Qanat

------------------------------------------------------------
-- Steps
------------------------------------------------------------

namespace Qanat

namespace Partitioner

variable {ε : Type} {config : BoundedConfig}

/- A call in progress keeps the registry running. -/
theorem Invariant.registryRunning_of_active
    {s : State ε} {c : CallId} {call : Call ε}
    (hInv : Invariant s)
    (hCall : s.calls[c]? = some call)
    (hActive : call.phase.IsActive) :
    s.registryRunning = true := by
  cases hRegistry : s.registryRunning with
  | true => rfl
  | false =>
      exact absurd
        (Or.inl (hInv.borrowed c call hCall hActive))
        (hInv.registryOff hRegistry).1

/- The worker of an acquired sender is there to receive. -/
theorem Invariant.live_of_holding
    {s : State ε} {c : CallId} {call : Call ε} {w : WorkerId}
    (hInv : Invariant s)
    (hCall : s.calls[c]? = some call)
    (hPhase : call.phase = .holding w) :
    ∃ worker, s.workers[w]? = some worker ∧ worker.Live := by
  rcases hInv.sender_listens c call w hCall
      (by simp [hPhase, CallPhase.sender?]) with
    ⟨worker, hWorker, hListens, _⟩
  exact ⟨worker, hWorker, hListens.live⟩

/- A call leaves a phase it will not come back to. -/
theorem Invariant.endCall
    {s : State ε} {c : CallId} {call : Call ε}
    {phase : CallPhase}
    (hInv : Invariant s)
    (hCall : s.calls[c]? = some call)
    (hPhase : phase = .returned ∨ phase = .cancelled) :
    Invariant (s.setCall c { call with phase := phase }) := by
  rcases hPhase with rfl | rfl
  · apply hInv.setPhase hCall <;>
      simp [CallPhase.IsActive, CallPhase.sender?]
  · apply hInv.setPhase hCall <;>
      simp [CallPhase.IsActive, CallPhase.sender?]

/- Every step keeps the invariant. -/
theorem Invariant.step
    {s s' : State ε} {e : Event ε}
    (hInv : Invariant s)
    (hStep : Step config s e s') :
    Invariant s' := by
  cases hStep with
  | clone hHandles =>
      exact hInv.setHandles (fun _ => hHandles)
        (fun hZero => by omega)
  | drop hHandles hCalls =>
      exact hInv.setHandles (fun _ => by omega) hCalls
  | call hHandles => exact hInv.newCall hHandles
  | acquire hCall hPhase hRunning =>
      exact hInv.acquire hCall hPhase hRunning
  | registryGone hCall hPhase hStopped =>
      have hRunning :=
        hInv.registryRunning_of_active hCall
          (by simp [hPhase, CallPhase.IsActive])
      rw [hStopped] at hRunning
      cases hRunning
  | @requestDropped c call hCall hPhase =>
      exact absurd hPhase (hInv.no_panic c call hCall).1
  | send hCall hPhase hWorker hLive hRoom =>
      exact hInv.sendJob hCall hPhase hWorker
  | sendFailed hCall hPhase hGone =>
      rcases hInv.live_of_holding hCall hPhase with
        ⟨worker, hWorker, hLive⟩
      exact absurd hLive (hGone worker hWorker)
  | «return» hCall hPhase =>
      exact hInv.endCall hCall (Or.inl rfl)
  | cancel hCall hOwns =>
      exact hInv.endCall hCall (Or.inr rfl)
  | handle hRunning hCommands =>
      exact hInv.turn hRunning hCommands
        (hInv.handle hRunning hCommands)
  | panicRegistry hRunning hCommands hSpawns hOver =>
      exact absurd config.capacity_le (Nat.not_le.mpr hOver)
  | stopRegistry hRunning hCommands hNone =>
      exact hInv.stopRegistry hCommands hNone
  | @receive w worker job rest hWorker hReceives hIdle hQueue =>
      apply hInv.work hWorker hReceives
      intro other hMem
      simpa [Worker.jobs, hIdle, hQueue, Activity.job?]
        using hMem
  | close hWorker hPhase hIdle hEmpty hSender =>
      exact hInv.quit hWorker
        (by simp [hPhase, WorkerPhase.role])
        hIdle hEmpty hSender
  | timeout hWorker hPhase hIdle =>
      apply hInv.goto hWorker hIdle <;>
        simp [hPhase, WorkerPhase.role,
          WorkerPhase.HoldsRegistry]
  | upgrade hWorker hPhase hSender =>
      have hIdle := hInv.idle hWorker
        (by simp [hPhase, WorkerPhase.Receives])
      apply hInv.goto hWorker hIdle <;>
        simp [hPhase, WorkerPhase.role, hSender]
  | upgradeFailed hWorker hPhase hNone =>
      have hIdle := hInv.idle hWorker
        (by simp [hPhase, WorkerPhase.Receives])
      apply hInv.goto hWorker hIdle <;>
        simp [hPhase, WorkerPhase.role, hNone,
          WorkerPhase.HoldsRegistry]
  | announce hWorker hPhase hRunning =>
      exact hInv.announce hWorker hPhase hRunning
  | announceFailed hWorker hPhase hStopped =>
      have hIdle := hInv.idle hWorker
        (by simp [hPhase, WorkerPhase.Receives])
      apply hInv.goto hWorker hIdle <;>
        simp [hPhase, WorkerPhase.role,
          WorkerPhase.HoldsRegistry]
  | @resume w worker accepted hWorker hPhase =>
      have hIdle := hInv.idle hWorker
        (by simp [hPhase, WorkerPhase.Receives])
      have hSender : s.HasRegistrySender :=
        Or.inr ⟨w, worker, hWorker, by
          simp [hPhase, WorkerPhase.HoldsRegistry]⟩
      cases accepted <;> apply hInv.goto hWorker hIdle <;>
        simp [hPhase, WorkerPhase.role, hSender]
  | @drain w worker announced hWorker hPhase hIdle hEmpty
      hSender =>
      cases announced with
      | true =>
          exact hInv.drained hWorker hPhase hIdle hEmpty
            hSender
      | false =>
          exact hInv.quit hWorker
            (by simp [hPhase, WorkerPhase.role])
            hIdle hEmpty hSender
  | retire hWorker hPhase => exact hInv.retire hWorker hPhase
  | @perform w worker job effect rest hWorker hExecuting =>
      apply hInv.work hWorker
        (hInv.busy_receives w worker hWorker
          (by simp [hExecuting]))
      intro other hMem
      simpa [Worker.jobs, hExecuting, Activity.job?]
        using hMem
  | @finish w worker job hWorker hExecuting =>
      apply hInv.work hWorker
        (hInv.busy_receives w worker hWorker
          (by simp [hExecuting]))
      intro other hMem
      simpa [Worker.jobs, hExecuting, Activity.job?]
        using hMem
  | @complete w worker job hWorker hCompleting =>
      apply hInv.work hWorker
        (hInv.busy_receives w worker hWorker
          (by simp [hCompleting]))
      intro other hMem
      have hQueued : other ∈ worker.queue := by
        simpa [Activity.job?] using hMem
      simp [Worker.jobs, hQueued]

/- The invariant holds in every state a run reaches. -/
theorem invariant_of_reachable
    {config : BoundedConfig}
    {trace : List (Event ε)}
    {s : State ε}
    (hReach : (lts ε config).Reachable trace s) :
    Invariant s := by
  apply hReach.stateInvariant
  · intro s hStart
    have hEq : s = State.start := hStart
    rw [hEq]
    exact Invariant.start
  · intro s e s' hInv hStep
    exact hInv.step hStep

end Partitioner

end Qanat
