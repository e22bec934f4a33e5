import Qanat.Router.Partitioner.Invariant

/-
  One turn of the registry keeps the invariant of the
  partition domain, and under the invariant every command is
  handled by one of the expected turns.

  Main declarations:
    * `Partitioner.Invariant.turn`
    * `Partitioner.Invariant.handle`
-/

------------------------------------------------------------
-- Granting Senders
------------------------------------------------------------

namespace Qanat

namespace Partitioner

open Transition.Handover

variable {ε : Type}

/- `reply.send(sender.clone())` for several replies in turn. -/
def State.grantAll
    (s : State ε) (waiters : List CallId)
    (sender : WorkerId) :
    State ε :=
  waiters.foldl (fun s' c => s'.grant c sender) s

/-
  The sender of a worker that listens may go to any call of
  its key; only a call that awaits its reply takes it.
-/
theorem Consistent.grant
    {s : State ε} {c : CallId} {w : WorkerId}
    {worker : Worker ε}
    (hCons : Consistent s)
    (hWorker : s.workers[w]? = some worker)
    (hListens : worker.Listens)
    (hKey :
      ∀ call, s.calls[c]? = some call →
        call.key = worker.key) :
    Consistent (s.grant c w) := by
  unfold State.grant
  cases hCall : s.calls[c]? with
  | none => exact hCons
  | some call =>
      by_cases hPhase : call.phase = .awaiting
      · simp only [hPhase, if_true]
        apply hCons.setPhase hCall
        · intro _
          simp [hPhase, CallPhase.IsActive]
        · intro v hHandle
          have hSame : w = v := by
            simpa [CallPhase.sender?] using hHandle
          subst hSame
          exact ⟨worker, hWorker, hListens,
            (hKey call hCall).symm⟩
        · simp
      · simp only [hPhase, if_false]
        exact hCons

/- The key of a call is not touched by a grant. -/
theorem grant_key
    {s : State ε} {c i : CallId} {w : WorkerId}
    {call : Call ε}
    (hCall : (s.grant c w).calls[i]? = some call) :
    ∃ old, s.calls[i]? = some old ∧ old.key = call.key := by
  rw [State.grant_calls_getElem?] at hCall
  by_cases hEq : c = i
  · rw [if_pos hEq] at hCall
    rcases Option.map_eq_some_iff.mp hCall with
      ⟨old, hOld, hGranted⟩
    refine ⟨old, hOld, ?_⟩
    rw [← hGranted, State.Call.granted]
    by_cases hPhase : old.phase = .awaiting <;>
      simp [hPhase]
  · rw [if_neg hEq] at hCall
    exact ⟨call, hCall, rfl⟩

theorem Consistent.grantAll
    {s : State ε} {waiters : List CallId} {w : WorkerId}
    {worker : Worker ε}
    (hCons : Consistent s)
    (hWorker : s.workers[w]? = some worker)
    (hListens : worker.Listens)
    (hKeys :
      ∀ c ∈ waiters, ∀ call, s.calls[c]? = some call →
        call.key = worker.key) :
    Consistent (s.grantAll waiters w) := by
  unfold State.grantAll
  induction waiters generalizing s with
  | nil => exact hCons
  | cons c rest ih =>
      apply ih
      · exact hCons.grant hWorker hListens (hKeys c (by simp))
      · simpa using hWorker
      · intro i hMem call hCall
        rcases grant_key hCall with ⟨old, hOld, hSame⟩
        rw [← hSame]
        exact hKeys i (by simp [hMem]) old hOld

/-
  Once the calls nobody holds any more have been granted a
  sender, every acquisition is held again.
-/
theorem Invariant.grantAll
    {s : State ε} {waiters : List CallId} {w : WorkerId}
    {worker : Worker ε}
    (hCons : Consistent s)
    (hWorker : s.workers[w]? = some worker)
    (hListens : worker.Listens)
    (hKeys :
      ∀ c ∈ waiters, ∀ call, s.calls[c]? = some call →
        call.key = worker.key)
    (hHeld :
      ∀ (c : CallId) (call : Call ε),
        s.calls[c]? = some call →
        call.phase = .awaiting → c ∉ waiters →
          s.Held c call.key) :
    Invariant (s.grantAll waiters w) where
  toConsistent := hCons.grantAll hWorker hListens hKeys
  held := by
    intro c call hCall hPhase
    have hSame :=
      State.foldl_grant_sameButCalls waiters s w
    unfold State.grantAll at hCall ⊢
    rw [State.foldl_grant_calls_getElem?] at hCall
    by_cases hMem : c ∈ waiters
    · rw [if_pos hMem] at hCall
      rcases Option.map_eq_some_iff.mp hCall with
        ⟨old, _, hGranted⟩
      rw [← hGranted, State.Call.granted] at hPhase
      by_cases hOld : old.phase = .awaiting <;>
        simp [hOld] at hPhase
    · rw [if_neg hMem] at hCall
      have hKept := hHeld c call hCall hPhase hMem
      unfold State.Held at hKept ⊢
      rw [hSame.commands, hSame.entries]
      exact hKept

end Partitioner

end Qanat

------------------------------------------------------------
-- Turns
------------------------------------------------------------

namespace Qanat

namespace Partitioner

open Transition.Handover

variable {ε : Type}

/- Taking an acquisition off the queue leaves the roster. -/
theorem roster_dropHead
    {s : State ε} {command : Command} {rest : List Command}
    (hCommands : s.commands = command :: rest)
    (hSilent : command.notice? = none) :
    ({ s with commands := rest } : State ε).roster =
      s.roster := by
  simp [State.roster, hCommands, hSilent]

/- The notices once a retirement notice is off the queue. -/
theorem notices_dropHead
    {s : State ε} {command : Command} {rest : List Command}
    (hCommands : s.commands = command :: rest)
    (notice : Notice String Generation WorkerId)
    (hNotice : command.notice? = some notice) :
    s.roster.notices =
      notice :: rest.filterMap Command.notice? := by
  simp [State.roster, hCommands, hNotice]

/-
  What every turn keeps: it neither touches a call nor a job,
  and changes the workers at most by answering one that
  awaits the reply to its retirement or by spawning one.
-/
theorem Consistent.turn
    {s s' : State ε}
    (hCons : Consistent s)
    (hRunning : s'.registryRunning = true)
    (hCoherent : Coherent s'.roster)
    (hHandles : s'.handles = s.handles)
    (hCalls : s'.calls = s.calls)
    (hCommands :
      ∀ command ∈ s'.commands, command ∈ s.commands)
    (hKept :
      ∀ (w : WorkerId) (worker : Worker ε),
        s.workers[w]? = some worker →
        s'.workers[w]? = some worker ∨
          (worker.phase = .retiring ∧
            s'.workers[w]? =
              some { worker with phase := .answered true }))
    (hWorkers :
      ∀ (w : WorkerId) (worker' : Worker ε),
        s'.workers[w]? = some worker' →
        s.workers[w]? = some worker' ∨
          (∃ worker, s.workers[w]? = some worker ∧
            worker.phase = .retiring ∧
            worker' =
              { worker with phase := .answered true }) ∨
          ∃ key generation,
            worker' = State.spawned key generation)
    (hWaiters :
      ∀ key generation waiters c,
        s'.entries.lookup key =
            some (.retiring generation waiters) →
          c ∈ waiters →
            ∃ call, s.calls[c]? = some call ∧
              call.key = key) :
    Consistent s' := by
  have hSender : s'.HasRegistrySender → s.HasRegistrySender := by
    rintro (hHandle | ⟨w, worker', hWorker, hHolds⟩)
    · exact Or.inl (by rw [← hHandles]; exact hHandle)
    · rcases hWorkers w worker' hWorker with
        hSame | ⟨worker, hOld, hPhase, _⟩ | ⟨_, _, rfl⟩
      · exact Or.inr ⟨w, worker', hSame, hHolds⟩
      · exact Or.inr ⟨w, worker, hOld, by
          simp [hPhase, WorkerPhase.HoldsRegistry]⟩
      · simp [State.spawned, WorkerPhase.HoldsRegistry]
          at hHolds
  have hIdle :
      ∀ (w : WorkerId) (worker : Worker ε),
        s.workers[w]? = some worker →
        worker.phase = .retiring →
          worker.activity = .none := by
    intro w worker hWorker hPhase
    by_contra hActive
    have hReceives :=
      hCons.busy_receives w worker hWorker hActive
    simp [hPhase, WorkerPhase.Receives] at hReceives
  refine ⟨hCoherent, ?registryOff, ?unannounced, ?borrowed,
    ?deaf_empty, ?busy_receives, ?sender_listens, ?job_call,
    ?acquire_key, ?waiter_key, ?no_panic⟩
  case registryOff =>
    intro hOff
    rw [hRunning] at hOff
    cases hOff
  case unannounced =>
    intro w worker' hWorker hPhase hRegistry
    rcases hWorkers w worker' hWorker with
      hSame | ⟨worker, _, _, rfl⟩ | ⟨_, _, rfl⟩
    · exact hCons.unannounced w worker' hSame hPhase
        (hSender hRegistry)
    · cases hPhase
    · cases hPhase
  case borrowed =>
    intro c call hCall hActive
    rw [hCalls] at hCall
    rw [hHandles]
    exact hCons.borrowed c call hCall hActive
  case deaf_empty =>
    intro w worker' hWorker hDeaf
    rcases hWorkers w worker' hWorker with
      hSame | ⟨worker, _, _, rfl⟩ | ⟨_, _, rfl⟩
    · exact hCons.deaf_empty w worker' hSame hDeaf
    · simp [Worker.Listens] at hDeaf
    · rfl
  case busy_receives =>
    intro w worker' hWorker hActive
    rcases hWorkers w worker' hWorker with
      hSame | ⟨worker, hOld, hPhase, rfl⟩ | ⟨_, _, rfl⟩
    · exact hCons.busy_receives w worker' hSame hActive
    · exact absurd (hIdle w worker hOld hPhase) hActive
    · exact absurd rfl hActive
  case sender_listens =>
    intro c call w hCall hHandle
    rw [hCalls] at hCall
    rcases hCons.sender_listens c call w hCall hHandle with
      ⟨worker, hWorker, hListens, hKey⟩
    rcases hKept w worker hWorker with
      hSame | ⟨_, hAnswered⟩
    · exact ⟨worker, hSame, hListens, hKey⟩
    · exact ⟨_, hAnswered, by simp [Worker.Listens], hKey⟩
  case job_call =>
    intro w worker' job hWorker hJob
    rw [hCalls]
    rcases hWorkers w worker' hWorker with
      hSame | ⟨worker, hOld, _, rfl⟩ | ⟨_, _, rfl⟩
    · exact hCons.job_call w worker' job hSame hJob
    · exact hCons.job_call w worker job hOld hJob
    · simp [State.spawned, Worker.jobs, Activity.job?] at hJob
  case acquire_key =>
    intro key c hMem
    rw [hCalls]
    exact hCons.acquire_key key c (hCommands _ hMem)
  case waiter_key =>
    rw [hCalls]
    exact hWaiters
  case no_panic =>
    rw [hCalls]
    exact hCons.no_panic

/- A turn that takes a command and leaves the workers. -/
theorem Consistent.turn_entries
    {s s' : State ε} {command : Command}
    (hCons : Consistent s)
    (hRunning : s'.registryRunning = true)
    (hCoherent : Coherent s'.roster)
    (hHandles : s'.handles = s.handles)
    (hCalls : s'.calls = s.calls)
    (hWorkers : s'.workers = s.workers)
    (hCommands : s.commands = command :: s'.commands)
    (hWaiters :
      ∀ key generation waiters c,
        s'.entries.lookup key =
            some (.retiring generation waiters) →
          c ∈ waiters →
            ∃ call, s.calls[c]? = some call ∧
              call.key = key) :
    Consistent s' := by
  apply hCons.turn hRunning hCoherent hHandles hCalls
  case hCommands =>
    intro other hMem
    rw [hCommands]
    exact List.mem_cons_of_mem _ hMem
  case hKept =>
    intro w worker hWorker
    rw [hWorkers]
    exact Or.inl hWorker
  case hWorkers =>
    intro w worker hWorker
    rw [hWorkers] at hWorker
    exact Or.inl hWorker
  case hWaiters => exact hWaiters

end Partitioner

end Qanat

------------------------------------------------------------
-- The Six Turns
------------------------------------------------------------

namespace Qanat

namespace Partitioner

open Transition.Handover

variable {ε : Type}

/- An acquisition off the queue: only its own reply is out. -/
theorem Invariant.held_dropHead
    {s : State ε} {key : String} {reply : CallId}
    {rest : List Command}
    (hInv : Invariant s)
    (hCommands : s.commands = .acquire key reply :: rest)
    {c : CallId} {call : Call ε}
    (hCall : s.calls[c]? = some call)
    (hPhase : call.phase = .awaiting)
    (hOther : c ≠ reply) :
    ({ s with commands := rest } : State ε).Held c
      call.key := by
  rcases hInv.held c call hCall hPhase with
    hQueued | hParked
  · rw [hCommands, List.mem_cons] at hQueued
    rcases hQueued with hHead | hRest
    · cases hHead
      exact absurd rfl hOther
    · exact Or.inl hRest
  · exact Or.inr hParked

/- The consistency of the state an acquisition is taken from. -/
theorem Invariant.consistent_dropHead
    {s : State ε} {key : String} {reply : CallId}
    {rest : List Command}
    (hInv : Invariant s)
    (hRunning : s.registryRunning = true)
    (hCommands : s.commands = .acquire key reply :: rest) :
    Consistent ({ s with commands := rest } : State ε) := by
  apply hInv.toConsistent.turn_entries
  case hRunning => exact hRunning
  case hCoherent =>
    rw [roster_dropHead hCommands rfl]
    exact hInv.coherent
  case hHandles => rfl
  case hCalls => rfl
  case hWorkers => rfl
  case hCommands => exact hCommands
  case hWaiters => exact hInv.waiter_key

/- The call of the acquisition at the head has its key. -/
theorem Invariant.head_key
    {s : State ε} {key : String} {reply : CallId}
    {rest : List Command}
    (hInv : Invariant s)
    (hCommands : s.commands = .acquire key reply :: rest)
    {call : Call ε}
    (hCall : s.calls[reply]? = some call) :
    call.key = key := by
  rcases hInv.acquire_key key reply (by simp [hCommands])
    with ⟨call', hCall', hKey⟩
  have hSame : call = call' := by simpa [hCall] using hCall'
  rw [hSame, hKey]

theorem Invariant.turn_granted
    {s : State ε} {key : String} {reply : CallId}
    {rest : List Command} {generation : Generation}
    {sender : WorkerId}
    (hInv : Invariant s)
    (hRunning : s.registryRunning = true)
    (hCommands : s.commands = .acquire key reply :: rest)
    (hEntry :
      s.entries.lookup key =
        some (.active generation sender)) :
    Invariant
      (({ s with commands := rest } : State ε).grant
        reply sender) := by
  rcases hInv.coherent.active_post key generation sender
      (shape_eq_active_iff.mpr hEntry) with
    ⟨p, hPost, hKey, _, hCharge⟩
  rcases post_eq_some_iff.mp hPost with
    ⟨worker, hWorker, rfl⟩
  change Invariant
    (({ s with commands := rest } : State ε).grantAll
      [reply] sender)
  apply Invariant.grantAll
  case hCons => exact hInv.consistent_dropHead hRunning hCommands
  case hWorker => exact hWorker
  case hListens => exact worker.listens_of_inCharge hCharge
  case hKeys =>
    intro c hMem call hCall
    rw [List.mem_singleton] at hMem
    subst hMem
    rw [hInv.head_key hCommands hCall]
    exact hKey.symm
  case hHeld =>
    intro c call hCall hPhase hOther
    rw [List.mem_singleton] at hOther
    exact hInv.held_dropHead hCommands hCall hPhase hOther

theorem Invariant.turn_parked
    {s : State ε} {key : String} {reply : CallId}
    {rest : List Command} {generation : Generation}
    {waiters : List CallId}
    (hInv : Invariant s)
    (hRunning : s.registryRunning = true)
    (hCommands : s.commands = .acquire key reply :: rest)
    (hEntry :
      s.entries.lookup key =
        some (.retiring generation waiters)) :
    Invariant
      (({ s with commands := rest } : State ε).setEntry key
        (.retiring generation (waiters ++ [reply]))) := by
  have hRoster :
      (({ s with commands := rest } : State ε).setEntry key
        (.retiring generation (waiters ++ [reply]))).roster =
        s.roster := by
    have hShape :
        Function.update s.roster.shape key
            (some (.retiring generation)) =
          s.roster.shape := by
      rw [← shape_eq_retiring_iff.mpr ⟨waiters, hEntry⟩]
      exact Function.update_eq_self key _
    have hInsert :=
      shape_insert s key
        (.retiring generation (waiters ++ [reply]))
    rw [Entry.shape, hShape] at hInsert
    simp only [State.roster, State.setEntry, hCommands,
      Command.notice?, List.filterMap_cons]
    rw [hInsert]
    rfl
  refine ⟨?_, ?_⟩
  · apply hInv.toConsistent.turn_entries
    case hRunning => exact hRunning
    case hCoherent =>
      rw [hRoster]
      exact hInv.coherent
    case hHandles => rfl
    case hCalls => rfl
    case hWorkers => rfl
    case hCommands => exact hCommands
    case hWaiters =>
      intro k g ws c hOld hMem
      rcases lookup_insert_eq_some_iff.mp hOld with
        ⟨rfl, hNew⟩ | ⟨_, hSame⟩
      · cases hNew
        rw [List.mem_append, List.mem_singleton] at hMem
        rcases hMem with hWaiter | rfl
        · exact hInv.waiter_key k generation waiters c hEntry
            hWaiter
        · exact hInv.acquire_key k c (by simp [hCommands])
      · exact hInv.waiter_key k g ws c hSame hMem
  · intro c call hCall hPhase
    by_cases hReply : c = reply
    · subst hReply
      have hKey := hInv.head_key hCommands hCall
      exact Or.inr ⟨generation, waiters ++ [c],
        lookup_insert_eq_some_iff.mpr (Or.inl ⟨hKey, rfl⟩),
        by simp⟩
    · rcases hInv.held_dropHead hCommands hCall hPhase
          hReply with
        hQueued | ⟨g, ws, hParked, hMem⟩
      · exact Or.inl hQueued
      · by_cases hEq : call.key = key
        · have hHere :
              s.entries.lookup key =
                some (.retiring g ws) := by
            rw [← hEq]
            exact hParked
          rw [hEntry] at hHere
          cases hHere
          exact Or.inr ⟨generation, waiters ++ [reply],
            lookup_insert_eq_some_iff.mpr
              (Or.inl ⟨hEq, rfl⟩),
            by simp [hMem]⟩
        · exact Or.inr ⟨g, ws,
            lookup_insert_eq_some_iff.mpr
              (Or.inr ⟨hEq, hParked⟩), hMem⟩

/- The roster once a worker is spawned for a key. -/
theorem roster_spawnPartitionWorker
    (s : State ε) (key : String) :
    (s.spawnPartitionWorker key).roster =
      { s.roster with
        post := Function.update s.roster.post
          s.workers.length
          (some ⟨key, s.nextGeneration, .serving⟩)
        shape := Function.update s.roster.shape key
          (some (.active s.nextGeneration
            s.workers.length)) } := by
  unfold State.roster State.spawnPartitionWorker
  simp only
  congr 1
  · exact post_append s
      (State.spawned key s.nextGeneration)
  · exact shape_insert s key
      (.active s.nextGeneration s.workers.length)

/-
  A spawn keeps consistency when no worker of the key is
  left and no announcement of one is on its way.
-/
theorem Consistent.spawnPartitionWorker
    {s : State ε}
    (hCons : Consistent s)
    (hRunning : s.registryRunning = true)
    {key : String}
    (hCoherent :
      Coherent (s.spawnPartitionWorker key).roster) :
    Consistent (s.spawnPartitionWorker key) := by
  apply hCons.turn
  case hRunning => exact hRunning
  case hCoherent => exact hCoherent
  case hHandles => rfl
  case hCalls => rfl
  case hCommands =>
    intro command hMem
    exact hMem
  case hKept =>
    intro w worker hWorker
    refine Or.inl ?_
    exact Lists.getElem?_append_singleton_eq_some.mpr
      (Or.inl hWorker)
  case hWorkers =>
    intro w worker hWorker
    rcases Lists.getElem?_append_singleton_eq_some.mp hWorker with
      hOld | ⟨_, hNew⟩
    · exact Or.inl hOld
    · exact Or.inr (Or.inr ⟨_, _, hNew⟩)
  case hWaiters =>
    intro k g ws c hLookup hMem
    rcases lookup_insert_eq_some_iff.mp hLookup with
      ⟨_, hNew⟩ | ⟨_, hOld⟩
    · cases hNew
    · exact hCons.waiter_key k g ws c hOld hMem

theorem spawnPartitionWorker_workers_last
    (s : State ε) (key : String) :
    (s.spawnPartitionWorker key).workers[
        s.workers.length]? =
      some (State.spawned key s.nextGeneration) := by
  simp [State.spawnPartitionWorker]

/- No owner is listed at the next position. -/
theorem post_length (s : State ε) :
    s.roster.post s.workers.length = none := by
  simp [State.roster]

theorem Invariant.turn_spawned
    {s : State ε} {key : String} {reply : CallId}
    {rest : List Command}
    (hInv : Invariant s)
    (hRunning : s.registryRunning = true)
    (hCommands : s.commands = .acquire key reply :: rest)
    (hEntry : s.entries.lookup key = none) :
    Invariant
      ((({ s with commands := rest } :
          State ε).spawnPartitionWorker key).grant reply
        s.workers.length) := by
  have hCons := hInv.consistent_dropHead hRunning hCommands
  have hRoster := roster_dropHead hCommands rfl
  have hVacant :
      ∀ w p, s.roster.post w = some p → p.key = key →
        ¬ p.role.Live :=
    hInv.coherent.no_owner hRunning
      (shape_eq_none_iff.mpr hEntry)
  have hNoLeaves :
      ∀ g, Notice.leaves key g ∉ s.roster.notices := by
    intro g hNotice
    have hShape :=
      hInv.coherent.leaves_shape key g hNotice
    rw [shape_eq_none_iff.mpr hEntry] at hShape
    cases hShape
  have hCoherent :
      Coherent
        (({ s with commands := rest } :
          State ε).spawnPartitionWorker key).roster := by
    rw [roster_spawnPartitionWorker, hRoster]
    exact hInv.coherent.appoint (post_length s) hVacant
      (List.Sublist.refl _) hNoLeaves
      (fun _ _ _ hNotice => hNotice)
  change Invariant
    ((({ s with commands := rest } :
        State ε).spawnPartitionWorker key).grantAll
      [reply] s.workers.length)
  apply Invariant.grantAll
  case hCons =>
    exact hCons.spawnPartitionWorker hRunning hCoherent
  case hWorker => exact spawnPartitionWorker_workers_last _ key
  case hListens => simp [State.spawned, Worker.Listens]
  case hKeys =>
    intro c hMem call hCall
    rw [List.mem_singleton] at hMem
    subst hMem
    exact hInv.head_key hCommands hCall
  case hHeld =>
    intro c call hCall hPhase hOther
    rw [List.mem_singleton] at hOther
    rcases hInv.held_dropHead hCommands hCall hPhase hOther
      with hQueued | ⟨g, ws, hParked, hMem⟩
    · exact Or.inl hQueued
    · have hNe : call.key ≠ key := by
        intro hEq
        rw [← hEq] at hEntry
        rw [hEntry] at hParked
        cases hParked
      exact Or.inr ⟨g, ws,
        lookup_insert_eq_some_iff.mpr (Or.inr ⟨hNe, hParked⟩),
        hMem⟩

theorem Invariant.turn_accepted
    {s : State ε} {w : WorkerId} {worker : Worker ε}
    {rest : List Command}
    (hInv : Invariant s)
    (hRunning : s.registryRunning = true)
    (hCommands :
      s.commands =
        .beginRetirement worker.key worker.generation w ::
          rest)
    (hWorker : s.workers[w]? = some worker)
    (hPhase : worker.phase = .retiring)
    (hEntry :
      s.entries.lookup worker.key =
        some (.active worker.generation w)) :
    Invariant
      (((({ s with commands := rest } :
          State ε).removeEntry worker.key).setEntry worker.key
          (.retiring worker.generation [])).setWorker w
        { worker with phase := .answered true }) := by
  have hLookup :
      ∀ k, ((s.entries.erase worker.key).insert worker.key
          (.retiring worker.generation [])).lookup k =
        (s.entries.insert worker.key
          (.retiring worker.generation [])).lookup k :=
    fun k => lookup_insert_erase s.entries worker.key k _
  have hNotices :=
    notices_dropHead hCommands
      (.asks worker.key worker.generation w) rfl
  have hCoherent :
      Coherent
        (((({ s with commands := rest } :
          State ε).removeEntry worker.key).setEntry worker.key
            (.retiring worker.generation [])).setWorker w
          { worker with phase := .answered true }).roster := by
    have hAccept := hInv.coherent.accept hNotices
    have hPost :=
      post_set hWorker { worker with phase := .answered true }
    have hShape :=
      shape_insert s worker.key
        (.retiring worker.generation [])
    simp only [State.roster, State.setWorker, State.setEntry,
      State.removeEntry, hLookup]
    rw [hPost, hShape]
    exact hAccept
  refine ⟨?_, ?_⟩
  · apply hInv.toConsistent.turn
    case hRunning => exact hRunning
    case hCoherent => exact hCoherent
    case hHandles => rfl
    case hCalls => rfl
    case hCommands =>
      intro command hMem
      rw [hCommands]
      exact List.mem_cons_of_mem _ hMem
    case hKept =>
      intro i other hOther
      by_cases hEq : w = i
      · subst hEq
        have hSame : worker = other := by
          simpa [hWorker] using hOther
        subst hSame
        exact Or.inr ⟨hPhase,
          (Lists.getElem?_set_eq_some hWorker).mpr
            (Or.inl ⟨rfl, rfl⟩)⟩
      · exact Or.inl
          ((Lists.getElem?_set_eq_some hWorker).mpr
            (Or.inr ⟨hEq, hOther⟩))
    case hWorkers =>
      intro i other hOther
      rcases (Lists.getElem?_set_eq_some hWorker).mp hOther
        with ⟨rfl, hNew⟩ | ⟨_, hOld⟩
      · exact Or.inr
          (Or.inl ⟨worker, hWorker, hPhase, hNew⟩)
      · exact Or.inl hOld
    case hWaiters =>
      intro k g ws c hOld hMem
      simp only [State.setWorker_entries, State.setEntry,
        State.removeEntry, hLookup] at hOld
      rcases lookup_insert_eq_some_iff.mp hOld with
        ⟨_, hNew⟩ | ⟨_, hBefore⟩
      · cases hNew
        cases hMem
      · exact hInv.waiter_key k g ws c hBefore hMem
  · intro c call hCall hAwaiting
    rcases hInv.held c call hCall hAwaiting with
      hQueued | ⟨g, ws, hParked, hMem⟩
    · rw [hCommands, List.mem_cons] at hQueued
      rcases hQueued with hHead | hRest
      · cases hHead
      · exact Or.inl hRest
    · have hNe : call.key ≠ worker.key := by
        intro hEq
        rw [← hEq] at hEntry
        rw [hEntry] at hParked
        cases hParked
      refine Or.inr ⟨g, ws, ?_, hMem⟩
      simp only [State.setWorker_entries, State.setEntry,
        State.removeEntry, hLookup]
      exact lookup_insert_eq_some_iff.mpr
        (Or.inr ⟨hNe, hParked⟩)

/-
  A call that awaits its reply is not held by a retirement
  notice, so handling one only concerns parked waiters.
-/
theorem Invariant.held_retired
    {s : State ε} {key : String} {generation : Generation}
    {rest : List Command} {waiters : List CallId}
    (hInv : Invariant s)
    (hCommands : s.commands = .retired key generation :: rest)
    (hEntry :
      s.entries.lookup key =
        some (.retiring generation waiters))
    {c : CallId} {call : Call ε}
    (hCall : s.calls[c]? = some call)
    (hPhase : call.phase = .awaiting) :
    Command.acquire call.key c ∈ rest ∨
      (call.key = key ∧ c ∈ waiters) ∨
      (call.key ≠ key ∧
        ∃ g ws, s.entries.lookup call.key =
          some (.retiring g ws) ∧ c ∈ ws) := by
  rcases hInv.held c call hCall hPhase with
    hQueued | ⟨g, ws, hParked, hMem⟩
  · rw [hCommands, List.mem_cons] at hQueued
    rcases hQueued with hHead | hRest
    · cases hHead
    · exact Or.inl hRest
  · by_cases hEq : call.key = key
    · have hHere :
          s.entries.lookup key = some (.retiring g ws) := by
        rw [← hEq]
        exact hParked
      rw [hEntry] at hHere
      cases hHere
      exact Or.inr (Or.inl ⟨hEq, hMem⟩)
    · exact Or.inr (Or.inr ⟨hEq, g, ws, hParked, hMem⟩)

/- The consistency once the entry of a notice is gone. -/
theorem Invariant.consistent_vacated
    {s : State ε} {key : String} {generation : Generation}
    {rest : List Command}
    (hInv : Invariant s)
    (hRunning : s.registryRunning = true)
    (hCommands :
      s.commands = .retired key generation :: rest) :
    Consistent
      (({ s with commands := rest } : State ε).removeEntry
        key) := by
  apply hInv.toConsistent.turn_entries
  case hRunning => exact hRunning
  case hCoherent =>
    have hVacate := hInv.coherent.vacate
      (notices_dropHead hCommands (.leaves key generation) rfl)
    simp only [State.roster, State.removeEntry]
    rw [shape_erase s key]
    exact hVacate
  case hHandles => rfl
  case hCalls => rfl
  case hWorkers => rfl
  case hCommands => exact hCommands
  case hWaiters =>
    intro k g ws c hLookup hMem
    simp only [State.removeEntry] at hLookup
    by_cases hEq : k = key
    · subst hEq
      simp at hLookup
    · rw [AList.lookup_erase_ne hEq] at hLookup
      exact hInv.waiter_key k g ws c hLookup hMem

theorem Invariant.turn_vacated
    {s : State ε} {key : String} {generation : Generation}
    {rest : List Command} {waiters : List CallId}
    (hInv : Invariant s)
    (hRunning : s.registryRunning = true)
    (hCommands : s.commands = .retired key generation :: rest)
    (hEntry :
      s.entries.lookup key =
        some (.retiring generation waiters))
    (hClosed : ∀ c ∈ waiters, s.isClosed c = true) :
    Invariant
      (({ s with commands := rest } : State ε).removeEntry
        key) := by
  refine ⟨hInv.consistent_vacated hRunning hCommands, ?_⟩
  intro c call hCall hPhase
  rcases hInv.held_retired hCommands hEntry hCall hPhase with
    hRest | ⟨_, hWaits⟩ | ⟨hNe, g, ws, hParked, hMem⟩
  · exact Or.inl hRest
  · have hCall' : s.calls[c]? = some call := hCall
    have hOpen := hClosed c hWaits
    simp [State.isClosed, hCall', hPhase] at hOpen
  · refine Or.inr ⟨g, ws, ?_, hMem⟩
    simp only [State.removeEntry]
    rw [AList.lookup_erase_ne hNe]
    exact hParked

/- Spawning over a removed entry is spawning. -/
theorem roster_removeEntry_spawnPartitionWorker
    (s : State ε) (key : String) :
    ((s.removeEntry key).spawnPartitionWorker key).roster =
      (s.spawnPartitionWorker key).roster := by
  simp only [State.roster, State.removeEntry,
    State.spawnPartitionWorker, lookup_insert_erase]

theorem Invariant.turn_replaced
    {s : State ε} {key : String} {generation : Generation}
    {rest : List Command} {waiters : List CallId}
    (hInv : Invariant s)
    (hRunning : s.registryRunning = true)
    (hCommands : s.commands = .retired key generation :: rest)
    (hEntry :
      s.entries.lookup key =
        some (.retiring generation waiters)) :
    Invariant
      ((((({ s with commands := rest } : State ε).removeEntry
        key).spawnPartitionWorker key)).grantAll
        (waiters.filter (fun c => !s.isClosed c))
        s.workers.length) := by
  have hNotices :=
    notices_dropHead hCommands
      (.leaves key generation) rfl
  have hHead :
      Notice.leaves key generation ∈ s.roster.notices := by
    simp [hNotices]
  have hCoherent :
      Coherent
        ((({ s with commands := rest } : State ε).removeEntry
          key).spawnPartitionWorker key).roster := by
    have hVacate := hInv.coherent.vacate hNotices
    rw [roster_removeEntry_spawnPartitionWorker,
      roster_spawnPartitionWorker]
    have hOnce := hInv.coherent.once
    rw [hNotices, List.pairwise_cons] at hOnce
    apply hInv.coherent.appoint (post_length s)
    · intro w p hPost hKey
      exact hInv.coherent.leaves_stopped key generation w p
        hHead hPost hKey
    · rw [hNotices]
      exact List.sublist_cons_self _ _
    · intro g hNotice
      exact hOnce.1 _ hNotice rfl
    · intro k g hNe hNotice
      rw [hNotices, List.mem_cons] at hNotice
      rcases hNotice with hSame | hRest
      · cases hSame
        exact absurd rfl hNe
      · exact hRest
  have hCons :
      Consistent
        ((({ s with commands := rest } : State ε).removeEntry
          key).spawnPartitionWorker key) :=
    (hInv.consistent_vacated hRunning
      hCommands).spawnPartitionWorker hRunning hCoherent
  apply Invariant.grantAll hCons
  case hWorker => exact spawnPartitionWorker_workers_last _ key
  case hListens => simp [State.spawned, Worker.Listens]
  case hKeys =>
    intro c hMem call hCall
    have hWaits : c ∈ waiters := (List.mem_filter.mp hMem).1
    rcases hInv.waiter_key key generation waiters c hEntry
        hWaits with
      ⟨call', hCall', hKey⟩
    have hSame : call = call' := by
      have hCall'' : s.calls[c]? = some call := hCall
      simpa [hCall''] using hCall'
    rw [hSame, hKey]
    rfl
  case hHeld =>
    intro c call hCall hPhase hServed
    have hCall' : s.calls[c]? = some call := hCall
    rcases hInv.held_retired hCommands hEntry hCall' hPhase
      with hRest | ⟨_, hWaits⟩ | ⟨hNe, g, ws, hParked, hMem⟩
    · exact Or.inl hRest
    · refine absurd (List.mem_filter.mpr ⟨hWaits, ?_⟩) hServed
      simp [State.isClosed, hCall', hPhase]
    · refine Or.inr ⟨g, ws, ?_, hMem⟩
      simp only [State.spawnPartitionWorker,
        State.removeEntry, lookup_insert_erase]
      exact lookup_insert_eq_some_iff.mpr
        (Or.inr ⟨hNe, hParked⟩)

/- Every expected turn keeps the invariant. -/
theorem Invariant.turn
    {s : State ε} {command : Command} {rest : List Command}
    {result : State ε × Verdict}
    (hInv : Invariant s)
    (hRunning : s.registryRunning = true)
    (hCommands : s.commands = command :: rest)
    (hTurn :
      Turn ({ s with commands := rest } : State ε) command
        result) :
    Invariant result.1 := by
  cases hTurn with
  | granted hEntry =>
      exact hInv.turn_granted hRunning hCommands hEntry
  | parked hEntry =>
      exact hInv.turn_parked hRunning hCommands hEntry
  | spawned hEntry =>
      exact hInv.turn_spawned hRunning hCommands hEntry
  | accepted hWorker hPhase hEntry =>
      exact hInv.turn_accepted hRunning hCommands hWorker
        hPhase hEntry
  | vacated hEntry hClosed =>
      exact hInv.turn_vacated hRunning hCommands hEntry
        hClosed
  | replaced hEntry =>
      exact hInv.turn_replaced hRunning hCommands hEntry

/-
  Under the invariant the registry only takes expected turns:
  a retirement is never refused and never stale.
-/
theorem Invariant.handle
    {s : State ε} {command : Command} {rest : List Command}
    (hInv : Invariant s)
    (hRunning : s.registryRunning = true)
    (hCommands : s.commands = command :: rest) :
    Turn ({ s with commands := rest } : State ε) command
      (({ s with commands := rest } :
        State ε).partitionRegistry command) := by
  cases command with
  | acquire key reply => exact turn_acquire _ key reply
  | beginRetirement key generation w =>
      have hNotice :
          Notice.asks key generation w ∈ s.roster.notices :=
        asks_mem_notices_iff.mpr (by simp [hCommands])
      have hPost := hInv.coherent.asks_post _ _ _ hNotice
      rcases post_eq_some_iff.mp hPost with
        ⟨worker, hWorker, hWorkerPost⟩
      have hKey : worker.key = key :=
        congrArg Post.key hWorkerPost
      have hGeneration : worker.generation = generation :=
        congrArg Post.generation hWorkerPost
      have hPhase : worker.phase = .retiring :=
        worker.phase.role_eq_asking_iff.mp
          (congrArg Post.role hWorkerPost)
      have hShape :=
        hInv.coherent.inCharge_shape w _ hPost (Or.inr rfl)
          hRunning
      have hEntry := shape_eq_active_iff.mp hShape
      subst hKey hGeneration
      exact turn_beginRetirement hWorker hPhase hEntry
  | retired key generation =>
      have hNotice :
          Notice.leaves key generation ∈ s.roster.notices :=
        leaves_mem_notices_iff.mpr (by simp [hCommands])
      have hShape :=
        hInv.coherent.leaves_shape _ _ hNotice
      rcases shape_eq_retiring_iff.mp hShape with
        ⟨waiters, hEntry⟩
      exact turn_retired hEntry

end Partitioner

end Qanat
