import Qanat.Library.FifoServer
import Qanat.Router.Partitioner.Safety

/-
  The workers of a key, one generation after the other, are
  one first-come first-served server.

  Main declarations:
    * `Partitioner.Worker.server`, `Partitioner.Serves`
    * `Partitioner.Event.ofKey`
    * `Partitioner.domain_refines_fifoServer`
-/

------------------------------------------------------------
-- The Server of a Key
------------------------------------------------------------

namespace Qanat

namespace Partitioner

open Transition

variable {ε : Type} {config : BoundedConfig}

/- A job as the server sees it: its name and its effects. -/
def PartitionJob.entry (job : PartitionJob ε) :
    CallId × List ε :=
  (job.completion, job.task.effects)

/- The job in service with the effects it still has. -/
def Activity.serving? :
    Activity ε → Option (CallId × List ε)
| .executing job rest => some (job.completion, rest)
| _ => Option.none

/- The state of the server while this worker serves its key. -/
def Worker.server (worker : Worker ε) :
    FifoServer.State CallId ε where
  waiting := worker.queue.map PartitionJob.entry
  serving := worker.activity.serving?

/- The events of one key, as events of its server. -/
def Event.ofKey (key : String) :
    Event ε → Option (FifoServer.Event CallId ε)
| .queued k job =>
    if k = key then
      some (.enqueue job.completion job.task.effects)
    else
      none
| .started k c => if k = key then some (.start c) else none
| .performed k c effect =>
    if k = key then some (.perform c effect) else none
| .finished k c => if k = key then some (.finish c) else none
| _ => none

/-
  The server of a key: the live worker of the key if there
  is one, and an idle server otherwise.
-/
def Serves
    (workers : List (Worker ε)) (key : String)
    (t : FifoServer.State CallId ε) :
    Prop :=
  (∃ (w : WorkerId) (worker : Worker ε),
    workers[w]? = some worker ∧ worker.key = key ∧
      worker.Live ∧ t = worker.server) ∨
  ((∀ (w : WorkerId) (worker : Worker ε),
      workers[w]? = some worker → worker.key = key →
        ¬ worker.Live) ∧
    t = FifoServer.State.empty)

/- Under the invariant a live worker is the server of its key. -/
theorem Invariant.eq_server
    {s : State ε} {w : WorkerId} {worker : Worker ε}
    {t : FifoServer.State CallId ε}
    (hInv : Invariant s)
    (hWorker : s.workers[w]? = some worker)
    (hLive : worker.Live)
    (hServes : Serves s.workers worker.key t) :
    t = worker.server := by
  rcases hServes with
    ⟨v, other, hOther, hKey, hOtherLive, hServer⟩ |
      ⟨hNone, _⟩
  · have hSame : w = v :=
      hInv.live_unique hWorker hOther hLive hOtherLive
        hKey.symm
    subst hSame
    rw [hWorker] at hOther
    cases hOther
    exact hServer
  · exact absurd hLive (hNone w worker hWorker rfl)

/-
  A live worker moves.  It stays live, or stops with nothing
  left to do.
-/
theorem Invariant.serves_set
    {s : State ε} {w : WorkerId} {old new : Worker ε}
    {key : String} {t : FifoServer.State CallId ε}
    (hInv : Invariant s)
    (hOld : s.workers[w]? = some old)
    (hKey : new.key = old.key)
    (hOldLive : old.Live)
    (hNew :
      new.Live ∨ new.server = FifoServer.State.empty)
    (hServes : Serves s.workers key t) :
    (key = old.key → t = old.server) ∧
      Serves (s.workers.set w new) key
        (if key = old.key then new.server else t) := by
  by_cases hSame : key = old.key
  · subst hSame
    refine ⟨fun _ => hInv.eq_server hOld hOldLive hServes, ?_⟩
    rw [if_pos rfl]
    by_cases hLive : new.Live
    · exact Or.inl ⟨w, new,
        (Lists.getElem?_set_eq_some hOld).mpr
          (Or.inl ⟨rfl, rfl⟩), hKey, hLive, rfl⟩
    · refine Or.inr ⟨?_, hNew.resolve_left hLive⟩
      intro v other hOther hOtherKey hOtherLive
      rcases (Lists.getElem?_set_eq_some hOld).mp hOther with
        ⟨_, rfl⟩ | ⟨hNe, hBefore⟩
      · exact hLive hOtherLive
      · exact hNe (hInv.live_unique hOld hBefore hOldLive
          hOtherLive hOtherKey.symm)
  · refine ⟨fun hEq => absurd hEq hSame, ?_⟩
    rw [if_neg hSame]
    rcases hServes with
      ⟨v, other, hOther, hOtherKey, hOtherLive, hServer⟩ |
        ⟨hNone, hEmpty⟩
    · have hNe : w ≠ v := by
        rintro rfl
        rw [hOld] at hOther
        cases hOther
        exact hSame hOtherKey.symm
      exact Or.inl ⟨v, other,
        (Lists.getElem?_set_eq_some hOld).mpr
          (Or.inr ⟨hNe, hOther⟩),
        hOtherKey, hOtherLive, hServer⟩
    · refine Or.inr ⟨?_, hEmpty⟩
      intro v other hOther hOtherKey
      rcases (Lists.getElem?_set_eq_some hOld).mp hOther with
        ⟨_, rfl⟩ | ⟨_, hBefore⟩
      · exact absurd (hOtherKey.symm.trans hKey) hSame
      · exact hNone v other hBefore hOtherKey

/- A worker spawned for a key nobody serves is an idle server. -/
theorem serves_append
    {workers : List (Worker ε)} {key key' : String}
    {generation : Generation}
    {t : FifoServer.State CallId ε}
    (hServes : Serves workers key t) :
    Serves (workers ++ [State.spawned key' generation]) key
      t := by
  rcases hServes with
    ⟨w, worker, hWorker, hKey, hLive, hServer⟩ |
      ⟨hDead, hEmpty⟩
  · exact Or.inl ⟨w, worker,
      Lists.getElem?_append_singleton_eq_some.mpr
        (Or.inl hWorker),
      hKey, hLive, hServer⟩
  · by_cases hSame : key' = key
    · refine Or.inl ⟨workers.length,
        State.spawned key' generation, ?_, hSame, ?_, ?_⟩
      · exact Lists.getElem?_append_singleton_eq_some.mpr
          (Or.inr ⟨rfl, rfl⟩)
      · simp [State.spawned, Worker.Live]
      · rw [hEmpty]
        rfl
    · refine Or.inr ⟨?_, hEmpty⟩
      intro w worker hWorker hKey
      rcases
          Lists.getElem?_append_singleton_eq_some.mp hWorker
        with hOld | ⟨_, rfl⟩
      · exact hDead w worker hOld hKey
      · exact absurd hKey hSame

end Partitioner

end Qanat

------------------------------------------------------------
-- Simulation
------------------------------------------------------------

namespace Qanat

namespace Partitioner

open Transition

variable {ε : Type} {config : BoundedConfig}

/- The move of the server that answers a move of the domain. -/
def Answers
    (t : FifoServer.State CallId ε)
    (label : Option (FifoServer.Event CallId ε))
    (t' : FifoServer.State CallId ε) :
    Prop :=
  label.elim (t' = t) (fun e => FifoServer.Step t e t')

/-
  A live worker moves with an event of its key, or silently
  with the server unchanged.
-/
theorem Invariant.answers_set
    {s : State ε} {w : WorkerId} {old new : Worker ε}
    {key : String} {t : FifoServer.State CallId ε}
    {label : Option (FifoServer.Event CallId ε)}
    (hInv : Invariant s)
    (hOld : s.workers[w]? = some old)
    (hKey : new.key = old.key)
    (hOldLive : old.Live)
    (hNew :
      new.Live ∨ new.server = FifoServer.State.empty)
    (hServes : Serves s.workers key t)
    (hOther : key ≠ old.key → label = none)
    (hSame :
      key = old.key → Answers old.server label new.server) :
    ∃ t', Serves (s.workers.set w new) key t' ∧
      Answers t label t' := by
  rcases hInv.serves_set hOld hKey hOldLive hNew hServes with
    ⟨hServer, hServes'⟩
  refine ⟨_, hServes', ?_⟩
  by_cases hEq : key = old.key
  · rw [if_pos hEq, hServer hEq]
    exact hSame hEq
  · rw [if_neg hEq, hOther hEq]
    rfl

/- A silent step with the same workers. -/
theorem answers_of_workers_eq
    {s s' : State ε} {key : String}
    {t : FifoServer.State CallId ε}
    (hWorkers : s'.workers = s.workers)
    (hServes : Serves s.workers key t) :
    ∃ t', Serves s'.workers key t' ∧ Answers t none t' :=
  ⟨t, by rw [hWorkers]; exact hServes, rfl⟩

/- A live worker changes its control point and lives on. -/
theorem Invariant.answers_goto
    {s : State ε} {w : WorkerId} {worker : Worker ε}
    {phase : WorkerPhase} {key : String}
    {t : FifoServer.State CallId ε}
    (hInv : Invariant s)
    (hWorker : s.workers[w]? = some worker)
    (hLive : worker.Live)
    (hPhase : phase ≠ .stopped)
    (hServes : Serves s.workers key t) :
    ∃ t',
      Serves
          (s.workers.set w { worker with phase := phase })
          key t' ∧
        Answers t none t' :=
  hInv.answers_set hWorker rfl hLive (Or.inl hPhase) hServes
    (fun _ => rfl) (fun _ => rfl)

/- A live worker with nothing left to do stops. -/
theorem Invariant.answers_stop
    {s : State ε} {w : WorkerId} {worker : Worker ε}
    {phase : WorkerPhase} {key : String}
    {t : FifoServer.State CallId ε}
    (hInv : Invariant s)
    (hWorker : s.workers[w]? = some worker)
    (hLive : worker.Live)
    (hIdle : worker.activity = .none)
    (hEmpty : worker.queue = [])
    (hServes : Serves s.workers key t) :
    ∃ t',
      Serves
          (s.workers.set w { worker with phase := phase })
          key t' ∧
        Answers t none t' := by
  have hServer :
      ({ worker with phase := phase } : Worker ε).server =
        FifoServer.State.empty := by
    simp [Worker.server, hIdle, hEmpty, Activity.serving?,
      FifoServer.State.empty]
  exact hInv.answers_set hWorker rfl hLive (Or.inr hServer)
    hServes (fun _ => rfl) (fun _ => rfl)

/- A live worker works on its jobs where it is. -/
theorem Invariant.answers_work
    {s : State ε} {w : WorkerId} {worker : Worker ε}
    {queue : List (PartitionJob ε)} {activity : Activity ε}
    {key : String} {t : FifoServer.State CallId ε}
    {label : Option (FifoServer.Event CallId ε)}
    (hInv : Invariant s)
    (hWorker : s.workers[w]? = some worker)
    (hLive : worker.Live)
    (hServes : Serves s.workers key t)
    (hOther : key ≠ worker.key → label = none)
    (hSame :
      key = worker.key →
        Answers worker.server label
          ⟨queue.map PartitionJob.entry,
            activity.serving?⟩) :
    ∃ t',
      Serves
          (s.workers.set w { worker with
            queue := queue
            activity := activity })
          key t' ∧
        Answers t label t' :=
  hInv.answers_set hWorker rfl hLive (Or.inl hLive) hServes
    hOther hSame

/- A turn of the registry is silent. -/
theorem Invariant.answers_turn
    {s : State ε} {command : Command}
    {result : State ε × Verdict} {rest : List Command}
    {key : String} {t : FifoServer.State CallId ε}
    (hInv : Invariant s)
    (hTurn :
      Turn ({ s with commands := rest } : State ε) command
        result)
    (hServes : Serves s.workers key t) :
    ∃ t', Serves result.1.workers key t' ∧
      Answers t none t' := by
  cases hTurn with
  | granted hEntry =>
      exact answers_of_workers_eq (by simp) hServes
  | parked hEntry => exact answers_of_workers_eq rfl hServes
  | @spawned key' reply hEntry =>
      refine ⟨t, ?_, rfl⟩
      simp only [State.grant_workers,
        State.spawnPartitionWorker]
      exact serves_append hServes
  | @accepted w worker hWorker hPhase hEntry =>
      exact hInv.answers_goto hWorker
        (by simp [Worker.Live, hPhase]) (by simp) hServes
  | vacated hEntry hClosed =>
      exact answers_of_workers_eq rfl hServes
  | @replaced key' generation waiters hEntry =>
      refine ⟨t, ?_, rfl⟩
      simp only [State.foldl_grant_workers,
        State.spawnPartitionWorker, State.removeEntry]
      exact serves_append hServes

/- Every step of the domain is answered by every server. -/
theorem Invariant.answers_step
    {s s' : State ε} {e : Event ε} {key : String}
    {t : FifoServer.State CallId ε}
    (hInv : Invariant s)
    (hStep : Step config s e s')
    (hServes : Serves s.workers key t) :
    ∃ t', Serves s'.workers key t' ∧
      Answers t (e.ofKey key) t' := by
  have hBusy :
      ∀ (w : WorkerId) (worker : Worker ε),
        s.workers[w]? = some worker →
        worker.activity ≠ .none → worker.Live := by
    intro w worker hWorker hActive hStopped
    have hReceives :=
      hInv.busy_receives w worker hWorker hActive
    simp [hStopped, WorkerPhase.Receives] at hReceives
  cases hStep with
  | @send c call w worker hCall hPhase hWorker hLive hRoom =>
      have hKey : worker.key = call.key := by
        rcases hInv.sender_listens c call w hCall
            (by simp [hPhase, CallPhase.sender?]) with
          ⟨other, hOther, _, hKey⟩
        rw [hWorker] at hOther
        cases hOther
        exact hKey
      apply hInv.answers_work hWorker hLive hServes
      · intro hNe
        rw [hKey] at hNe
        simp [Event.ofKey, hNe.symm]
      · intro hEq
        simp only [Event.ofKey, hEq, hKey, if_true]
        simp only [Answers, Option.elim_some, Worker.server,
          List.map_append, List.map_cons, List.map_nil]
        exact FifoServer.Step.enqueue
  | handle hRunning hCommands =>
      exact hInv.answers_turn
        (hInv.handle hRunning hCommands) hServes
  | panicRegistry hRunning hCommands hSpawns hOver =>
      exact absurd config.capacity_le (Nat.not_le.mpr hOver)
  | stopRegistry hRunning hCommands hNone =>
      rw [hInv.stopRegistry_eq hNone]
      exact answers_of_workers_eq rfl hServes
  | @receive w worker job rest hWorker hReceives hIdle
      hQueue =>
      have hLive : worker.Live := by
        intro hStopped
        simp [hStopped, WorkerPhase.Receives] at hReceives
      apply hInv.answers_work hWorker hLive hServes
      · intro hNe
        simp [Event.ofKey, hNe.symm]
      · intro hEq
        simp only [Event.ofKey, hEq, if_true, Answers,
          Option.elim_some, Worker.server, hQueue, hIdle,
          List.map_cons, Activity.serving?]
        exact FifoServer.Step.start
  | close hWorker hPhase hIdle hEmpty hSender =>
      exact hInv.answers_stop hWorker
        (by simp [Worker.Live, hPhase]) hIdle hEmpty hServes
  | timeout hWorker hPhase hIdle =>
      exact hInv.answers_goto hWorker
        (by simp [Worker.Live, hPhase]) (by simp) hServes
  | upgrade hWorker hPhase hSender =>
      exact hInv.answers_goto hWorker
        (by simp [Worker.Live, hPhase]) (by simp) hServes
  | upgradeFailed hWorker hPhase hNone =>
      exact hInv.answers_goto hWorker
        (by simp [Worker.Live, hPhase]) (by simp) hServes
  | announce hWorker hPhase hRunning =>
      exact hInv.answers_goto hWorker
        (by simp [Worker.Live, hPhase]) (by simp) hServes
  | announceFailed hWorker hPhase hStopped =>
      exact hInv.answers_goto hWorker
        (by simp [Worker.Live, hPhase]) (by simp) hServes
  | @resume w worker accepted hWorker hPhase =>
      exact hInv.answers_goto hWorker
        (by simp [Worker.Live, hPhase])
        (by cases accepted <;> simp) hServes
  | drain hWorker hPhase hIdle hEmpty hSender =>
      exact hInv.answers_stop hWorker
        (by simp [Worker.Live, hPhase]) hIdle hEmpty hServes
  | @retire w worker hWorker hPhase =>
      have hWorkers :
          (if s.registryRunning then
            (s.setWorker w
              { worker with phase := .stopped }).send
              (.retired worker.key worker.generation)
          else
            s.setWorker w
              { worker with phase := .stopped }).workers =
            s.workers.set w
              { worker with phase := .stopped } := by
        by_cases hRunning : s.registryRunning = true <;>
          simp [hRunning]
      rw [hWorkers]
      have hDeaf : ¬ worker.Listens := by
        simp [Worker.Listens, hPhase]
      exact hInv.answers_stop hWorker
        (by simp [Worker.Live, hPhase])
        (hInv.idle hWorker
          (by simp [hPhase, WorkerPhase.Receives]))
        (hInv.deaf_empty w worker hWorker hDeaf) hServes
  | @perform w worker job effect rest hWorker hExecuting =>
      have hLive := hBusy w worker hWorker
        (by simp [hExecuting])
      apply hInv.answers_work hWorker hLive hServes
      · intro hNe
        simp [Event.ofKey, hNe.symm]
      · intro hEq
        simp only [Event.ofKey, hEq, if_true, Answers,
          Option.elim_some, Worker.server, hExecuting,
          Activity.serving?]
        exact FifoServer.Step.perform
  | @finish w worker job hWorker hExecuting =>
      have hLive := hBusy w worker hWorker
        (by simp [hExecuting])
      apply hInv.answers_work hWorker hLive hServes
      · intro hNe
        simp [Event.ofKey, hNe.symm]
      · intro hEq
        simp only [Event.ofKey, hEq, if_true, Answers,
          Option.elim_some, Worker.server, hExecuting,
          Activity.serving?]
        exact FifoServer.Step.finish
  | @complete w worker job hWorker hCompleting =>
      have hLive := hBusy w worker hWorker
        (by simp [hCompleting])
      apply hInv.answers_work hWorker hLive hServes
      · intro hNe
        rfl
      · intro hEq
        simp [Event.ofKey, Answers, Worker.server,
          hCompleting, Activity.serving?]
  | _ => exact answers_of_workers_eq rfl hServes

/-
  The domain of a key refines a first-come first-served
  server.
-/
theorem domain_refines_fifoServer
    {config : BoundedConfig}
    {trace : List (Event ε)}
    {s : State ε}
    (hReach : (lts ε config).Reachable trace s)
    (key : String) :
    ∃ t,
      (FifoServer.lts CallId ε).Reachable
          (trace.filterMap (Event.ofKey key)) t ∧
        Serves s.workers key t := by
  apply hReach.simulate (Event.ofKey key)
    (fun _ s t => Serves s.workers key t)
  · intro s hStart
    have hEq : s = State.start := hStart
    refine ⟨FifoServer.State.empty, rfl, Or.inr ⟨?_, rfl⟩⟩
    simp [hEq, State.start]
  · intro trace s e s' t hReach hServes hStep
    exact (invariant_of_reachable hReach).answers_step hStep
      hServes

end Partitioner

end Qanat
