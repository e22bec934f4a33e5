import Qanat.Router.Partitioner.Budget
import Qanat.Router.Partitioner.Effects

/-
  How a partition domain comes to rest.

  Handles, submissions and cancellations come from outside;
  everything else the domain does by itself.  Left to itself
  it does not get stuck before every task it was given has
  run to its end, and once its timers have fired nothing of
  it is left but the registry, which ends with the last
  handle.

  Main declarations:
    * `Partitioner.Event.IsOwn`, `Partitioner.Event.IsWork`
    * `Partitioner.Idle`, `Partitioner.idle_of_stuck`
    * `Partitioner.domain_comes_to_rest`
    * `Partitioner.domain_gives_everything_back`
-/

------------------------------------------------------------
-- Own Steps
------------------------------------------------------------

namespace Qanat

namespace Partitioner

open Transition

variable {ε : Type}

/- What submitters, registry and workers do by themselves. -/
def Event.IsOwn : Event ε → Prop
| .cloned | .dropped | .cancelled _ => False
| .called _ _ _ => False
| _ => True

/- An own step that does not wait for a timer. -/
def Event.IsWork : Event ε → Prop
| .timedOut _ => False
| e => e.IsOwn

theorem Event.IsWork.isOwn
    {e : Event ε}
    (hWork : e.IsWork) :
    e.IsOwn := by
  cases e with
  | timedOut => exact hWork.elim
  | _ => exact hWork

/- Own steps are paid for beforehand. -/
theorem Event.IsOwn.brings_eq_zero
    {e : Event ε}
    (hOwn : e.IsOwn) :
    e.brings = 0 := by
  cases e with
  | cloned | called => exact hOwn.elim
  | _ => rfl

/- A registry that has ended knows nobody. -/
theorem entries_of_stopped
    {config : BoundedConfig}
    {trace : List (Event ε)} {s : State ε}
    (hReach : (lts ε config).Reachable trace s)
    (hStopped : s.registryRunning = false) :
    s.entries = ∅ := by
  induction hReach with
  | initial hStart =>
      have hEq : _ = State.start := hStart
      subst hEq
      rfl
  | @step trace s s' e hReach hStep ih =>
      have hInv := invariant_of_reachable hReach
      cases hStep with
      | handle hRunning hCommands =>
          have hKept :=
            (hInv.handle hRunning hCommands).registryRunning
          rw [hKept] at hStopped
          exact absurd hStopped (by simp [hRunning])
      | panicRegistry | stopRegistry => rfl
      | retire =>
          split at hStopped
          · next hRunning =>
              exact absurd hStopped (by simp [hRunning])
          · next hOff =>
              rw [if_neg hOff]
              exact ih hStopped
      | _ => exact ih hStopped

end Partitioner

end Qanat

------------------------------------------------------------
-- What Cannot Be Left Over
------------------------------------------------------------

namespace Qanat

namespace Partitioner

open Transition
open Transition.Handover

variable {ε : Type} {config : BoundedConfig} {s : State ε}

/- A worker without work waits at its receive or has ended. -/
structure Idle (s : State ε) : Prop where
  commands : s.commands = []
  workers :
    ∀ (w : WorkerId) (worker : Worker ε),
      s.workers[w]? = some worker →
        worker.jobs = [] ∧
          (worker.phase = .receiving ∨
            worker.phase = .stopped)
  calls :
    ∀ (c : CallId) (call : Call ε),
      s.calls[c]? = some call →
        call.phase = .returned ∨ call.phase = .cancelled
  closed :
    s.handles = 0 →
      s.registryRunning = false ∧
        ∀ (w : WorkerId) (worker : Worker ε),
          s.workers[w]? = some worker → ¬ worker.Live

namespace Invariant

/- No job is being run. -/
theorem activity_of_stuck
    (hStuck : (lts ε config).Stuck Event.IsWork s)
    {w : WorkerId} {worker : Worker ε}
    (hWorker : s.workers[w]? = some worker) :
    worker.activity = .none := by
  cases hActivity : worker.activity with
  | none => rfl
  | executing job rest =>
      cases rest with
      | nil =>
          exact (hStuck _ _
            (Step.finish hWorker hActivity) trivial).elim
      | cons effect rest =>
          exact (hStuck _ _
            (Step.perform hWorker hActivity) trivial).elim
  | completing job =>
      exact (hStuck _ _
        (Step.complete hWorker hActivity) trivial).elim

/- No command is on its way. -/
theorem commands_of_stuck
    (hInv : Invariant s)
    (hStuck : (lts ε config).Stuck Event.IsWork s) :
    s.commands = [] := by
  cases hRunning : s.registryRunning with
  | false => exact (hInv.registryOff hRunning).2
  | true =>
      cases hCommands : s.commands with
      | nil => rfl
      | cons command rest =>
          exact (hStuck _ _
            (Step.handle hRunning hCommands
              (fun _ => config.capacity_le)) trivial).elim

/- Only three places are left for a worker. -/
theorem phase_of_stuck
    (hInv : Invariant s)
    (hAsking : Asking s)
    (hStuck : (lts ε config).Stuck Event.IsWork s)
    {w : WorkerId} {worker : Worker ε}
    (hWorker : s.workers[w]? = some worker) :
    worker.phase = .receiving ∨
      (∃ announced, worker.phase = .draining announced) ∨
      worker.phase = .stopped := by
  have hCommands := hInv.commands_of_stuck hStuck
  cases hPhase : worker.phase with
  | receiving => exact Or.inl rfl
  | elapsed =>
      by_cases hSender : s.HasRegistrySender
      · exact (hStuck _ _
          (Step.upgrade hWorker hPhase hSender) trivial).elim
      · exact (hStuck _ _
          (Step.upgradeFailed hWorker hPhase hSender)
          trivial).elim
  | announcing =>
      cases hRunning : s.registryRunning with
      | true =>
          exact (hStuck _ _
            (Step.announce hWorker hPhase hRunning) trivial).elim
      | false =>
          exact (hStuck _ _
            (Step.announceFailed hWorker hPhase hRunning)
            trivial).elim
  | retiring =>
      have hAsked := hAsking.asked w worker hWorker hPhase
      rw [hCommands] at hAsked
      cases hAsked
  | answered accepted =>
      exact (hStuck _ _ (Step.resume hWorker hPhase) trivial).elim
  | draining announced => exact Or.inr (Or.inl ⟨_, rfl⟩)
  | drained =>
      exact (hStuck _ _ (Step.retire hWorker hPhase) trivial).elim
  | stopped => exact Or.inr (Or.inr rfl)

/- No job is waiting. -/
theorem queue_of_stuck
    (hInv : Invariant s)
    (hAsking : Asking s)
    (hStuck : (lts ε config).Stuck Event.IsWork s)
    {w : WorkerId} {worker : Worker ε}
    (hWorker : s.workers[w]? = some worker) :
    worker.queue = [] := by
  have hActivity := activity_of_stuck hStuck hWorker
  have hTaken :
      worker.phase.Receives → worker.queue = [] := by
    intro hReceives
    cases hQueue : worker.queue with
    | nil => rfl
    | cons job rest =>
        exact (hStuck _ _
          (Step.receive hWorker hReceives hActivity hQueue)
          trivial).elim
  rcases hInv.phase_of_stuck hAsking hStuck hWorker with
    hPhase | ⟨announced, hPhase⟩ | hPhase
  · exact hTaken (by simp [hPhase, WorkerPhase.Receives])
  · exact hTaken (by simp [hPhase, WorkerPhase.Receives])
  · exact hInv.deaf_empty w worker hWorker
      (fun hListens => hListens.2 hPhase)

/- No call is on its way to a worker or back from it. -/
theorem call_of_stuck
    (hInv : Invariant s)
    (hAsking : Asking s)
    (hStuck : (lts ε config).Stuck Event.IsWork s)
    {c : CallId} {call : Call ε}
    (hCall : s.calls[c]? = some call) :
    call.phase = .awaiting ∨ call.phase = .returned ∨
      call.phase = .cancelled := by
  have hPanic := hInv.no_panic c call hCall
  cases hPhase : call.phase with
  | acquiring =>
      cases hRunning : s.registryRunning with
      | true =>
          exact (hStuck _ _
            (Step.acquire hCall hPhase hRunning) trivial).elim
      | false =>
          exact (hStuck _ _
            (Step.registryGone hCall hPhase hRunning)
            trivial).elim
  | awaiting => exact Or.inl rfl
  | unanswered => exact absurd hPhase hPanic.1
  | holding w =>
      rcases hInv.live_of_holding hCall hPhase with
        ⟨worker, hWorker, hLive⟩
      have hRoom : worker.queue.length < config.capacity := by
        rw [hInv.queue_of_stuck hAsking hStuck hWorker]
        exact config.capacity_pos
      exact (hStuck _ _
        (Step.send hCall hPhase hWorker hLive hRoom) trivial).elim
  | sent w =>
      exact (hStuck _ _ (Step.return hCall hPhase) trivial).elim
  | returned => exact Or.inr (Or.inl rfl)
  | panicked => exact absurd hPhase hPanic.2
  | cancelled => exact Or.inr (Or.inr rfl)

/- Senders are left only with the registry. -/
theorem hasSender_of_stuck
    (hInv : Invariant s)
    (hAsking : Asking s)
    (hStuck : (lts ε config).Stuck Event.IsWork s)
    {w : WorkerId}
    (hSender : s.HasSender w) :
    ∃ key generation,
      s.entries.lookup key =
        some (.active generation w) := by
  rcases hSender with hActive | ⟨c, call, hCall, hHandle⟩
  · exact hActive
  · rcases hInv.call_of_stuck hAsking hStuck hCall with
      hPhase | hPhase | hPhase <;>
      simp [hPhase, CallPhase.sender?] at hHandle

/- Nobody drains for ever. -/
theorem not_draining_of_stuck
    {trace : List (Event ε)}
    (hReach : (lts ε config).Reachable trace s)
    (hStuck : (lts ε config).Stuck Event.IsWork s)
    {w : WorkerId} {worker : Worker ε}
    (hWorker : s.workers[w]? = some worker)
    (announced : Bool) :
    worker.phase ≠ .draining announced := by
  have hInv := invariant_of_reachable hReach
  have hAsking := asking_of_reachable hReach
  intro hPhase
  have hSender : s.HasSender w := by
    by_contra hNone
    exact (hStuck _ _
      (Step.drain hWorker hPhase
        (activity_of_stuck hStuck hWorker)
        (hInv.queue_of_stuck hAsking hStuck hWorker)
        hNone) trivial).elim
  rcases hInv.hasSender_of_stuck hAsking hStuck hSender with
    ⟨key, generation, hEntry⟩
  rcases hInv.coherent.active_post key generation w
      (shape_eq_active_iff.mpr hEntry) with
    ⟨p, hPost, _, _, hCharge⟩
  rw [post_of_worker hWorker] at hPost
  cases hPost
  cases announced with
  | true =>
      -- its entry has been retiring since it was let go
      simp [Worker.post, hPhase, WorkerPhase.role,
        Role.InCharge] at hCharge
  | false =>
      -- its registry had no sender left, and ends by itself
      have hNone :=
        hInv.unannounced w worker hWorker hPhase
      cases hRunning : s.registryRunning with
      | true =>
          exact (hStuck _ _
            (Step.stopRegistry hRunning
              (hInv.commands_of_stuck hStuck) hNone)
            trivial).elim
      | false =>
          rw [entries_of_stopped hReach hRunning] at hEntry
          simp at hEntry

/- No reply is parked with a generation on its way out. -/
theorem not_retiring_of_stuck
    {trace : List (Event ε)}
    (hReach : (lts ε config).Reachable trace s)
    (hStuck : (lts ε config).Stuck Event.IsWork s)
    (key : String) (generation : Generation)
    (waiters : List CallId) :
    s.entries.lookup key ≠
      some (.retiring generation waiters) := by
  have hInv := invariant_of_reachable hReach
  have hAsking := asking_of_reachable hReach
  intro hEntry
  rcases hInv.coherent.retiring_post key generation
      (shape_eq_retiring_iff.mpr ⟨waiters, hEntry⟩) with
    ⟨w, hPost⟩ | hNotice
  · rcases post_eq_some_iff.mp hPost with
      ⟨worker, hWorker, hWorkerPost⟩
    have hRole : worker.phase.role = .retiring :=
      congrArg Post.role hWorkerPost
    rcases hInv.phase_of_stuck hAsking hStuck hWorker with
      hPhase | ⟨announced, hPhase⟩ | hPhase
    · simp [hPhase, WorkerPhase.role] at hRole
    · exact not_draining_of_stuck hReach hStuck hWorker
        announced hPhase
    · simp [hPhase, WorkerPhase.role] at hRole
  · have hQueued := leaves_mem_notices_iff.mp hNotice
    rw [hInv.commands_of_stuck hStuck] at hQueued
    cases hQueued

end Invariant

/- A domain that can do no more work has none. -/
theorem idle_of_stuck
    {trace : List (Event ε)}
    (hReach : (lts ε config).Reachable trace s)
    (hStuck : (lts ε config).Stuck Event.IsWork s) :
    Idle s := by
  have hInv := invariant_of_reachable hReach
  have hAsking := asking_of_reachable hReach
  have hCommands := hInv.commands_of_stuck hStuck
  have hPhases :
      ∀ (w : WorkerId) (worker : Worker ε),
        s.workers[w]? = some worker →
          worker.phase = .receiving ∨
            worker.phase = .stopped := by
    intro w worker hWorker
    rcases hInv.phase_of_stuck hAsking hStuck hWorker with
      hPhase | ⟨announced, hPhase⟩ | hPhase
    · exact Or.inl hPhase
    · exact absurd hPhase (Invariant.not_draining_of_stuck
        hReach hStuck hWorker announced)
    · exact Or.inr hPhase
  refine ⟨hCommands, ?workers, ?calls, ?closed⟩
  case workers =>
    intro w worker hWorker
    refine ⟨?_, hPhases w worker hWorker⟩
    simp [Worker.jobs, Activity.job?,
      Invariant.activity_of_stuck hStuck hWorker,
      hInv.queue_of_stuck hAsking hStuck hWorker]
  case calls =>
    intro c call hCall
    rcases hInv.call_of_stuck hAsking hStuck hCall with
      hPhase | hDone
    · -- the registry would have to hold the reply
      rcases hInv.held c call hCall hPhase with
        hQueued | ⟨generation, waiters, hEntry, _⟩
      · rw [hCommands] at hQueued
        cases hQueued
      · exact absurd hEntry (Invariant.not_retiring_of_stuck
          hReach hStuck _ _ _)
    · exact hDone
  case closed =>
    intro hHandles
    have hNone : ¬ s.HasRegistrySender := by
      rintro (hPos | ⟨w, worker, hWorker, hHolds⟩)
      · omega
      · rcases hPhases w worker hWorker with
          hPhase | hPhase <;>
          simp [hPhase, WorkerPhase.HoldsRegistry] at hHolds
    have hStopped : s.registryRunning = false := by
      by_contra hRunning
      exact (hStuck _ _
        (Step.stopRegistry (by simpa using hRunning)
          hCommands hNone) trivial).elim
    refine ⟨hStopped, ?_⟩
    intro w worker hWorker hLive
    have hPhase : worker.phase = .receiving := by
      rcases hPhases w worker hWorker with hPhase | hPhase
      · exact hPhase
      · exact absurd hPhase hLive
    have hSender : ¬ s.HasSender w := by
      intro hSender
      rcases hInv.hasSender_of_stuck hAsking hStuck hSender
        with ⟨key, generation, hEntry⟩
      rw [entries_of_stopped hReach hStopped] at hEntry
      simp at hEntry
    exact (hStuck _ _
      (Step.close hWorker hPhase
        (Invariant.activity_of_stuck hStuck hWorker)
        (hInv.queue_of_stuck hAsking hStuck hWorker)
        hSender) trivial).elim

end Partitioner

end Qanat

------------------------------------------------------------
-- Quiet Domains
------------------------------------------------------------

namespace Qanat

namespace Partitioner

open Transition

variable {ε : Type} {config : Config}
variable {trace : List (Event ε)} {s : State ε}

/- A registry that could take no command has none. -/
theorem Barren.commands_of_stuck
    {P : Event ε → Prop}
    (hBarren : Barren s)
    (hOver : maxPermits < config.capacity)
    (hPanics : ∀ command, P (.registryPanicked command))
    (hStuck : (lts ε config).Stuck P s) :
    s.commands = [] := by
  cases hRunning : s.registryRunning with
  | false => exact hBarren.stopped hRunning
  | true =>
      cases hQueue : s.commands with
      | nil => rfl
      | cons command rest =>
          exact (hStuck _ _
            (Step.panicRegistry hRunning hQueue
              (hBarren.spawns hQueue) hOver)
            (hPanics command)).elim

/- Whatever the options, all calls are over and no job is left. -/
theorem quiet_of_stuck
    (hReach : (lts ε config).Reachable trace s)
    (hStuck : (lts ε config).Stuck Event.IsWork s) :
    (∀ (c : CallId) (call : Call ε),
      s.calls[c]? = some call → ¬ call.phase.IsActive) ∧
      ∀ (w : WorkerId) (worker : Worker ε),
        s.workers[w]? = some worker → worker.jobs = [] := by
  rcases bounded_or_barren hReach with
    ⟨bounded, rfl, hBounded⟩ | ⟨hOver, hBarren⟩
  · have hIdle := idle_of_stuck hBounded hStuck
    refine ⟨?_, fun w worker hWorker =>
      (hIdle.workers w worker hWorker).1⟩
    intro c call hCall
    rcases hIdle.calls c call hCall with hPhase | hPhase <;>
      simp [hPhase, CallPhase.IsActive]
  · refine ⟨?_, fun w worker hWorker =>
      absurd hWorker hBarren.no_worker⟩
    intro c call hCall
    have hNone := hBarren.calls c call hCall
    cases hPhase : call.phase with
    | acquiring =>
        cases hRunning : s.registryRunning with
        | true =>
            exact (hStuck _ _
              (Step.acquire hCall hPhase hRunning)
              trivial).elim
        | false =>
            exact (hStuck _ _
              (Step.registryGone hCall hPhase hRunning)
              trivial).elim
    | awaiting =>
        have hQueued := hBarren.awaits c call hCall hPhase
        rw [hBarren.commands_of_stuck hOver
          (fun _ => trivial) hStuck] at hQueued
        cases hQueued
    | unanswered =>
        exact (hStuck _ _
          (Step.requestDropped hCall hPhase) trivial).elim
    | holding w | sent w =>
        rw [hPhase] at hNone
        exact hNone.elim
    | returned | panicked | cancelled =>
        exact fun hActive => hActive

end Partitioner

end Qanat

------------------------------------------------------------
-- Rest
------------------------------------------------------------

namespace Qanat

namespace Partitioner

open Transition

variable {ε : Type} {config : BoundedConfig}

/-
  The domain is idle and every call that was not cancelled
  has had its task started once, run to the end and completed
  once, and has been told.
-/
structure AtRest (trace : List (Event ε)) (s : State ε) :
    Prop extends Idle s where
  done :
    ∀ (c : CallId) (call : Call ε),
      s.calls[c]? = some call →
      Event.cancelled c ∉ trace →
        call.phase = .returned ∧
          (trace.filterMap Event.startedCall?).count c = 1 ∧
          Interleaving.ofTag c (domainEffects call.key trace) =
            call.task.effects ∧
          (trace.filterMap Event.completedCall?).count c = 1

/- What no work is left of has been done. -/
theorem atRest_of_stuck
    {trace : List (Event ε)} {s : State ε}
    (hReach : (lts ε config).Reachable trace s)
    (hStuck : (lts ε config).Stuck Event.IsWork s) :
    AtRest trace s where
  toIdle := idle_of_stuck hReach hStuck
  done := by
    intro c call hCall hKept
    have hIdle := idle_of_stuck hReach hStuck
    have hReturned : call.phase = .returned := by
      rcases hIdle.calls c call hCall with hPhase | hPhase
      · exact hPhase
      · exact absurd ((chronicle_of_reachable hReach).cancelled
          c call hCall hPhase) hKept
    have hReleased : s.Released c := by
      refine ⟨⟨call, hCall, ?_⟩, ?_⟩
      · simp [hReturned, CallPhase.OwnsJob]
      · intro w worker hWorker job hJob
        rw [(hIdle.workers w worker hWorker).1] at hJob
        cases hJob
    have hCompleted := completed_of_sent hReach hCall
      (by simp [hReturned, CallPhase.HasSent]) hReleased
    have hFinished : Event.finished call.key c ∈ trace := by
      rcases List.mem_iff_append.mp hCompleted with
        ⟨earlier, later, hTrace⟩
      rw [hTrace]
      exact List.mem_append_left _
        (finished_before_completed hReach hTrace)
    have hStarted : c ∈ trace.filterMap Event.startedCall? :=
      List.mem_filterMap.mpr
        ⟨_, started_of_finished hReach hFinished, rfl⟩
    refine ⟨hReturned, ?_, ?_, ?_⟩
    · exact List.count_eq_one_of_mem (started_once hReach)
        hStarted
    · rw [domainEffects_of_finished hReach hFinished]
      simp [State.work, hCall]
    · exact List.count_eq_one_of_mem (completed_once hReach)
        (mem_completedCalls_iff.mpr ⟨_, hCompleted⟩)

/-
  Left to itself the domain comes to rest, whatever it does
  first: its work ends after a bounded number of steps, it
  does not end before every task it was given has been run,
  and no timer is needed for it.
-/
theorem domain_comes_to_rest
    {trace : List (Event ε)} {s : State ε}
    (hReach : (lts ε config).Reachable trace s) :
    (∀ more s',
      (lts ε config).Continues Event.IsWork s more s' →
        more.length ≤ s.workLeft ∧
          ((lts ε config).Stuck Event.IsWork s' →
            AtRest (trace ++ more) s')) ∧
      ∃ more s',
        (lts ε config).Continues Event.IsWork s more s' ∧
          (lts ε config).Stuck Event.IsWork s' := by
  have hFree :
      ∀ e : Event ε, e.IsWork →
        (budget ε config).paid e = 0 :=
    fun e hWork => hWork.isOwn.brings_eq_zero
  constructor
  · intro more s' hMore
    have hBound :=
      (budget ε config).continues_le hFree hReach hMore
    exact ⟨Nat.le_trans (Nat.le_add_right _ _) hBound,
      fun hStuck =>
        atRest_of_stuck (hReach.continue hMore) hStuck⟩
  · exact (budget ε config).exists_stuck hFree hReach

/- The jobs of both keys get to their ends. -/
theorem domain_comes_to_rest_takeover :
    ∃ more s',
      (lts String smallConfig).Continues Event.IsWork
        takeoverState more s' ∧
      AtRest (takeoverTrace ++ more) s' := by
  have hRests := domain_comes_to_rest takeover_reachable
  rcases hRests.2 with ⟨more, s', hMore, hStuck⟩
  exact ⟨more, s', hMore, (hRests.1 more s' hMore).2 hStuck⟩

end Partitioner

end Qanat

------------------------------------------------------------
-- Nothing Left Over
------------------------------------------------------------

namespace Qanat

namespace Partitioner

open Transition
open Transition.Handover

variable {ε : Type}

/- No worker, no entry and no command is left. -/
structure GivenBack (s : State ε) : Prop where
  workers :
    ∀ worker ∈ s.workers, ¬ worker.Live ∧ worker.jobs = []
  entries : ∀ key, s.entries.lookup key = none
  commands : s.commands = []
  registry : s.handles = 0 → s.registryRunning = false

/- A domain whose idle timers have fired. -/
theorem givenBack_of_stuck
    {config : BoundedConfig}
    {trace : List (Event ε)} {s : State ε}
    (hReach : (lts ε config).Reachable trace s)
    (hStuck : (lts ε config).Stuck Event.IsOwn s) :
    GivenBack s := by
  have hInv := invariant_of_reachable hReach
  have hWorkStuck : (lts ε config).Stuck Event.IsWork s :=
    fun e s' hStep hWork => hStuck e s' hStep hWork.isOwn
  have hIdle := idle_of_stuck hReach hWorkStuck
  have hDead :
      ∀ (w : WorkerId) (worker : Worker ε),
        s.workers[w]? = some worker → ¬ worker.Live := by
    intro w worker hWorker hLive
    rcases (hIdle.workers w worker hWorker).2 with
      hPhase | hPhase
    · exact hStuck _ _
        (Step.timeout hWorker hPhase
          (Invariant.activity_of_stuck hWorkStuck hWorker))
        trivial
    · exact hLive hPhase
  refine ⟨?workers, ?entries, hIdle.commands,
    fun hHandles => (hIdle.closed hHandles).1⟩
  case workers =>
    intro worker hMem
    rcases List.mem_iff_getElem?.mp hMem with ⟨w, hWorker⟩
    exact ⟨hDead w worker hWorker,
      (hIdle.workers w worker hWorker).1⟩
  case entries =>
    intro key
    cases hEntry : s.entries.lookup key with
    | none => rfl
    | some entry =>
        cases entry with
        | active generation w =>
            -- whoever is in charge is still there
            rcases hInv.coherent.active_post key generation w
                (shape_eq_active_iff.mpr hEntry) with
              ⟨p, hPost, _, _, hCharge⟩
            rcases post_eq_some_iff.mp hPost with
              ⟨worker, hWorker, rfl⟩
            exact absurd (worker.post_live_iff.mp hCharge.live)
              (hDead w worker hWorker)
        | retiring generation waiters =>
            exact absurd hEntry
              (Invariant.not_retiring_of_stuck hReach
                hWorkStuck key generation waiters)

/- A domain without workers has nothing but its registry. -/
theorem Barren.givenBack_of_stuck
    {config : Config} {s : State ε}
    (hBarren : Barren s)
    (hOver : maxPermits < config.capacity)
    (hStuck : (lts ε config).Stuck Event.IsOwn s) :
    GivenBack s := by
  have hCommands := hBarren.commands_of_stuck hOver
    (fun _ => trivial) hStuck
  refine ⟨?workers, ?entries, hCommands, ?registry⟩
  case workers => simp [hBarren.workers]
  case entries => simp [hBarren.entries]
  case registry =>
    intro hHandles
    cases hRunning : s.registryRunning with
    | false => rfl
    | true =>
        have hNone : ¬ s.HasRegistrySender := by
          rintro (hSome | ⟨w, worker, hWorker, _⟩)
          · exact absurd hHandles (Nat.ne_of_gt hSome)
          · exact hBarren.no_worker hWorker
        exact (hStuck _ _
          (Step.stopRegistry hRunning hCommands hNone)
          trivial).elim

/-
  Once the idle timers have fired as well, every worker has
  ended and the registry has forgotten every key; without a
  handle the registry has ended too.
-/
theorem domain_gives_everything_back
    {config : Config}
    {trace : List (Event ε)} {s : State ε}
    (hReach : (lts ε config).Reachable trace s)
    (hStuck : (lts ε config).Stuck Event.IsOwn s) :
    (∀ worker ∈ s.workers,
      ¬ worker.Live ∧ worker.jobs = []) ∧
      (∀ key, s.entries.lookup key = none) ∧
      s.commands = [] ∧
      (s.handles = 0 → s.registryRunning = false) := by
  have hBack : GivenBack s := by
    by_cases hFits : config.capacity ≤ maxPermits
    · have hBounded :
          (lts ε (⟨config, hFits⟩ : BoundedConfig)).Reachable
            trace s := hReach
      exact givenBack_of_stuck hBounded hStuck
    · have hOver := Nat.not_le.mp hFits
      exact (barren_of_reachable hOver
        hReach).givenBack_of_stuck hOver hStuck
  exact ⟨hBack.workers, hBack.entries, hBack.commands,
    hBack.registry⟩

/- The workers of both keys end with their keys forgotten. -/
theorem domain_gives_everything_back_takeover :
    ∃ more s',
      (lts String smallConfig).Continues Event.IsOwn
        takeoverState more s' ∧
      (∀ worker ∈ s'.workers, ¬ worker.Live) ∧
      s'.entries.lookup "a" = none ∧
      s'.entries.lookup "b" = none := by
  rcases (budget String smallConfig).exists_stuck
      (P := Event.IsOwn) (fun _ hOwn => hOwn.brings_eq_zero)
      takeover_reachable with
    ⟨more, s', hMore, hStuck⟩
  have hBack := domain_gives_everything_back
    (takeover_reachable.continue hMore) hStuck
  exact ⟨more, s', hMore,
    fun worker hMem => (hBack.1 worker hMem).1,
    hBack.2.1 "a", hBack.2.1 "b"⟩

end Partitioner

end Qanat
