import Qanat.Library.Interleaving
import Qanat.Router.Partitioner.Order

/-
  The effects performed under a key are those of its jobs,
  one job after the other.

  Main declarations:
    * `Partitioner.domainEffects`
    * `Partitioner.domainEffects_of_finished`
    * `Partitioner.domainEffects_of_all_finished`
    * `Partitioner.bounded_or_barren`, `Partitioner.call_kept`
    * `Partitioner.completed_of_released`
-/

------------------------------------------------------------
-- The Effects of a Key
------------------------------------------------------------

namespace Qanat

namespace Partitioner

open Transition Interleaving

variable {ε : Type} {config : BoundedConfig}

/- The effects of the task of a call. -/
def State.work (s : State ε) (c : CallId) : List ε :=
  match s.calls[c]? with
  | some call => call.task.effects
  | none => []

/- The effects performed under a key, tagged with their calls. -/
def domainEffects (key : String) (trace : List (Event ε)) :
    List (CallId × ε) :=
  FifoServer.performed (domainTrace key trace)

/- The call and the effect of an event of the key. -/
def Event.performedUnder? (key : String) :
    Event ε → Option (CallId × ε)
| .performed k c effect =>
    if k = key then some (c, effect) else none
| _ => none

theorem domainEffects_eq
    (key : String) (trace : List (Event ε)) :
    domainEffects key trace =
      trace.filterMap (Event.performedUnder? key) := by
  unfold domainEffects FifoServer.performed domainTrace
  rw [List.filterMap_filterMap]
  apply List.filterMap_congr
  intro e _
  cases e with
  | queued k job =>
      by_cases hKey : k = key <;>
        simp [Event.ofKey, Event.performedUnder?,
          FifoServer.Event.performed?, hKey]
  | started k c =>
      by_cases hKey : k = key <;>
        simp [Event.ofKey, Event.performedUnder?,
          FifoServer.Event.performed?, hKey]
  | performed k c effect =>
      by_cases hKey : k = key <;>
        simp [Event.ofKey, Event.performedUnder?,
          FifoServer.Event.performed?, hKey]
  | finished k c =>
      by_cases hKey : k = key <;>
        simp [Event.ofKey, Event.performedUnder?,
          FifoServer.Event.performed?, hKey]
  | _ => rfl

theorem mem_domainEffects_iff
    {key : String} {trace : List (Event ε)} {c : CallId}
    {effect : ε} :
    (c, effect) ∈ domainEffects key trace ↔
      Event.performed key c effect ∈ trace := by
  rw [domainEffects_eq, List.mem_filterMap]
  constructor
  · rintro ⟨e, hMem, hLabel⟩
    cases e with
    | performed k d other =>
        by_cases hKey : k = key
        · simp only [Event.performedUnder?, hKey, if_true,
            Option.some.injEq, Prod.mk.injEq] at hLabel
          rcases hLabel with ⟨rfl, rfl⟩
          rwa [← hKey]
        · simp [Event.performedUnder?, hKey] at hLabel
    | _ => cases hLabel
  · intro hMem
    exact ⟨_, hMem, by simp [Event.performedUnder?]⟩

/- What a server was given is the work of a call. -/
theorem work_of_enqueued
    {trace : List (Event ε)} {s : State ε}
    (hChron : Chronicle trace s)
    {key : String} {c : CallId} {work : List ε}
    (hMem :
      (c, work) ∈
        FifoServer.enqueued (domainTrace key trace)) :
    s.work c = work := by
  rw [FifoServer.mem_enqueued_iff,
    enqueue_mem_domainTrace_iff] at hMem
  rcases hMem with ⟨job, hQueued, rfl, rfl⟩
  rcases hChron.queued_call key job hQueued with
    ⟨call, hCall, _, hTask, _⟩
  simp [State.work, hCall, hTask]

/- Served jobs have performed all of their effects. -/
theorem effectsOf_eq_tagged
    {trace : List (Event ε)} {s : State ε}
    (hChron : Chronicle trace s)
    {key : String} {done : List (CallId × List ε)}
    (hDone :
      ∀ job ∈ done,
        job ∈ FifoServer.enqueued (domainTrace key trace)) :
    FifoServer.effectsOf done =
      tagged s.work (done.map Prod.fst) := by
  induction done with
  | nil => rfl
  | cons job rest ih =>
      have hWork :=
        work_of_enqueued hChron (hDone job (by simp))
      have hRest :=
        ih (fun other hMem => hDone other (by simp [hMem]))
      unfold FifoServer.effectsOf tagged at hRest ⊢
      rw [List.flatMap_cons, List.map_cons,
        List.flatMap_cons, hRest, hWork]

/-
  At any time of a run, the effects of a key are those of the
  jobs its server has finished, followed by some of those of
  the job in service.
-/
theorem domainEffects_of_reachable
    {trace : List (Event ε)} {s : State ε}
    (hReach : (lts ε config).Reachable trace s)
    (key : String) :
    ∃ done waiting current past,
      Served trace s key done waiting current ∧
      domainEffects key trace =
        tagged s.work done ++
          tagged (fun _ => past) current.toList ∧
      ∀ c, current = some c → past <+: s.work c := by
  rcases domain_refines_fifoServer hReach key with
    ⟨t, hServer, hServes⟩
  have hChron := chronicle_of_reachable hReach
  rcases FifoServer.history_of_reachable hServer with
    ⟨done, current, hHistory⟩
  have hServed := served_of_history hServes hHistory
  have hDone :
      ∀ job ∈ done,
        job ∈ FifoServer.enqueued (domainTrace key trace) := by
    intro job hMem
    unfold domainTrace
    rw [hHistory.enqueued_eq]
    simp [hMem]
  have hEffects := hHistory.performed_eq
  rw [effectsOf_eq_tagged hChron hDone] at hEffects
  cases current with
  | none =>
      refine ⟨_, _, _, [], hServed, ?_, ?_⟩
      · unfold domainEffects domainTrace
        rw [hEffects, hHistory.serving_eq]
        simp [FifoServer.effectsOf, tagged]
      · intro c hCurrent
        rw [hHistory.serving_eq] at hCurrent
        cases hCurrent
  | some now =>
      rcases now with ⟨c, past, rest⟩
      refine ⟨_, _, _, past, hServed, ?_, ?_⟩
      · unfold domainEffects domainTrace
        rw [hEffects, hHistory.serving_eq]
        simp [FifoServer.effectsOf, tagged]
      · intro d hCurrent
        rw [hHistory.serving_eq] at hCurrent
        have hSame : c = d := by simpa using hCurrent
        subst hSame
        have hMem :
            (c, past ++ rest) ∈
              FifoServer.enqueued (domainTrace key trace) := by
          unfold domainTrace
          rw [hHistory.enqueued_eq]
          simp
        rw [work_of_enqueued hChron hMem]
        exact List.prefix_append past rest

/- An effect belongs to a call of its key and to its task. -/
theorem call_of_performed
    {trace : List (Event ε)} {s : State ε}
    (hReach : (lts ε config).Reachable trace s)
    {key : String} {c : CallId} {effect : ε}
    (hMem : (c, effect) ∈ domainEffects key trace) :
    c ∈ queuedCalls key trace ∧ effect ∈ s.work c := by
  rcases domainEffects_of_reachable hReach key with
    ⟨done, waiting, current, past, hServed, hEffects, hPast⟩
  rw [hEffects, List.mem_append, mem_tagged_iff,
    mem_tagged_iff] at hMem
  rw [hServed.queued]
  rcases hMem with ⟨hDone, hWork⟩ | ⟨hNow, hWork⟩
  · exact ⟨by simp [hDone], hWork⟩
  · have hCurrent : current = some c := by simpa using hNow
    exact ⟨by simp [hCurrent],
      (hPast c hCurrent).subset hWork⟩

/- A finished job has performed exactly its effects. -/
theorem domainEffects_of_finished
    {trace : List (Event ε)} {s : State ε}
    (hReach : (lts ε config).Reachable trace s)
    {key : String} {c : CallId}
    (hFinished : Event.finished key c ∈ trace) :
    ofTag c (domainEffects key trace) =
      s.work c := by
  rcases domainEffects_of_reachable hReach key with
    ⟨done, waiting, current, past, hServed, hEffects, _⟩
  have hDone := finish_mem_domainTrace_iff.mpr hFinished
  rw [← FifoServer.mem_finished_iff,
    hServed.finished] at hDone
  have hOnce :=
    (chronicle_of_reachable hReach).queued_once key
  rw [hServed.queued] at hOnce
  have hFront := (List.nodup_append.mp hOnce).1
  have hNotNow : c ∉ current.toList := fun hNow =>
    (List.nodup_append.mp hFront).2.2 c hDone c hNow rfl
  rw [hEffects, ofTag_append,
    ofTag_tagged (List.nodup_append.mp hFront).1 hDone,
    ofTag_tagged_of_notMem hNotNow, List.append_nil]

/-
  When all calls of a kind have finished, the effects of that
  kind are those of its jobs in the order they were queued.
-/
theorem domainEffects_of_all_finished
    {trace : List (Event ε)} {s : State ε}
    (hReach : (lts ε config).Reachable trace s)
    {key : String}
    {p : CallId → Bool}
    (hAll :
      ∀ c ∈ queuedCalls key trace, p c = true →
        Event.finished key c ∈ trace) :
    (domainEffects key trace).filter (fun e => p e.1) =
      tagged s.work ((queuedCalls key trace).filter p) := by
  rcases domainEffects_of_reachable hReach key with
    ⟨done, waiting, current, past, hServed, hEffects, _⟩
  have hOnce :=
    (chronicle_of_reachable hReach).queued_once key
  rw [hServed.queued] at hOnce
  have hOther :
      ∀ c ∈ current.toList ++ waiting, p c = false := by
    intro c hMem
    by_contra hKind
    have hQueued : c ∈ queuedCalls key trace := by
      rw [hServed.queued, List.append_assoc]
      exact List.mem_append_right _ hMem
    have hDone := finish_mem_domainTrace_iff.mpr
      (hAll c hQueued (by simpa using hKind))
    rw [← FifoServer.mem_finished_iff,
      hServed.finished] at hDone
    rw [List.append_assoc] at hOnce
    exact (List.nodup_append.mp hOnce).2.2 c hDone c hMem rfl
  have hNow : current.toList.filter p = [] :=
    List.filter_eq_nil_iff.mpr (fun c hMem => by
      simp [hOther c (List.mem_append_left _ hMem)])
  have hLater : waiting.filter p = [] :=
    List.filter_eq_nil_iff.mpr (fun c hMem => by
      simp [hOther c (List.mem_append_right _ hMem)])
  rw [hEffects, List.filter_append, filter_tagged,
    filter_tagged, hNow, hServed.queued, List.filter_append,
    List.filter_append, hNow, hLater]
  simp [tagged]

/- The completion of a job that was sent fires. -/
theorem completed_of_sent
    {trace : List (Event ε)} {s : State ε}
    (hReach : (lts ε config).Reachable trace s)
    {c : CallId} {call : Call ε}
    (hCall : s.calls[c]? = some call)
    (hSent : call.phase.HasSent)
    (hReleased : s.Released c) :
    Event.completed call.key c ∈ trace := by
  have hChron := chronicle_of_reachable hReach
  rcases served_of_reachable hReach call.key with
    ⟨done, waiting, current, hServed⟩
  have hQueued : c ∈ queuedCalls call.key trace :=
    mem_queuedCalls_iff.mpr
      ⟨_, hChron.sent_queued c call hCall hSent, rfl⟩
  rcases exists_at_of_served hServed hQueued with
    ⟨place, hAt, hSubmitted⟩
  cases place with
  | submitter => exact absurd rfl hSubmitted
  | queue w =>
      rcases hAt with ⟨worker, job, hWorker, hJob, hSame⟩
      exact absurd hSame (hReleased.2 w worker hWorker job
        (Worker.mem_jobs_of_mem_queue hJob))
  | running w =>
      rcases hAt with ⟨worker, job, hWorker, hActive, hSame⟩
      exact absurd hSame (hReleased.2 w worker hWorker job
        (Worker.mem_jobs_of_executing hActive))
  | finished =>
      rcases hAt with ⟨key, hFinished⟩
      have hKey : call.key = key := by
        rcases call_of_started hReach
            (started_of_finished hReach hFinished) with
          ⟨_, call', hCall', hKey, _⟩
        rw [hCall] at hCall'
        cases hCall'
        exact hKey
      subst hKey
      rcases hChron.finished_completed call.key c hFinished
        with hDone | ⟨w, worker, job, hWorker, _, hActive, hSame⟩
      · exact hDone
      · refine absurd hSame
          (hReleased.2 w worker hWorker job ?_)
        simp [Worker.jobs, hActive, Activity.job?]

end Partitioner

end Qanat

------------------------------------------------------------
-- Whatever the Options
------------------------------------------------------------

namespace Qanat

namespace Partitioner

open Transition

variable {ε : Type} {config : Config}
variable {trace : List (Event ε)} {s s' : State ε}

/- A run under options that do not ask for too much. -/
theorem bounded_or_barren
    (hReach : (lts ε config).Reachable trace s) :
    (∃ bounded : BoundedConfig, config = bounded ∧
        (lts ε bounded).Reachable trace s) ∨
      maxPermits < config.capacity ∧ Barren s := by
  by_cases hFits : config.capacity ≤ maxPermits
  · exact Or.inl ⟨⟨config, hFits⟩, rfl, hReach⟩
  · have hOver := Nat.not_le.mp hFits
    exact Or.inr ⟨hOver, barren_of_reachable hOver hReach⟩

/- Calls keep their tasks, and those that return do for good. -/
theorem call_kept
    (hReach : (lts ε config).Reachable trace s)
    {e : Event ε}
    (hStep : Step config s e s')
    {c : CallId} {call : Call ε}
    (hCall : s.calls[c]? = some call) :
    ∃ phase,
      s'.calls[c]? = some { call with phase := phase } ∧
        (call.phase = .returned → phase = .returned) ∧
        (phase = .cancelled →
          call.phase = .cancelled ∨ e = .cancelled c) := by
  rcases bounded_or_barren hReach with
    ⟨bounded, rfl, hBounded⟩ | ⟨hOver, hBarren⟩
  · rcases (invariant_of_reachable hBounded).call_moves hStep
        hCall with ⟨phase, hCall', hMove⟩
    exact ⟨phase, hCall', hMove.returned,
      hMove.cancelled_inv⟩
  · rcases hBarren.call_kept hOver hStep hCall with
      ⟨phase, hCall', hCancelled⟩
    refine ⟨phase, hCall', ?_, hCancelled⟩
    intro hReturned
    have hNone := hBarren.calls c call hCall
    rw [hReturned] at hNone
    exact hNone.elim

/- A call is there with its task, or has just been made. -/
theorem call_before
    (hReach : (lts ε config).Reachable trace s)
    {e : Event ε}
    (hStep : Step config s e s')
    {c : CallId} {call' : Call ε}
    (hCall' : s'.calls[c]? = some call') :
    (∃ call, s.calls[c]? = some call ∧
        call'.task = call.task) ∨
      e = .called call'.key c call'.task := by
  cases hCall : s.calls[c]? with
  | some call =>
      rcases call_kept hReach hStep hCall with
        ⟨phase, hNow, _⟩
      rw [hNow] at hCall'
      cases hCall'
      exact Or.inl ⟨call, rfl, rfl⟩
  | none =>
      right
      rcases bounded_or_barren hReach with
        ⟨bounded, rfl, hBounded⟩ | ⟨hOver, hBarren⟩
      · exact ((invariant_of_reachable hBounded).new_call
          hStep hCall' hCall).1
      · refine (hStep.new_call ?_ hCall' hCall).1
        rintro command verdict rfl
        exact (hBarren.not_handled hOver hStep).elim

/- No call is queued twice, and each is one that was made. -/
theorem queuedCalls_of_reachable
    (hReach : (lts ε config).Reachable trace s)
    (key : String) :
    (queuedCalls key trace).Nodup ∧
      ∀ c ∈ queuedCalls key trace,
        ∃ call, s.calls[c]? = some call ∧
          call.key = key := by
  rcases bounded_or_barren hReach with
    ⟨bounded, rfl, hBounded⟩ | ⟨hOver, _⟩
  · have hChron := chronicle_of_reachable hBounded
    refine ⟨hChron.queued_once key, ?_⟩
    intro c hMem
    rcases mem_queuedCalls_iff.mp hMem with
      ⟨job, hQueued, rfl⟩
    rcases hChron.queued_call key job hQueued with
      ⟨call, hCall, hKey, _⟩
    exact ⟨call, hCall, hKey⟩
  · have hNone : ∀ c, c ∉ queuedCalls key trace := by
      intro c hMem
      rcases mem_queuedCalls_iff.mp hMem with
        ⟨job, hQueued, _⟩
      exact not_isJob_of_reachable hOver hReach hQueued
        trivial
    exact ⟨by rw [List.eq_nil_iff_forall_not_mem.mpr hNone];
              exact List.nodup_nil,
      fun c hMem => absurd hMem (hNone c)⟩

/- An effect is one of the task of a call of its key. -/
theorem call_of_effect
    (hReach : (lts ε config).Reachable trace s)
    {key : String} {c : CallId} {effect : ε}
    (hPerformed : Event.performed key c effect ∈ trace) :
    ∃ call, s.calls[c]? = some call ∧ call.key = key ∧
      effect ∈ call.task.effects := by
  rcases bounded_or_barren hReach with
    ⟨bounded, rfl, hBounded⟩ | ⟨hOver, _⟩
  · rcases call_of_performed hBounded
        (mem_domainEffects_iff.mpr hPerformed) with
      ⟨hQueued, hWork⟩
    rcases (queuedCalls_of_reachable hReach key).2 c hQueued
      with ⟨call, hCall, hKey⟩
    refine ⟨call, hCall, hKey, ?_⟩
    simpa [State.work, hCall] using hWork
  · exact (not_isJob_of_reachable hOver hReach hPerformed
      trivial).elim

/- A completion whose sender is gone has fired. -/
theorem completed_of_released
    (hReach : (lts ε config).Reachable trace s)
    {c : CallId} {call : Call ε}
    (hCall : s.calls[c]? = some call)
    (hReturned : call.phase = .returned)
    (hReleased : s.Released c) :
    Event.completed call.key c ∈ trace := by
  rcases bounded_or_barren hReach with
    ⟨bounded, rfl, hBounded⟩ | ⟨_, hBarren⟩
  · refine completed_of_sent hBounded hCall ?_ hReleased
    rw [hReturned]
    trivial
  · have hNone := hBarren.calls c call hCall
    rw [hReturned] at hNone
    exact hNone.elim

/- A job that has completed has performed all of its effects. -/
theorem domainEffects_of_completed
    (hReach : (lts ε config).Reachable trace s)
    {key : String} {c : CallId}
    (hCompleted : Event.completed key c ∈ trace) :
    Interleaving.ofTag c (domainEffects key trace) =
      s.work c := by
  rcases bounded_or_barren hReach with
    ⟨bounded, rfl, hBounded⟩ | ⟨hOver, _⟩
  · rcases List.append_of_mem hCompleted with
      ⟨earlier, later, hTrace⟩
    refine domainEffects_of_finished hBounded ?_
    rw [hTrace]
    exact List.mem_append_left _
      (finished_before_completed hBounded hTrace)
  · exact (not_isJob_of_reachable hOver hReach hCompleted
      trivial).elim

end Partitioner

end Qanat
