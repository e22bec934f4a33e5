import Qanat.Router.Partitioner.Preservation

/-
  What one step can do to one call.  Facts about the order of
  events are derived from this and not from the steps.

  Main declarations:
    * `Partitioner.CallMove`
    * `Partitioner.Invariant.call_moves`
    * `Partitioner.Step.new_call`
-/

------------------------------------------------------------
-- Moves of a Call
------------------------------------------------------------

namespace Qanat

namespace Partitioner

variable {ε : Type} {config : BoundedConfig}

/- The call whose own step an event is, once it has begun. -/
def Event.caller? : Event ε → Option CallId
| .acquiring c | .registryGone c | .requestDropped c => some c
| .queued _ job => some job.completion
| .sendFailed c | .returned _ c | .cancelled c => some c
| _ => none

/-
  `CallMove c call e phase`: the event `e` takes `call`, named
  `c`, to `phase`.
-/
inductive CallMove (c : CallId) (call : Call ε) :
    Event ε → CallPhase → Prop where
| stay {e : Event ε} :
    e.caller? ≠ some c → CallMove c call e call.phase
| acquire :
    call.phase = .acquiring →
      CallMove c call (.acquiring c) .awaiting
| granted
    {command : Command} {verdict : Verdict} {w : WorkerId} :
    call.phase = .awaiting →
      CallMove c call (.handled command verdict) (.holding w)
| send {w : WorkerId} :
    call.phase = .holding w →
      CallMove c call (.queued call.key ⟨call.task, c⟩)
        (.sent w)
| «return» {w : WorkerId} :
    call.phase = .sent w →
      CallMove c call (.returned call.key c) .returned
| cancel :
    call.phase.OwnsJob →
      CallMove c call (.cancelled c) .cancelled

/- A step of call `d` seen from call `c`. -/
theorem call_moves_setPhase
    {s : State ε} {c d : CallId} {call other : Call ε}
    {phase : CallPhase} {e : Event ε}
    (hCall : s.calls[c]? = some call)
    (hOther : s.calls[d]? = some other)
    (hCaller : e.caller? = some d)
    (hMove : CallMove d other e phase) :
    ∃ phase',
      (s.setCall d { other with phase := phase }).calls[c]? =
          some { call with phase := phase' } ∧
        CallMove c call e phase' := by
  rw [State.setCall_calls,
    List.getElem?_set_of_lt' _ _
      (List.getElem?_eq_some_iff.mp hOther).1]
  by_cases hEq : d = c
  · subst hEq
    rw [hOther] at hCall
    cases hCall
    exact ⟨phase, if_pos rfl, hMove⟩
  · refine ⟨call.phase, ?_, CallMove.stay ?_⟩
    · rw [if_neg hEq, hCall]
    · rw [hCaller]
      intro hSame
      exact hEq (Option.some.inj hSame)

/- An event that is no step of a call leaves every call. -/
theorem call_moves_of_calls_eq
    {s s' : State ε} {c : CallId} {call : Call ε}
    {e : Event ε}
    (hCall : s.calls[c]? = some call)
    (hCalls : s'.calls = s.calls)
    (hCaller : e.caller? = none) :
    ∃ phase,
      s'.calls[c]? = some { call with phase := phase } ∧
        CallMove c call e phase := by
  refine ⟨call.phase, ?_, CallMove.stay ?_⟩
  · rw [hCalls, hCall]
  · rw [hCaller]
    simp

/- A grant to one of several waiters, seen from a call. -/
theorem call_moves_grantAll
    {s : State ε} {waiters : List CallId} {w : WorkerId}
    {c : CallId} {call : Call ε}
    (hCall : s.calls[c]? = some call)
    (command : Command)
    (verdict : Verdict) :
    ∃ phase,
      (s.grantAll waiters w).calls[c]? =
          some { call with phase := phase } ∧
        CallMove c call (.handled command verdict)
          phase := by
  unfold State.grantAll
  rw [State.foldl_grant_calls_getElem?, hCall]
  by_cases hAwaits :
      c ∈ waiters ∧ call.phase = .awaiting
  · refine ⟨.holding w, ?_, CallMove.granted hAwaits.2⟩
    simp [hAwaits.1, State.Call.granted, hAwaits.2]
  · refine ⟨call.phase, ?_, CallMove.stay ?_⟩
    · by_cases hMem : c ∈ waiters
      · have hPhase : call.phase ≠ .awaiting :=
          fun hPhase => hAwaits ⟨hMem, hPhase⟩
        simp [hMem, State.Call.granted, hPhase]
      · simp [hMem]
    · simp [Event.caller?]

/- What a turn of the registry does to a call. -/
theorem Turn.call_moves
    {s : State ε} {command : Command}
    {result : State ε × Verdict}
    (hTurn : Turn s command result)
    {c : CallId} {call : Call ε}
    (hCall : s.calls[c]? = some call) :
    ∃ phase,
      result.1.calls[c]? =
          some { call with phase := phase } ∧
        CallMove c call (.handled command result.2)
          phase := by
  cases hTurn with
  | @granted key reply generation sender hEntry =>
      change ∃ phase,
        (s.grantAll [reply] sender).calls[c]? = _ ∧ _
      exact call_moves_grantAll hCall _ _
  | parked hEntry =>
      exact call_moves_of_calls_eq hCall rfl rfl
  | @spawned key reply hEntry =>
      change ∃ phase,
        ((s.spawnPartitionWorker key).grantAll [reply]
          s.workers.length).calls[c]? = _ ∧ _
      exact call_moves_grantAll
        (s := s.spawnPartitionWorker key) hCall _ _
  | accepted hWorker hPhase hEntry =>
      exact call_moves_of_calls_eq hCall rfl rfl
  | vacated hEntry hClosed =>
      exact call_moves_of_calls_eq hCall rfl rfl
  | @replaced key generation waiters hEntry =>
      exact call_moves_grantAll
        (s := (s.removeEntry key).spawnPartitionWorker key)
        hCall _ _

/- Every step moves every call as `CallMove` says. -/
theorem Invariant.call_moves
    {s s' : State ε} {e : Event ε}
    (hInv : Invariant s)
    (hStep : Step config s e s')
    {c : CallId} {call : Call ε}
    (hCall : s.calls[c]? = some call) :
    ∃ phase,
      s'.calls[c]? = some { call with phase := phase } ∧
        CallMove c call e phase := by
  cases hStep with
  | @call key task hHandles =>
      refine ⟨call.phase, ?_, CallMove.stay (by
        simp [Event.caller?])⟩
      exact Lists.getElem?_append_singleton_eq_some.mpr
        (Or.inl hCall)
  | acquire hOther hPhase hRunning =>
      exact call_moves_setPhase hCall hOther rfl
        (CallMove.acquire hPhase)
  | registryGone hOther hPhase hStopped =>
      have hRunning :=
        hInv.registryRunning_of_active hOther
          (by simp [hPhase, CallPhase.IsActive])
      rw [hStopped] at hRunning
      cases hRunning
  | @requestDropped d other hOther hPhase =>
      exact absurd hPhase (hInv.no_panic d other hOther).1
  | send hOther hPhase hWorker hLive hRoom =>
      exact call_moves_setPhase hCall hOther rfl
        (CallMove.send hPhase)
  | sendFailed hOther hPhase hGone =>
      rcases hInv.live_of_holding hOther hPhase with
        ⟨worker, hWorker, hLive⟩
      exact absurd hLive (hGone worker hWorker)
  | «return» hOther hPhase =>
      exact call_moves_setPhase hCall hOther rfl
        (CallMove.return hPhase)
  | cancel hOther hOwns =>
      exact call_moves_setPhase hCall hOther rfl
        (CallMove.cancel hOwns)
  | handle hRunning hCommands =>
      exact (hInv.handle hRunning hCommands).call_moves hCall
  | panicRegistry hRunning hCommands hSpawns hOver =>
      exact absurd config.capacity_le (Nat.not_le.mpr hOver)
  | stopRegistry hRunning hCommands hNone =>
      rw [hInv.stopRegistry_eq hNone]
      exact call_moves_of_calls_eq hCall rfl rfl
  | @retire w worker hWorker hPhase =>
      apply call_moves_of_calls_eq hCall _ rfl
      by_cases hRunning : s.registryRunning = true <;>
        simp [hRunning]
  | _ => exact call_moves_of_calls_eq hCall rfl rfl

/- A call appears in the step that makes it, with its task. -/
theorem Step.new_call
    {config : Config} {s s' : State ε} {e : Event ε}
    (hStep : Step config s e s')
    (hTurn :
      ∀ command verdict, e = .handled command verdict →
        s'.calls.length = s.calls.length)
    {c : CallId} {call : Call ε}
    (hNew : s'.calls[c]? = some call)
    (hOld : s.calls[c]? = none) :
    e = .called call.key c call.task ∧
      call.phase = .acquiring := by
  have hLength : s.calls.length ≤ c :=
    List.getElem?_eq_none_iff.mp hOld
  have hBound : c < s'.calls.length :=
    (List.getElem?_eq_some_iff.mp hNew).1
  have hSame :
      s'.calls.length = s.calls.length → False := by
    intro hEq
    rw [hEq] at hBound
    exact Nat.not_lt.mpr hLength hBound
  cases hStep with
  | @call key task hHandles =>
      rcases Lists.getElem?_append_singleton_eq_some.mp hNew with
        hBefore | ⟨rfl, rfl⟩
      · rw [hOld] at hBefore
        cases hBefore
      · exact ⟨rfl, rfl⟩
  | handle hRunning hCommands =>
      exact (hSame (hTurn _ _ rfl)).elim
  | panicRegistry | stopRegistry =>
      exact (hSame (by simp [State.stopRegistry])).elim
  | @retire w worker hWorker hPhase =>
      refine (hSame ?_).elim
      by_cases hRunning : s.registryRunning = true <;>
        simp [hRunning]
  | _ => exact (hSame (by simp)).elim

theorem Invariant.new_call
    {s s' : State ε} {e : Event ε}
    (hInv : Invariant s)
    (hStep : Step config s e s')
    {c : CallId} {call : Call ε}
    (hNew : s'.calls[c]? = some call)
    (hOld : s.calls[c]? = none) :
    e = .called call.key c call.task ∧
      call.phase = .acquiring := by
  refine hStep.new_call ?_ hNew hOld
  rintro command verdict rfl
  cases hStep with
  | handle hRunning hCommands =>
      exact (hInv.handle hRunning hCommands).calls_length

end Partitioner

end Qanat
