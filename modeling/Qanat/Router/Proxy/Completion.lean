import Qanat.Library.Budgets
import Qanat.Router.Proxy.Pending

/-
  Calls of a broker proxy return.

  The callers and the reply task come to rest after a bounded
  amount of work, whatever the order and however full the
  command channel is.  Without timers only calls are left
  then to which no reply has arrived.

  Main declarations:
    * `Event.IsWork`, `Event.IsWorkOrTimer`
    * `budget`
    * `State.Unanswered`
    * `every_call_returns`
-/

------------------------------------------------------------
-- The Budget of the Proxy
------------------------------------------------------------

namespace Qanat

namespace Router

namespace Proxy

open Transition
open Bus (RawMessage)

variable {config : Config}

/-
  What the callers and the reply task do without a timer; the
  bus answers each dispatch, in one way or the other.
-/
def Event.IsWork : Event → Prop
| .called _ _ => False
| .arrived _ _ => False
| .timedOut _ _ => False
| .dropped _ => False
| .stopped => False
| _ => True

def Event.IsWorkOrTimer : Event → Prop
| .timedOut _ _ => True
| e => e.IsWork

theorem Event.IsWork.orTimer
    {e : Event} (hWork : e.IsWork) :
    e.IsWorkOrTimer := by
  cases e <;> first | exact hWork | trivial

/- A call that gives up may leave a cancellation behind. -/
def CallPhase.cost : CallPhase → Nat
| .starting => 7
| .queued => 4
| .registered => 4
| .dispatching => 3
| .waiting => 2
| .returned _ => 0

/- Its send may still begin to wait. -/
def State.waitCost (s : State) (c : CallId) : Nat :=
  if c ∈ s.blocked then 0 else 1

def State.callCost (s : State) (c : CallId) : Nat :=
  (s.calls c).elim 0 (fun call => call.phase.cost) +
    s.waitCost c

def State.callsLeft (s : State) : Nat :=
  ((List.range s.nextCall).map s.callCost).sum

/- Commands and messages are taken one by one. -/
def State.workLeft (s : State) : Nat :=
  s.callsLeft + s.queue.length +
    (s.arrived.length - s.read)

/- Calls and messages pay for what they cause. -/
def Event.paid : Event → Nat
| .called _ _ => 9
| .arrived _ _ => 2
| .stopped => 1
| _ => 0

theorem Event.IsWorkOrTimer.paid_eq_zero
    {e : Event} (hWork : e.IsWorkOrTimer) :
    e.paid = 0 := by
  cases e <;> first | rfl | exact hWork.elim

/- A step that concerns one call leaves the cost of others. -/
theorem callsLeft_update
    (s s' : State) {c : CallId}
    (hNext : s'.nextCall = s.nextCall)
    (hOld : c < s.nextCall)
    (hCalls : ∀ c' ≠ c, s'.calls c' = s.calls c')
    (hBlocked :
      ∀ c' ≠ c, (c' ∈ s'.blocked ↔ c' ∈ s.blocked)) :
    s'.callsLeft + s.callCost c =
      s.callsLeft + s'.callCost c := by
  unfold State.callsLeft
  rw [hNext]
  apply (Lists.sum_map_update (f := s.callCost)
    (g := s'.callCost) (List.nodup_range (n := s.nextCall))
    (a := c) (fun c' hNe => by
      unfold State.callCost State.waitCost
      rw [hCalls c' hNe, if_congr (hBlocked c' hNe) rfl rfl])).1
  exact List.mem_range.mpr hOld

theorem callsLeft_setCall
    {s : State} {c : CallId} {call : Call}
    (hCall : s.calls c = some call)
    (hOld : c < s.nextCall) (moved : Call) :
    (s.setCall c moved).callsLeft + call.phase.cost =
      s.callsLeft + moved.phase.cost := by
  have hSum := callsLeft_update s (s.setCall c moved) rfl
    hOld (fun _ hNe => setCall_of_ne _ _ hNe)
    (fun _ _ => Iff.rfl)
  have hWait : (s.setCall c moved).waitCost c =
      s.waitCost c := rfl
  simp only [State.callCost, hCall, setCall_self, hWait,
    Option.elim_some] at hSum
  omega

/- A send that is over may leave a permit to another. -/
theorem callsLeft_unblock
    {s : State} {c : CallId} {call : Call}
    (hCall : s.calls c = some call)
    (hOld : c < s.nextCall) (moved : Call) :
    (({ s with blocked := s.unblock c } :
        State).setCall c moved).callsLeft + call.phase.cost ≤
      s.callsLeft + moved.phase.cost + 1 := by
  have hSum := callsLeft_update s
    (({ s with blocked := s.unblock c } : State).setCall c
      moved) rfl hOld
    (fun _ hNe => setCall_of_ne _ _ hNe)
    (fun c' hNe => by
      simp [State.setCall, State.unblock, hNe])
  have hWait : State.waitCost (({ s with
      blocked := s.unblock c } : State).setCall c moved) c ≤
        1 := by
    unfold State.waitCost
    split <;> omega
  simp only [State.callCost, hCall, setCall_self,
    Option.elim_some] at hSum
  omega

/- A send begins to wait once. -/
theorem callsLeft_block
    {s : State} {c : CallId}
    (hOld : c < s.nextCall) (hNot : c ∉ s.blocked) :
    ({ s with blocked := s.blocked ++ [c] } :
        State).callsLeft + 1 =
      s.callsLeft := by
  have hSum := callsLeft_update s
    { s with blocked := s.blocked ++ [c] } rfl hOld
    (fun _ _ => rfl) (fun c' hNe => by simp [hNe])
  simp only [State.callCost, State.waitCost, if_neg hNot,
    List.mem_append, List.mem_singleton, or_true,
    if_true] at hSum
  omega

/- A new call starts with what it has to do. -/
theorem callsLeft_call
    (s : State) (call : Call) :
    (({ s with nextCall := s.nextCall + 1 } :
        State).setCall s.nextCall call).callsLeft ≤
      s.callsLeft + call.phase.cost + 1 := by
  unfold State.callsLeft
  change ((List.range (s.nextCall + 1)).map _).sum ≤ _
  rw [List.range_succ, List.map_append, List.sum_append,
    List.map_singleton, List.sum_singleton, Nat.add_assoc]
  apply Nat.add_le_add
  · apply Nat.le_of_eq
    congr 1
    apply List.map_congr_left
    intro c hMem
    unfold State.callCost
    rw [setCall_of_ne _ _
      (Nat.ne_of_lt (List.mem_range.mp hMem))]
    rfl
  · unfold State.callCost State.waitCost
    rw [setCall_self]
    apply Nat.add_le_add_left
    split <;> omega

/- Confirmations and replies give no call more to do. -/
theorem callsLeft_confirm
    {trace : List Event} {s : State}
    (hReach : (lts config).Reachable trace s) (c : CallId) :
    ({ s with calls := s.confirm c } : State).callsLeft ≤
      s.callsLeft := by
  unfold State.confirm
  cases hCall : s.calls c with
  | none => exact Nat.le_refl _
  | some call =>
      by_cases hQueued : call.phase = .queued
      · have hSum := callsLeft_setCall hCall
          (call_lt hReach hCall)
          { call with phase := .registered }
        rw [hQueued] at hSum
        simp only [if_pos hQueued]
        exact Nat.le_of_eq (Nat.add_right_cancel hSum)
      · simp only [if_neg hQueued]
        exact Nat.le_refl _

theorem callsLeft_hand
    {trace : List Event} {s : State}
    (hReach : (lts config).Reachable trace s) (c : CallId)
    (position : Nat) (message : RawMessage) :
    ({ s with calls := s.hand c position message } :
        State).callsLeft ≤
      s.callsLeft := by
  unfold State.hand
  cases hCall : s.calls c with
  | none => exact Nat.le_refl _
  | some call =>
      by_cases hClosed : call.phase.Closed
      · simp only [if_pos hClosed]
        exact Nat.le_refl _
      · have hSum := callsLeft_setCall hCall
          (call_lt hReach hCall)
          { call with slot := some (position, message) }
        simp only [if_neg hClosed]
        exact Nat.le_of_eq (Nat.add_right_cancel hSum)

/- A cancellation is one command at most. -/
theorem length_tryCancel
    (s : State) (correlationId : String) :
    (s.tryCancel correlationId).toList.length ≤ 1 := by
  unfold State.tryCancel
  split
  · exact Nat.le_refl 1
  · exact Nat.zero_le 1

/- A call goes on, and may send a command on its way. -/
theorem spends_sending
    {s : State} {c : CallId} {call moved : Call}
    {commands : List ProxyCommand}
    (hCall : s.calls c = some call)
    (hOld : c < s.nextCall)
    (hLess :
      moved.phase.cost + commands.length + 1 ≤
        call.phase.cost)
    (paid : Nat) :
    (({ s with queue := s.queue ++ commands } :
        State).setCall c moved).workLeft + 1 ≤
      s.workLeft + paid := by
  have hSum := callsLeft_setCall hCall hOld moved
  have hLength := @List.length_append _ s.queue
    commands
  change (s.setCall c moved).callsLeft +
      (s.queue ++ commands).length +
      (s.arrived.length - s.read) + 1 ≤
    s.callsLeft + s.queue.length +
      (s.arrived.length - s.read) + paid
  omega

/- The send of a call is over, with its command or without. -/
theorem spends_unblock
    {s : State} {c : CallId} {call moved : Call}
    {queue : List ProxyCommand}
    (hCall : s.calls c = some call)
    (hOld : c < s.nextCall)
    (hLess :
      moved.phase.cost + queue.length + 2 ≤
        call.phase.cost + s.queue.length)
    (paid : Nat) :
    (({ s with queue := queue, blocked := s.unblock c } :
        State).setCall c moved).workLeft + 1 ≤
      s.workLeft + paid := by
  have hSum := callsLeft_unblock hCall hOld moved
  change (({ s with blocked := s.unblock c } :
        State).setCall c moved).callsLeft +
      queue.length + (s.arrived.length - s.read) + 1 ≤
    s.callsLeft + s.queue.length +
      (s.arrived.length - s.read) + paid
  omega

theorem spends_setCall
    {s : State} {c : CallId} {call moved : Call}
    (hCall : s.calls c = some call)
    (hOld : c < s.nextCall)
    (hLess : moved.phase.cost + 1 ≤ call.phase.cost)
    (paid : Nat) :
    (s.setCall c moved).workLeft + 1 ≤ s.workLeft + paid := by
  have hSum := callsLeft_setCall hCall hOld moved
  change (s.setCall c moved).callsLeft + s.queue.length +
      (s.arrived.length - s.read) + 1 ≤
    s.callsLeft + s.queue.length +
      (s.arrived.length - s.read) + paid
  omega

theorem cost_of_open
    {phase : CallPhase} (hOpen : ¬ phase.Closed) :
    2 ≤ phase.cost := by
  cases phase with
  | returned => exact absurd trivial hOpen
  | _ => simp [CallPhase.cost]

theorem firstPhase_cost (request : Request) :
    request.firstPhase.cost ≤ 7 := by
  unfold Request.firstPhase
  cases request.payload <;> simp [CallPhase.cost]

theorem Step.spends
    {trace : List Event} {s s' : State} {e : Event}
    (hReach : (lts config).Reachable trace s)
    (hStep : Step config s e s') :
    s'.workLeft + 1 ≤ s.workLeft + e.paid := by
  cases hStep with
  | call request _ =>
      have hSum := callsLeft_call s
        { request := request
          phase := request.firstPhase
          dispatched := false
          slot := none }
      have hCost := firstPhase_cost request
      unfold State.workLeft Event.paid
      simp only [State.setCall] at hSum ⊢
      omega
  | block hCall _ _ hNot =>
      have hSum := callsLeft_block (call_lt hReach hCall) hNot
      unfold State.workLeft Event.paid
      simp only at hSum ⊢
      omega
  | register hCall hPhase =>
      exact spends_unblock hCall (call_lt hReach hCall)
        (by
          simp only [hPhase, CallPhase.cost,
            List.length_append, List.length_singleton]
          omega) _
  | refuse hCall hPhase =>
      exact spends_unblock hCall (call_lt hReach hCall)
        (by simp only [hPhase, CallPhase.cost]; omega) _
  | lose hCall hPhase =>
      exact spends_setCall hCall (call_lt hReach hCall)
        (by simp [hPhase, CallPhase.cost]) _
  | dispatch hCall hPhase =>
      exact spends_setCall hCall (call_lt hReach hCall)
        (by simp [hPhase, CallPhase.cost]) _
  | finishDispatch hCall hPhase =>
      exact spends_setCall hCall (call_lt hReach hCall)
        (by simp [hPhase, CallPhase.cost]) _
  | @failDispatch c call error hCall hPhase =>
      have hCancel :=
        length_tryCancel s call.request.correlationId
      exact spends_sending hCall (call_lt hReach hCall)
        (by simp only [hPhase, CallPhase.cost]; omega) _
  | receive hCall hPhase =>
      exact spends_setCall hCall (call_lt hReach hCall)
        (by simp [hPhase, CallPhase.cost]) _
  | @timeOut c call hCall hPhase =>
      have hCancel :=
        length_tryCancel s call.request.correlationId
      exact spends_sending hCall (call_lt hReach hCall)
        (by simp only [hPhase, CallPhase.cost]; omega) _
  | abandonWait hCall hPhase =>
      exact spends_setCall hCall (call_lt hReach hCall)
        (by simp [hPhase, CallPhase.cost]) _
  | drop hCall hOpen =>
      have hCost := cost_of_open hOpen
      exact spends_unblock hCall (call_lt hReach hCall)
        (by simp only [CallPhase.cost] at hCost ⊢; omega) _
  | @takeRegister correlationId c rest _ hQueue =>
      have hCalls := callsLeft_confirm hReach c
      have hLength := congrArg List.length hQueue
      rw [List.length_cons] at hLength
      change State.callsLeft { s with calls := s.confirm c } +
          rest.length + (s.arrived.length - s.read) + 1 ≤
        s.callsLeft + s.queue.length +
          (s.arrived.length - s.read) + 0
      omega
  | @takeCancel correlationId rest _ hQueue =>
      have hLength := congrArg List.length hQueue
      rw [List.length_cons] at hLength
      change s.callsLeft + rest.length +
          (s.arrived.length - s.read) + 1 ≤
        s.callsLeft + s.queue.length +
          (s.arrived.length - s.read) + 0
      omega
  | @takeReply message correlationId c _ hArrived =>
      have hCalls := callsLeft_hand hReach c s.read message
      have hRead := (List.getElem?_eq_some_iff.mp hArrived).1
      change State.callsLeft
            { s with calls := s.hand c s.read message } +
          s.queue.length +
          (s.arrived.length - (s.read + 1)) + 1 ≤
        s.callsLeft + s.queue.length +
          (s.arrived.length - s.read) + 0
      omega
  | discard _ hArrived =>
      have hRead := (List.getElem?_eq_some_iff.mp hArrived).1
      change s.callsLeft + s.queue.length +
          (s.arrived.length - (s.read + 1)) + 1 ≤
        s.callsLeft + s.queue.length +
          (s.arrived.length - s.read) + 0
      omega
  | stop => exact Nat.le_refl _
  | arrive message =>
      have hLength := @List.length_append _ s.arrived
        [message]
      rw [List.length_singleton] at hLength
      change s.callsLeft + s.queue.length +
          ((s.arrived ++ [message]).length - s.read) + 1 ≤
        s.callsLeft + s.queue.length +
          (s.arrived.length - s.read) + 2
      omega

/- Nothing is left to do at the beginning. -/
theorem workLeft_start
    (s : State) (hInitial : s = State.start) :
    s.workLeft ≤ 0 := by
  subst hInitial
  exact Nat.le_refl 0

def budget (config : Config) : (lts config).Budget where
  left := State.workLeft
  paid := Event.paid
  spend := fun _ _ _ _ hReach hStep =>
    Step.spends hReach hStep

end Proxy

end Router

end Qanat

------------------------------------------------------------
-- What a Call Still Waits For
------------------------------------------------------------

namespace Qanat

namespace Router

namespace Proxy

open Transition
open Bus (RawMessage)

variable {config : Config}

/- A call whose input cannot be encoded returns at once. -/
theorem payload_of_open
    {trace : List Event} {s : State}
    (hReach : (lts config).Reachable trace s)
    {c : CallId} {call : Call}
    (hCall : s.calls c = some call)
    (hOpen : ¬ call.phase.Closed) :
    ∃ payload, call.request.payload = .ok payload := by
  induction hReach generalizing call with
  | initial hInitial =>
      subst hInitial
      cases hCall
  | @step trace s s' e hReach hStep ih =>
      rcases Step.call_cases hStep hCall with
        ⟨request, _, _, _, rfl⟩ | ⟨before, hBefore, hMove⟩
      · cases hPayload : request.payload with
        | ok payload => exact ⟨payload, rfl⟩
        | error error =>
            simp [Request.firstPhase, hPayload,
              CallPhase.Closed] at hOpen
      · rw [hMove.request]
        apply ih hBefore
        intro hClosed
        rcases closed_persists hReach hStep hBefore
            hClosed with ⟨after, hAfter, _, hStill⟩
        rw [hCall, Option.some.injEq] at hAfter
        exact hOpen (hAfter ▸ hStill)

/- Only a call whose request is out waits for a reply. -/
theorem dispatched_of_waiting
    {trace : List Event} {s : State}
    (hReach : (lts config).Reachable trace s)
    {c : CallId} {call : Call}
    (hCall : s.calls c = some call)
    (hOut :
      call.phase = .dispatching ∨ call.phase = .waiting) :
    call.dispatched = true := by
  induction hReach generalizing call with
  | initial hInitial =>
      subst hInitial
      cases hCall
  | @step trace s s' e hReach hStep ih =>
      rcases Step.call_cases hStep hCall with
        ⟨request, _, _, _, rfl⟩ | ⟨before, hBefore, hMove⟩
      · simp only [Request.firstPhase] at hOut
        split at hOut <;> rcases hOut with h | h <;> cases h
      · cases hMove with
        | same => exact ih hBefore hOut
        | hand => exact @ih before hBefore hOut
        | dispatch => rfl
        | finishDispatch hPhase =>
            exact @ih before hBefore (Or.inl hPhase)
        | _ => rcases hOut with h | h <;> cases h

theorem Step.mem_of_sent
    {s s' : State} {e : Event}
    (hStep : Step config s e s')
    {command : ProxyCommand}
    (hSent : e.sent? = some command) :
    command ∈ s'.queue := by
  cases hStep with
  | register =>
      cases hSent
      exact List.mem_append_right _ List.mem_cons_self
  | failDispatch =>
      apply List.mem_append_right
      simpa [Event.sent?] using hSent
  | timeOut =>
      apply List.mem_append_right
      simpa [Event.sent?] using hSent
  | _ => cases hSent

/- A registration is in the channel until it is confirmed. -/
theorem register_mem_of_queued
    {trace : List Event} {s : State}
    (hReach : (lts config).Reachable trace s)
    {c : CallId} {call : Call}
    (hCall : s.calls c = some call)
    (hQueued : call.phase = .queued)
    (hRunning : s.running = true) :
    ProxyCommand.register call.request.correlationId c ∈
      s.queue := by
  induction hReach generalizing call with
  | initial hInitial =>
      subst hInitial
      cases hCall
  | @step trace s s' e hReach hStep ih =>
      have hBefore := Step.running_of hStep hRunning
      rcases Step.call_cases hStep hCall with
        ⟨request, _, _, _, rfl⟩ | ⟨before, hOld, hMove⟩
      · simp only [Request.firstPhase] at hQueued
        split at hQueued <;> cases hQueued
      · cases hMove with
        | same =>
            have hMem := ih hOld hQueued hBefore
            refine Step.queue_persists hStep hMem ?_
            intro hTaken
            -- the call would have been confirmed
            cases hStep with
            | takeRegister =>
                cases hTaken
                simp [State.confirm, hOld, hQueued] at hCall
                rw [← hCall] at hQueued
                cases hQueued
            | _ => cases hTaken
        | register => exact Step.mem_of_sent hStep rfl
        | hand =>
            have hMem := ih hOld hQueued hBefore
            exact Step.queue_persists hStep hMem
              (by simp [Event.taken?])
        | _ => cases hQueued

/- The registration of the call is still to be sent. -/
def State.Starts (s : State) (c : CallId) : Prop :=
  ∃ call, s.calls c = some call ∧ call.phase = .starting

/- An update of another call leaves it to start. -/
theorem starts_setCall
    {s : State} {c c' : CallId} {call' : Call}
    (hStarts : s.Starts c)
    (hCall : s.calls c' = some call')
    (hPhase : call'.phase ≠ .starting) (moved : Call) :
    (s.setCall c' moved).Starts c := by
  rcases hStarts with ⟨call, hOld, hStarting⟩
  refine ⟨call, ?_, hStarting⟩
  rw [← hOld]
  apply setCall_of_ne
  rintro rfl
  rw [hOld, Option.some.injEq] at hCall
  exact hPhase (hCall ▸ hStarting)

/- So does the end of the send of another call. -/
theorem starts_unblock
    {s : State} {c c' : CallId}
    {queue : List ProxyCommand}
    (hOld : c ∈ s.blocked → s.Starts c)
    (hBlocked : c ∈ s.unblock c') (moved : Call) :
    State.Starts
      (({ s with queue := queue, blocked := s.unblock c' } :
        State).setCall c' moved) c := by
  have hMem := List.mem_filter.mp hBlocked
  rcases hOld hMem.1 with ⟨call, hCall, hPhase⟩
  refine ⟨call, ?_, hPhase⟩
  rw [← hCall]
  exact setCall_of_ne _ _ (of_decide_eq_true hMem.2)

/- Neither a confirmation nor a reply makes a call go on. -/
theorem starts_confirm
    {s : State} {c : CallId}
    (hStarts : s.Starts c) (c' : CallId) :
    State.Starts { s with calls := s.confirm c' } c := by
  unfold State.confirm
  cases hOther : s.calls c' with
  | none => exact hStarts
  | some call' =>
      by_cases hQueued : call'.phase = .queued
      · simp only [if_pos hQueued]
        exact starts_setCall hStarts hOther
          (by rw [hQueued]; nofun) _
      · simp only [if_neg hQueued]
        exact hStarts

theorem starts_hand
    {s : State} {c : CallId}
    (hStarts : s.Starts c) (c' : CallId) (position : Nat)
    (message : RawMessage) :
    State.Starts
      { s with calls := s.hand c' position message } c := by
  unfold State.hand
  cases hOther : s.calls c' with
  | none => exact hStarts
  | some call' =>
      by_cases hClosed : call'.phase.Closed
      · simp only [if_pos hClosed]
        exact hStarts
      · simp only [if_neg hClosed]
        by_cases hStarting : call'.phase = .starting
        · by_cases hSame : c = c'
          · subst hSame
            exact ⟨_, Function.update_self _ _ _, hStarting⟩
          · rcases hStarts with ⟨call, hCall, hPhase⟩
            refine ⟨call, ?_, hPhase⟩
            rw [← hCall]
            exact Function.update_of_ne hSame _ _
        · exact starts_setCall hStarts hOther hStarting _

theorem starts_of_blocked_step
    {trace : List Event} {s s' : State} {e : Event}
    (hReach : (lts config).Reachable trace s)
    (hStep : Step config s e s')
    {c : CallId}
    (hOld : c ∈ s.blocked → s.Starts c)
    (hBlocked : c ∈ s'.blocked) :
    s'.Starts c := by
  cases hStep with
  | call =>
      rcases hOld hBlocked with ⟨call, hCall, hPhase⟩
      have hNe := Nat.ne_of_lt (call_lt hReach hCall)
      exact ⟨call, by rw [setCall_of_ne _ _ hNe, hCall],
        hPhase⟩
  | block hCall hPhase =>
      rcases List.mem_append.mp hBlocked with hMem | hNew
      · exact hOld hMem
      · rw [List.mem_singleton.mp hNew]
        exact ⟨_, hCall, hPhase⟩
  | register => exact starts_unblock hOld hBlocked _
  | refuse => exact starts_unblock hOld hBlocked _
  | drop => exact starts_unblock hOld hBlocked _
  | lose hCall hPhase =>
      exact starts_setCall (hOld hBlocked) hCall
        (by rw [hPhase]; nofun) _
  | dispatch hCall hPhase =>
      exact starts_setCall (hOld hBlocked) hCall
        (by rw [hPhase]; nofun) _
  | finishDispatch hCall hPhase =>
      exact starts_setCall (hOld hBlocked) hCall
        (by rw [hPhase]; nofun) _
  | failDispatch hCall hPhase =>
      exact starts_setCall (hOld hBlocked) hCall
        (by rw [hPhase]; nofun) _
  | receive hCall hPhase =>
      exact starts_setCall (hOld hBlocked) hCall
        (by rw [hPhase]; nofun) _
  | timeOut hCall hPhase =>
      exact starts_setCall (hOld hBlocked) hCall
        (by rw [hPhase]; nofun) _
  | abandonWait hCall hPhase =>
      exact starts_setCall (hOld hBlocked) hCall
        (by rw [hPhase]; nofun) _
  | takeRegister => exact starts_confirm (hOld hBlocked) _
  | takeReply => exact starts_hand (hOld hBlocked) _ _ _
  | takeCancel => exact hOld hBlocked
  | discard => exact hOld hBlocked
  | stop => exact hOld hBlocked
  | arrive => exact hOld hBlocked

/- Who has been handed a reply has it, or has returned. -/
theorem slot_of_taken
    {trace : List Event} {s : State}
    (hReach : (lts config).Reachable trace s)
    {c : CallId} {position : Nat} {message : RawMessage}
    (hTaken :
      Event.taken position message (some c) ∈ trace) :
    ∃ call, s.calls c = some call ∧
      (call.phase.Closed ∨ call.slot ≠ none) := by
  induction hReach with
  | initial => cases hTaken
  | @step trace s s' e hReach hStep ih =>
      rcases List.mem_append.mp hTaken with hOld | hNew
      · rcases ih hOld with ⟨call, hCall, hClosed | hSlot⟩
        · rcases closed_persists hReach hStep hCall
              hClosed with ⟨call', hAfter, _, hStill⟩
          exact ⟨call', hAfter, Or.inl hStill⟩
        · rcases call_moves hReach hStep hCall with
            ⟨call', hAfter, hMove⟩
          refine ⟨call', hAfter, Or.inr ?_⟩
          cases hMove with
          | hand => nofun
          | _ => exact hSlot
      · rw [List.mem_singleton] at hNew
        subst hNew
        have hNow := hReach.step hStep
        rcases List.mem_iff_append.mp hTaken with
          ⟨earlier, later, hTrace⟩
        rcases request_of_taken hNow hTrace with
          ⟨request, hCalled, _⟩
        rcases call_of_called hNow hCalled with
          ⟨call', hAfter, _⟩
        refine ⟨call', hAfter, ?_⟩
        cases hStep with
        | takeReply =>
            change s.hand c s.read message c = _ at hAfter
            unfold State.hand at hAfter
            cases hCall : s.calls c with
            | none => simp [hCall] at hAfter
            | some call =>
                by_cases hClosed : call.phase.Closed
                · simp only [hCall, if_pos hClosed,
                    Option.some.injEq] at hAfter
                  exact Or.inl (hAfter ▸ hClosed)
                · simp only [hCall, if_neg hClosed,
                    Function.update_self,
                    Option.some.injEq] at hAfter
                  rw [← hAfter]
                  exact Or.inr nofun

theorem closed_of_givesUp
    {trace : List Event} {s : State}
    (hReach : (lts config).Reachable trace s)
    {c : CallId} {e : Event}
    (hMem : e ∈ trace)
    (hGivesUp : e.GivesUp c) :
    ∃ call, s.calls c = some call ∧ call.phase.Closed := by
  induction hReach with
  | initial => cases hMem
  | @step trace s s' e' hReach hStep ih =>
      rcases List.mem_append.mp hMem with hOld | hNew
      · rcases ih hOld with ⟨call, hCall, hClosed⟩
        rcases closed_persists hReach hStep hCall hClosed with
          ⟨call', hAfter, _, hStill⟩
        exact ⟨call', hAfter, hStill⟩
      · rw [List.mem_singleton] at hNew
        subst hNew
        cases hStep with
        | failDispatch =>
            cases hGivesUp
            exact ⟨_, setCall_self _ _ _, trivial⟩
        | timeOut =>
            cases hGivesUp
            exact ⟨_, setCall_self _ _ _, trivial⟩
        | _ => cases hGivesUp

/-
  A call that has got nothing waits for a message that the
  reply task has yet to read.
-/
theorem unread_of_waiting
    {trace : List Event} {s : State}
    (hReach : (lts config).Reachable trace s)
    {c : CallId} {call : Call} {position : Nat}
    {message : RawMessage}
    (hCall : s.calls c = some call)
    (hOpen : ¬ call.phase.Closed)
    (hSlot : call.slot = none)
    (hArrived : s.arrived[position]? = some message)
    (hBears :
      correlationId? message =
        some call.request.correlationId) :
    s.read ≤ position := by
  apply Nat.le_of_not_lt
  intro hRead
  have hNone : ∀ position' message',
      Event.taken position' message' (some c) ∉ trace := by
    intro position' message' hTaken
    rcases slot_of_taken hReach hTaken with
      ⟨call', hCall', hGot⟩
    rw [hCall, Option.some.injEq] at hCall'
    subst hCall'
    exact hGot.elim hOpen (fun hSome => hSome hSlot)
  have hCalled := called_of_call hReach hCall
  rcases taken_of_lt hReach hRead with
    ⟨other, found, hTaken⟩
  have hOther := (taken_lt hReach hTaken).2
  rw [hArrived, Option.some.injEq] at hOther
  subst hOther
  rcases List.mem_iff_append.mp hTaken with
    ⟨earlier, later, hTrace⟩
  cases found with
  -- ids are not shared, so it went to this very call
  | some c' =>
      rcases request_of_taken hReach hTrace with
        ⟨request, hCalled', hBears'⟩
      rcases call_of_called hReach hCalled' with
        ⟨call', hCall', rfl⟩
      rw [hBears, Option.some.injEq] at hBears'
      have hSame :=
        correlationId_injective hReach hCall hCall' hBears'
      subst hSame
      exact hNone _ _ hTaken
  -- it came too late for a call that is still open
  | none =>
      rcases settled_of_discarded hReach hTrace hCalled
          hBears with
        ⟨position', message', hEarlier⟩ | ⟨e, hE, hGivesUp⟩
      · apply hNone position' message'
        rw [hTrace]
        exact List.mem_append_left _ hEarlier
      · have hMem : e ∈ trace := by
          rw [hTrace]
          exact List.mem_append_left _ hE
        rcases closed_of_givesUp hReach hMem hGivesUp with
          ⟨call', hCall', hClosed⟩
        rw [hCall, Option.some.injEq] at hCall'
        exact hOpen (hCall' ▸ hClosed)

end Proxy

end Router

end Qanat

------------------------------------------------------------
-- Every Call Returns
------------------------------------------------------------

namespace Qanat

namespace Router

namespace Proxy

open Transition
open Bus (RawMessage)

variable {config : Config}

/- The reply task leaves neither commands nor messages. -/
theorem drained_of_stuck
    {s : State}
    (hStuck : (lts config).Stuck Event.IsWork s)
    (hRunning : s.running = true) :
    s.queue = [] ∧ s.arrived.length ≤ s.read := by
  constructor
  · cases hQueue : s.queue with
    | nil => rfl
    | cons command rest =>
        cases command with
        | register correlationId c =>
            exact absurd trivial (hStuck _ _
              (.takeRegister hRunning hQueue))
        | cancel correlationId =>
            exact absurd trivial (hStuck _ _
              (.takeCancel hRunning hQueue))
  · apply Nat.le_of_not_lt
    intro hRead
    have hArrived := List.getElem?_eq_getElem hRead
    cases hFound : (correlationId? s.arrived[s.read]).bind
        s.pending with
    | none =>
        exact absurd trivial (hStuck _ _
          (.discard hRunning hArrived hFound))
    | some c =>
        rcases Option.bind_eq_some_iff.mp hFound with
          ⟨correlationId, hId, hPending⟩
        exact absurd trivial (hStuck _ _
          (.takeReply hRunning hArrived hId hPending))

/- Whose send waits has not registered yet. -/
theorem starts_of_blocked
    {trace : List Event} {s : State}
    (hReach : (lts config).Reachable trace s)
    {c : CallId} (hBlocked : c ∈ s.blocked) :
    s.Starts c := by
  induction hReach with
  | initial hInitial =>
      subst hInitial
      cases hBlocked
  | step hReach hStep ih =>
      exact starts_of_blocked_step hReach hStep ih hBlocked

/- Of the calls that start, one may send to a drained channel. -/
theorem exists_maySend
    {trace : List Event} {s : State}
    (hReach : (lts config).Reachable trace s)
    {c : CallId} {call : Call}
    (hCall : s.calls c = some call)
    (hPhase : call.phase = .starting)
    (hQueue : s.queue = []) :
    ∃ c' call', s.calls c' = some call' ∧
      call'.phase = .starting ∧ s.MaySend c' := by
  cases hBlocked : s.blocked with
  | nil =>
      refine ⟨c, call, hCall, hPhase, Or.inr ?_⟩
      rw [State.HasRoom, hBlocked, hQueue]
      exact ⟨List.not_mem_nil, by decide⟩
  | cons first rest =>
      have hFirst : first ∈ s.blocked := by
        rw [hBlocked]
        exact List.mem_cons_self
      rcases starts_of_blocked hReach hFirst with
        ⟨call', hOther, hStarting⟩
      refine ⟨first, call', hOther, hStarting, Or.inl ?_⟩
      rw [State.granted, hBlocked, hQueue]
      exact List.mem_cons_self

/-
  The request is out and nothing has come for the call, but
  somebody is there who would hand it over.
-/
def State.Unanswered (s : State) (call : Call) : Prop :=
  call.phase = .waiting ∧ call.dispatched = true ∧
    s.running = true ∧ ∀ message ∈ s.arrived,
      correlationId? message ≠
        some call.request.correlationId

/- A call that waits at rest has not been answered. -/
theorem unanswered_of_waiting
    {trace : List Event} {s : State}
    (hReach : (lts config).Reachable trace s)
    (hStuck : (lts config).Stuck Event.IsWork s)
    {c : CallId} {call : Call}
    (hCall : s.calls c = some call)
    (hPhase : call.phase = .waiting) :
    s.Unanswered call := by
  have hOpen : ¬ call.phase.Closed := by
    rw [hPhase]
    exact id
  cases hSlot : call.slot with
  | some reply =>
      exact absurd trivial
        (hStuck _ _ (.receive hCall hPhase hSlot))
  | none =>
      cases hRunning : s.running with
      | false =>
          exact absurd trivial
            (hStuck _ _
              (.abandonWait hCall hPhase hSlot hRunning))
      | true =>
          have hOut := dispatched_of_waiting hReach hCall
            (Or.inr hPhase)
          refine ⟨hPhase, hOut, hRunning, ?_⟩
          intro message hArrived hBears
          rcases List.mem_iff_getElem?.mp hArrived with
            ⟨position, hAt⟩
          have hUnread := unread_of_waiting hReach hCall
            hOpen hSlot hAt hBears
          have hRead := (drained_of_stuck hStuck hRunning).2
          have hBound :=
            (List.getElem?_eq_some_iff.mp hAt).1
          exact absurd hBound
            (Nat.not_lt.mpr (Nat.le_trans hRead hUnread))

/- At rest, a call has returned or awaits others. -/
theorem unanswered_of_stuck
    {trace : List Event} {s : State}
    (hReach : (lts config).Reachable trace s)
    (hStuck : (lts config).Stuck Event.IsWork s)
    {c : CallId} {call : Call}
    (hCall : s.calls c = some call) :
    call.phase.Closed ∨ s.Unanswered call := by
  cases hPhase : call.phase with
  | starting =>
      cases hRunning : s.running with
      | true =>
          have hQueue := (drained_of_stuck hStuck hRunning).1
          -- the send that has waited longest has a permit
          rcases exists_maySend hReach hCall hPhase hQueue with
            ⟨c', call', hOther, hStarting, hMay⟩
          exact absurd trivial
            (hStuck _ _
              (.register hOther hStarting hRunning hMay))
      | false =>
          exact absurd trivial
            (hStuck _ _ (.refuse hCall hPhase hRunning))
  | queued =>
      cases hRunning : s.running with
      | true =>
          have hMem := register_mem_of_queued hReach hCall
            hPhase hRunning
          rw [(drained_of_stuck hStuck hRunning).1] at hMem
          cases hMem
      | false =>
          exact absurd trivial
            (hStuck _ _ (.lose hCall hPhase hRunning))
  | registered =>
      have hOpen : ¬ call.phase.Closed := by
        rw [hPhase]
        exact id
      rcases payload_of_open hReach hCall hOpen with
        ⟨payload, hPayload⟩
      exact absurd trivial
        (hStuck _ _ (.dispatch hCall hPhase hPayload))
  | dispatching =>
      exact absurd trivial
        (hStuck _ _ (.finishDispatch hCall hPhase))
  | waiting =>
      exact Or.inr
        (unanswered_of_waiting hReach hStuck hCall hPhase)
  | returned outcome => exact Or.inl trivial

/-
  A run is no longer than its calls and messages pay for, and
  from every reachable state the callers and the reply task
  come to rest, with or without timers.  Without timers only
  calls are left then to which no reply has arrived while the
  reply task is there; with them there are none.
-/
theorem every_call_returns
    {trace : List Event} {s : State}
    (hReach : (lts config).Reachable trace s) :
    trace.length + s.workLeft ≤
      (trace.map Event.paid).sum ∧
    (∀ more s',
      (lts config).Continues Event.IsWorkOrTimer s more s' →
        more.length + s'.workLeft ≤ s.workLeft) ∧
    (∀ more s',
      (lts config).Continues Event.IsWorkOrTimer s more s' →
        (lts config).Stuck Event.IsWork s' →
          ∀ c call, s'.calls c = some call →
            call.phase.Closed ∨ s'.Unanswered call) ∧
    (∀ more s',
      (lts config).Continues Event.IsWorkOrTimer s more s' →
        (lts config).Stuck Event.IsWorkOrTimer s' →
          ∀ c call, s'.calls c = some call →
            call.phase.Closed) ∧
    (∃ more s',
      (lts config).Continues Event.IsWork s more s' ∧
        (lts config).Stuck Event.IsWork s') ∧
    (∃ more s',
      (lts config).Continues Event.IsWorkOrTimer s more s' ∧
        (lts config).Stuck Event.IsWorkOrTimer s') := by
  refine ⟨?_, ?_, ?_, ?_, ?_, ?_⟩
  · have hLength := (budget config).length_le
      workLeft_start hReach
    rwa [Nat.zero_add] at hLength
  · intro more s' hMore
    exact (budget config).continues_le
      (fun _ hWork => hWork.paid_eq_zero) hReach hMore
  · intro more s' hMore hStuck c call hCall
    exact unanswered_of_stuck (hReach.continue hMore) hStuck
      hCall
  · intro more s' hMore hStuck c call hCall
    have hWork : (lts config).Stuck Event.IsWork s' :=
      fun e s'' hStep hLabel =>
        hStuck e s'' hStep hLabel.orTimer
    rcases unanswered_of_stuck (hReach.continue hMore) hWork
        hCall with hClosed | hWaits
    · exact hClosed
    · exact absurd trivial
        (hStuck _ _ (.timeOut hCall hWaits.1))
  · exact (budget config).exists_stuck
      (fun _ hWork => hWork.orTimer.paid_eq_zero) hReach
  · exact (budget config).exists_stuck
      (fun _ hWork => hWork.paid_eq_zero) hReach

/-
  A full channel: the first call waits, and as many as fit
  have sent their registrations.  They all return in time.
-/
theorem every_call_returns_crowd :
    ∃ trace s, (lts crowdConfig).Reachable trace s ∧
      s.queue.length = commandCapacity ∧
      ∃ more s',
        (lts crowdConfig).Continues Event.IsWorkOrTimer
          s more s' ∧
        ∀ c call, s'.calls c = some call →
          call.phase.Closed := by
  rcases crowded_of_le commandCapacity (Nat.le_refl _) with
    ⟨trace, s, hReach, hCrowded⟩
  rcases every_call_returns hReach.of_restrict with
    ⟨_, _, _, hReturned, _, more, s', hMore, hStuck⟩
  exact ⟨trace, s, hReach.of_restrict, hCrowded.length, more,
    s', hMore, hReturned more s' hMore hStuck⟩

end Proxy

end Router

end Qanat
