import Qanat.Library.Channels
import Qanat.Library.Tickets
import Qanat.Router.Proxy.Model

/-
  What a step does to a call of a broker proxy, and what is
  known of every call of a run.

  Main declarations:
    * `CallMove`, `Step.call_cases`
    * `correlationId_injective`
    * `registered_of_confirmed`
    * `dispatched_of_arrived`
    * `taken_of_received`
-/

------------------------------------------------------------
-- One Call
------------------------------------------------------------

namespace Qanat

namespace Router

namespace Proxy

open Transition
open Bus (RawMessage)

/- What an event does to one call. -/
inductive CallMove (c : CallId) (call : Call) :
    Event → Call → Prop where
| same {e : Event} :
    CallMove c call e call
| register :
    call.phase = .starting →
    CallMove c call (.registering call.request.correlationId c)
      { call with phase := .queued }
| confirm {correlationId : String} :
    call.phase = .queued →
    CallMove c call (.registered correlationId c)
      { call with phase := .registered }
| dispatch {message : RawMessage} :
    call.phase = .registered →
    CallMove c call (.dispatched c message)
      { call with phase := .dispatching, dispatched := true }
| finishDispatch :
    call.phase = .dispatching →
    CallMove c call (.dispatchReturned c)
      { call with phase := .waiting }
| hand {position : Nat} {message : RawMessage} :
    CallMove c call (.taken position message (some c))
      { call with slot := some (position, message) }
| receive {position : Nat} {message : RawMessage} :
    call.phase = .waiting →
    call.slot = some (position, message) →
    CallMove c call (.received c position message)
      { call with phase := .returned (.reply message) }
| fail {e : Event} {outcome : Outcome} :
    ¬ call.phase.Closed →
    (∀ position message, e ≠ .received c position message) →
    CallMove c call e
      { call with phase := .returned outcome }

theorem CallMove.request
    {c : CallId} {call call' : Call} {e : Event}
    (hMove : CallMove c call e call') :
    call'.request = call.request := by
  cases hMove <;> rfl

variable {config : Config}

@[simp]
theorem setCall_self
    (s : State) (c : CallId) (call : Call) :
    (s.setCall c call).calls c = some call :=
  Function.update_self _ _ _

theorem setCall_of_ne
    (s : State) {c c' : CallId} (call : Call)
    (hNe : c' ≠ c) :
    (s.setCall c call).calls c' = s.calls c' :=
  Function.update_of_ne hNe _ _

/- The update of one call moves that call. -/
theorem moves_of_setCall
    {s : State} {c c' : CallId} {call moved call' : Call}
    {e : Event}
    (hCall : s.calls c = some call)
    (hMove : CallMove c call e moved)
    (hAfter : (s.setCall c moved).calls c' = some call') :
    ∃ before, s.calls c' = some before ∧
      CallMove c' before e call' := by
  by_cases hSame : c' = c
  · subst hSame
    rw [setCall_self, Option.some.injEq] at hAfter
    subst hAfter
    exact ⟨call, hCall, hMove⟩
  · rw [setCall_of_ne _ _ hSame] at hAfter
    exact ⟨call', hAfter, .same⟩

/- A call is new, or it was there and has moved. -/
theorem Step.call_cases
    {s s' : State} {e : Event}
    (hStep : Step config s e s')
    {c : CallId} {call' : Call}
    (hAfter : s'.calls c = some call') :
    (∃ request, e = .called c request ∧ c = s.nextCall ∧
        s.Fresh request.correlationId ∧
        call' =
          { request := request
            phase := request.firstPhase
            dispatched := false
            slot := none }) ∨
      ∃ call, s.calls c = some call ∧
        CallMove c call e call' := by
  cases hStep with
  | call request hFresh =>
      by_cases hSame : c = s.nextCall
      · subst hSame
        rw [setCall_self, Option.some.injEq] at hAfter
        exact Or.inl ⟨request, rfl, rfl, hFresh, hAfter.symm⟩
      · rw [setCall_of_ne _ _ hSame] at hAfter
        exact Or.inr ⟨call', hAfter, .same⟩
  | register hCall hPhase =>
      exact Or.inr
        (moves_of_setCall hCall (.register hPhase) hAfter)
  | refuse hCall hPhase =>
      exact Or.inr (moves_of_setCall hCall
        (.fail (by rw [hPhase]; exact id) nofun) hAfter)
  | lose hCall hPhase =>
      exact Or.inr (moves_of_setCall hCall
        (.fail (by rw [hPhase]; exact id) nofun) hAfter)
  | dispatch hCall hPhase =>
      exact Or.inr
        (moves_of_setCall hCall (.dispatch hPhase) hAfter)
  | finishDispatch hCall hPhase =>
      exact Or.inr (moves_of_setCall hCall
        (.finishDispatch hPhase) hAfter)
  | failDispatch hCall hPhase =>
      exact Or.inr (moves_of_setCall hCall
        (.fail (by rw [hPhase]; exact id) nofun) hAfter)
  | receive hCall hPhase hSlot =>
      exact Or.inr (moves_of_setCall hCall
        (.receive hPhase hSlot) hAfter)
  | timeOut hCall hPhase =>
      exact Or.inr (moves_of_setCall hCall
        (.fail (by rw [hPhase]; exact id) nofun) hAfter)
  | abandonWait hCall hPhase =>
      exact Or.inr (moves_of_setCall hCall
        (.fail (by rw [hPhase]; exact id) nofun) hAfter)
  | drop hCall hOpen =>
      exact Or.inr (moves_of_setCall hCall
        (.fail hOpen nofun) hAfter)
  | @takeRegister correlationId c' rest =>
      right
      cases hCall : s.calls c' with
      | none =>
          simp only [State.confirm, hCall] at hAfter
          exact ⟨call', hAfter, .same⟩
      | some call =>
          by_cases hQueued : call.phase = .queued
          · simp only [State.confirm, hCall, if_pos hQueued]
              at hAfter
            exact moves_of_setCall hCall (.confirm hQueued)
              hAfter
          · simp only [State.confirm, hCall, if_neg hQueued]
              at hAfter
            exact ⟨call', hAfter, .same⟩
  | @takeReply message correlationId c' =>
      right
      cases hCall : s.calls c' with
      | none =>
          simp only [State.hand, hCall] at hAfter
          exact ⟨call', hAfter, .same⟩
      | some call =>
          by_cases hClosed : call.phase.Closed
          · simp only [State.hand, hCall, if_pos hClosed]
              at hAfter
            exact ⟨call', hAfter, .same⟩
          · simp only [State.hand, hCall, if_neg hClosed]
              at hAfter
            exact moves_of_setCall hCall .hand hAfter
  | _ => exact Or.inr ⟨call', hAfter, .same⟩

theorem persists_of_setCall
    {s : State} {c c' : CallId} {call moved : Call}
    (hCall : s.calls c = some call) :
    ∃ call', (s.setCall c' moved).calls c = some call' := by
  by_cases hSame : c = c'
  · subst hSame
    exact ⟨moved, setCall_self _ _ _⟩
  · exact ⟨call, by rw [setCall_of_ne _ _ hSame, hCall]⟩

theorem Step.call_persists
    {s s' : State} {e : Event}
    (hStep : Step config s e s')
    {c : CallId} {call : Call}
    (hCall : s.calls c = some call) :
    ∃ call', s'.calls c = some call' := by
  cases hStep with
  | @takeRegister correlationId c' rest =>
      cases hOther : s.calls c' with
      | none =>
          exact
            ⟨call, by simp [State.confirm, hOther, hCall]⟩
      | some other =>
          by_cases hQueued : other.phase = .queued
          · simp only [State.confirm, hOther, if_pos hQueued]
            exact persists_of_setCall hCall
          · exact ⟨call, by
              simp [State.confirm, hOther, hQueued, hCall]⟩
  | @takeReply message correlationId c' =>
      cases hOther : s.calls c' with
      | none => exact ⟨call, by simp [State.hand, hOther, hCall]⟩
      | some other =>
          by_cases hClosed : other.phase.Closed
          · exact ⟨call, by
              simp [State.hand, hOther, hClosed, hCall]⟩
          · simp only [State.hand, hOther, if_neg hClosed]
            exact persists_of_setCall hCall
  | block => exact ⟨call, hCall⟩
  | takeCancel => exact ⟨call, hCall⟩
  | discard => exact ⟨call, hCall⟩
  | stop => exact ⟨call, hCall⟩
  | arrive => exact ⟨call, hCall⟩
  | _ => exact persists_of_setCall hCall

end Proxy

end Router

end Qanat

------------------------------------------------------------
-- Every Call of a Run
------------------------------------------------------------

namespace Qanat

namespace Router

namespace Proxy

open Transition
open Bus (RawMessage)

variable {config : Config}

theorem Step.nextCall_le
    {s s' : State} {e : Event}
    (hStep : Step config s e s') :
    s.nextCall ≤ s'.nextCall := by
  cases hStep with
  | call => exact Nat.le_succ _
  | _ => exact Nat.le_refl _

/- The calls are numbered in their order. -/
theorem call_lt
    {trace : List Event} {s : State}
    (hReach : (lts config).Reachable trace s)
    {c : CallId} {call : Call}
    (hCall : s.calls c = some call) :
    c < s.nextCall := by
  induction hReach generalizing call with
  | initial hInitial =>
      subst hInitial
      cases hCall
  | @step trace s s' e hReach hStep ih =>
      rcases Step.call_cases hStep hCall with
        ⟨request, rfl, rfl, _⟩ | ⟨before, hBefore, _⟩
      · cases hStep
        exact Nat.lt_succ_self _
      · exact Nat.lt_of_lt_of_le (ih hBefore)
          (Step.nextCall_le hStep)

/- A call that is there moves with every step. -/
theorem call_moves
    {trace : List Event} {s s' : State} {e : Event}
    (hReach : (lts config).Reachable trace s)
    (hStep : Step config s e s')
    {c : CallId} {call : Call}
    (hCall : s.calls c = some call) :
    ∃ call', s'.calls c = some call' ∧
      CallMove c call e call' := by
  rcases Step.call_persists hStep hCall with ⟨call', hAfter⟩
  rcases Step.call_cases hStep hAfter with
    ⟨request, _, rfl, _⟩ | ⟨before, hBefore, hMove⟩
  · exact absurd (call_lt hReach hCall) (Nat.lt_irrefl _)
  · rw [hCall, Option.some.injEq] at hBefore
    subst hBefore
    exact ⟨call', hAfter, hMove⟩

/- Calls differ in their correlation ids. -/
theorem correlationId_injective
    {trace : List Event} {s : State}
    (hReach : (lts config).Reachable trace s)
    {c c' : CallId} {call call' : Call}
    (hCall : s.calls c = some call)
    (hCall' : s.calls c' = some call')
    (hSame :
      call.request.correlationId =
        call'.request.correlationId) :
    c = c' := by
  induction hReach generalizing call call' with
  | initial hInitial =>
      subst hInitial
      cases hCall
  | @step trace s s' e hReach hStep ih =>
      rcases Step.call_cases hStep hCall with
        ⟨request, hE, hNew, hFresh, rfl⟩ |
          ⟨before, hBefore, hMove⟩
      · rcases Step.call_cases hStep hCall' with
          ⟨_, _, hNew', _⟩ | ⟨before', hBefore', hMove'⟩
        · rw [hNew, hNew']
        · rw [hMove'.request] at hSame
          exact absurd hSame.symm (hFresh.1 _ _ hBefore')
      · rcases Step.call_cases hStep hCall' with
          ⟨request, _, _, hFresh, rfl⟩ |
            ⟨before', hBefore', hMove'⟩
        · rw [hMove.request] at hSame
          exact absurd hSame (hFresh.1 _ _ hBefore)
        · rw [hMove.request, hMove'.request] at hSame
          exact ih hBefore hBefore' hSame

/- A call keeps the request it was made with. -/
theorem call_of_called
    {trace : List Event} {s : State}
    (hReach : (lts config).Reachable trace s)
    {c : CallId} {request : Request}
    (hCalled : Event.called c request ∈ trace) :
    ∃ call, s.calls c = some call ∧
      call.request = request := by
  induction hReach with
  | initial => cases hCalled
  | @step trace s s' e hReach hStep ih =>
      rcases List.mem_append.mp hCalled with hOld | hNew
      · rcases ih hOld with ⟨call, hCall, hRequest⟩
        rcases call_moves hReach hStep hCall with
          ⟨call', hAfter, hMove⟩
        exact ⟨call', hAfter, by rw [hMove.request, hRequest]⟩
      · rw [List.mem_singleton] at hNew
        subst hNew
        cases hStep with
        | call =>
            exact ⟨_, setCall_self _ _ _, rfl⟩

theorem called_of_call
    {trace : List Event} {s : State}
    (hReach : (lts config).Reachable trace s)
    {c : CallId} {call : Call}
    (hCall : s.calls c = some call) :
    Event.called c call.request ∈ trace := by
  induction hReach generalizing call with
  | initial hInitial =>
      subst hInitial
      cases hCall
  | @step trace s s' e hReach hStep ih =>
      rcases Step.call_cases hStep hCall with
        ⟨request, rfl, _, _, rfl⟩ | ⟨before, hBefore, hMove⟩
      · exact List.mem_append_right _ List.mem_cons_self
      · rw [hMove.request]
        exact List.mem_append_left _ (ih hBefore)

/- A registration is sent once, by the call it names. -/
theorem call_of_registering
    {trace : List Event} {s : State}
    (hReach : (lts config).Reachable trace s)
    {correlationId : String} {c : CallId}
    (hSent : Event.registering correlationId c ∈ trace) :
    ∃ call, s.calls c = some call ∧
      call.request.correlationId = correlationId ∧
        call.phase ≠ .starting := by
  induction hReach with
  | initial => cases hSent
  | @step trace s s' e hReach hStep ih =>
      rcases List.mem_append.mp hSent with hOld | hNew
      · rcases ih hOld with ⟨call, hCall, hId, hPhase⟩
        rcases call_moves hReach hStep hCall with
          ⟨call', hAfter, hMove⟩
        refine ⟨call', hAfter, ?_, ?_⟩
        · rw [hMove.request, hId]
        · cases hMove with
          | same => exact hPhase
          | hand => exact hPhase
          | _ => nofun
      · rw [List.mem_singleton] at hNew
        subst hNew
        cases hStep with
        | register hCall hPhase =>
            exact ⟨_, setCall_self _ _ _, rfl, nofun⟩

/- The commands of the callers, by what they have sent. -/
def Event.sent? : Event → Option ProxyCommand
| .registering correlationId c =>
    some (.register correlationId c)
| .dispatchFailed _ _ cancel => cancel
| .timedOut _ cancel => cancel
| _ => none

/- The commands that the reply task has taken. -/
def Event.taken? : Event → Option ProxyCommand
| .registered correlationId c =>
    some (.register correlationId c)
| .cancelled correlationId _ => some (.cancel correlationId)
| _ => none

/- The reply task takes the commands in their order. -/
theorem commands_fifo
    {trace : List Event} {s : State}
    (hReach : (lts config).Reachable trace s) :
    trace.filterMap Event.sent? =
      trace.filterMap Event.taken? ++ s.queue := by
  apply hReach.fifo Event.sent? Event.taken? State.queue
  · rintro s rfl
    rfl
  · intro trace s e s' _ hStep
    cases hStep with
    | takeRegister _ hQueue =>
        simp [hQueue, Event.sent?, Event.taken?]
    | takeCancel _ hQueue =>
        simp [hQueue, Event.sent?, Event.taken?]
    | _ => simp [Event.sent?, Event.taken?, State.setCall]

/- Only registrations are sent as registrations. -/
theorem registering_of_sent
    {trace : List Event} {s : State}
    (hReach : (lts config).Reachable trace s)
    {correlationId : String} {c : CallId}
    (hSent :
      ProxyCommand.register correlationId c ∈
        trace.filterMap Event.sent?) :
    Event.registering correlationId c ∈ trace := by
  rcases List.mem_filterMap.mp hSent with ⟨e, hMem, hSent⟩
  rcases hReach.step_of_mem hMem with
    ⟨_, _, r, r', _, _, hStep⟩
  cases hStep with
  | register =>
      cases hSent
      exact hMem
  | failDispatch =>
      simp only [Event.sent?, State.tryCancel] at hSent
      split at hSent <;> cases hSent
  | timeOut =>
      simp only [Event.sent?, State.tryCancel] at hSent
      split at hSent <;> cases hSent
  | _ => cases hSent

/- What is registered has been sent for registration. -/
theorem registering_of_registered
    {trace : List Event} {s : State}
    (hReach : (lts config).Reachable trace s)
    {correlationId : String} {c : CallId}
    (hTaken :
      ProxyCommand.register correlationId c ∈
        trace.filterMap Event.taken? ++ s.queue) :
    Event.registering correlationId c ∈ trace := by
  rw [← commands_fifo hReach] at hTaken
  exact registering_of_sent hReach hTaken

theorem call_of_registered
    {trace : List Event} {s : State}
    (hReach : (lts config).Reachable trace s)
    {correlationId : String} {c : CallId}
    (hRegistered :
      Event.registered correlationId c ∈ trace) :
    ∃ call, s.calls c = some call ∧
      call.request.correlationId = correlationId ∧
        call.phase ≠ .starting := by
  apply call_of_registering hReach
  apply registering_of_registered hReach
  exact List.mem_append_left _
    (List.mem_filterMap.mpr ⟨_, hRegistered, rfl⟩)

/- The call has the confirmation of its registration. -/
def CallPhase.Confirmed : CallPhase → Prop
| .registered => True
| .dispatching => True
| .waiting => True
| _ => False

/-
  A call goes on, and is dispatched, only after the reply
  task has its registration.
-/
theorem registered_of_confirmed
    {trace : List Event} {s : State}
    (hReach : (lts config).Reachable trace s)
    {c : CallId} {call : Call}
    (hCall : s.calls c = some call)
    (hConfirmed :
      call.phase.Confirmed ∨ call.dispatched = true) :
    Event.registered call.request.correlationId c ∈
      trace := by
  induction hReach generalizing call with
  | initial hInitial =>
      subst hInitial
      cases hCall
  | @step trace s s' e hReach hStep ih =>
      rcases Step.call_cases hStep hCall with
        ⟨request, _, _, _, rfl⟩ | ⟨before, hBefore, hMove⟩
      · rcases hConfirmed with hPhase | hDispatched
        · simp only [Request.firstPhase] at hPhase
          split at hPhase <;> cases hPhase
        · cases hDispatched
      · rw [hMove.request]
        cases hMove with
        | same =>
            exact List.mem_append_left _
              (ih hBefore hConfirmed)
        | hand =>
            exact List.mem_append_left _
              (ih hBefore hConfirmed)
        | register hPhase =>
            rcases hConfirmed with hNow | hDispatched
            · cases hNow
            · exact List.mem_append_left _
                (ih hBefore (Or.inr hDispatched))
        | @confirm correlationId hPhase =>
            have hMem :
                ProxyCommand.register correlationId c ∈
                  s.queue := by
              cases hStep with
              | takeRegister _ hQueue =>
                  rw [hQueue]
                  exact List.mem_cons_self
            have hSent := registering_of_registered hReach
              (List.mem_append_right _ hMem)
            rcases call_of_registering hReach hSent with
              ⟨other, hOther, hId, _⟩
            rw [hBefore, Option.some.injEq] at hOther
            rw [hOther, hId]
            exact List.mem_append_right _
              List.mem_cons_self
        | dispatch hPhase =>
            apply List.mem_append_left
            apply ih hBefore
            rw [hPhase]
            exact Or.inl trivial
        | finishDispatch hPhase =>
            apply List.mem_append_left
            apply ih hBefore
            rw [hPhase]
            exact Or.inl trivial
        | receive =>
            rcases hConfirmed with hNow | hDispatched
            · cases hNow
            · exact List.mem_append_left _
                (ih hBefore (Or.inr hDispatched))
        | fail =>
            rcases hConfirmed with hNow | hDispatched
            · cases hNow
            · exact List.mem_append_left _
                (ih hBefore (Or.inr hDispatched))

/-
  A message that bears the id of a call has arrived after the
  call was dispatched.
-/
theorem dispatched_of_arrived
    {trace : List Event} {s : State}
    (hReach : (lts config).Reachable trace s)
    {c : CallId} {call : Call} {message : RawMessage}
    (hCall : s.calls c = some call)
    (hArrived : message ∈ s.arrived)
    (hBears :
      correlationId? message =
        some call.request.correlationId) :
    call.dispatched = true := by
  induction hReach generalizing call with
  | initial hInitial =>
      subst hInitial
      cases hCall
  | @step trace s s' e hReach hStep ih =>
      have hArrivals :
          message ∈ s.arrived ∨
            (e = .arrived s.arrived.length message ∧
              s'.calls = s.calls ∧ s.Timely message) := by
        cases hStep with
        | arrive other hTimely =>
            rcases List.mem_append.mp hArrived with
              hOld | hNew
            · exact Or.inl hOld
            · rw [List.mem_singleton] at hNew
              subst hNew
              exact Or.inr ⟨rfl, rfl, hTimely⟩
        | _ => exact Or.inl hArrived
      rcases hArrivals with hOld | ⟨_, hSame, hTimely⟩
      · rcases Step.call_cases hStep hCall with
          ⟨request, _, _, hFresh, rfl⟩ |
            ⟨before, hBefore, hMove⟩
        · exact absurd hBears (hFresh.2 message hOld)
        · rw [hMove.request] at hBears
          have hDispatched := ih hBefore hOld hBears
          cases hMove with
          | dispatch => rfl
          | _ => exact hDispatched
      · rw [hSame] at hCall
        exact hTimely c call hCall hBears

/- A reply that a call has received was handed to it. -/
theorem taken_of_slot
    {trace : List Event} {s : State}
    (hReach : (lts config).Reachable trace s)
    {c : CallId} {call : Call} {position : Nat}
    {message : RawMessage}
    (hCall : s.calls c = some call)
    (hSlot : call.slot = some (position, message)) :
    Event.taken position message (some c) ∈ trace := by
  induction hReach generalizing call with
  | initial hInitial =>
      subst hInitial
      cases hCall
  | @step trace s s' e hReach hStep ih =>
      rcases Step.call_cases hStep hCall with
        ⟨request, _, _, _, rfl⟩ | ⟨before, hBefore, hMove⟩
      · cases hSlot
      · cases hMove with
        | hand =>
            cases hSlot
            exact List.mem_append_right _ List.mem_cons_self
        | _ => exact List.mem_append_left _ (ih hBefore hSlot)

theorem taken_of_received
    {trace : List Event} {s : State}
    (hReach : (lts config).Reachable trace s)
    {c : CallId} {position : Nat} {message : RawMessage}
    (hReceived :
      Event.received c position message ∈ trace) :
    Event.taken position message (some c) ∈ trace := by
  rcases hReach.step_of_mem hReceived with
    ⟨_, _, r, r', hTrace, hBefore, hStep⟩
  rw [hTrace]
  apply List.mem_append_left
  cases hStep with
  | receive hCall _ hSlot =>
      exact taken_of_slot hBefore hCall hSlot

end Proxy

end Router

end Qanat
