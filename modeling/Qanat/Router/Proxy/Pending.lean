import Qanat.Router.Proxy.Correlation

/-
  The table of pending requests of a broker proxy: whom its
  entries belong to, and when one of them stays for good.

  A registration waits for a permit of the command channel.
  A cancellation does not: it is lost if none is left, and a
  caller that is dropped does not send one.

  Main declarations:
    * `queue_le_capacity`
    * `Call.Awaits`, `State.Clears`
    * `Tidy`, `tidy_of_reachable`
    * `pending_awaited`
-/

------------------------------------------------------------
-- Permits of the Channel
------------------------------------------------------------

namespace Qanat

namespace Router

namespace Proxy

open Transition

variable {config : Config}

/- A send that goes through had a permit of its own. -/
theorem length_lt_of_maySend
    {s : State} {c : CallId} (hMay : s.MaySend c) :
    s.queue.length < commandCapacity := by
  rcases hMay with hGranted | ⟨_, hRoom⟩
  · have hLength := List.length_pos_of_mem hGranted
    rw [State.granted, List.length_take] at hLength
    omega
  · exact Nat.lt_of_le_of_lt (Nat.le_add_right _ _) hRoom

theorem length_tryCancel_le
    {s : State}
    (hLength : s.queue.length ≤ commandCapacity)
    (correlationId : String) :
    (s.queue ++ (s.tryCancel correlationId).toList).length ≤
      commandCapacity := by
  unfold State.tryCancel
  split
  · rename_i hSends
    have hRoom := hSends.2
    unfold State.HasRoom at hRoom
    simp only [Option.toList_some, List.length_append,
      List.length_singleton]
    omega
  · simpa using hLength

/- The channel never holds more than it has permits. -/
theorem queue_le_capacity
    {trace : List Event} {s : State}
    (hReach : (lts config).Reachable trace s) :
    s.queue.length ≤ commandCapacity := by
  induction hReach with
  | initial hInitial =>
      subst hInitial
      exact Nat.zero_le _
  | @step trace s s' e hReach hStep ih =>
      cases hStep with
      | register _ _ _ hMay =>
          have hLess := length_lt_of_maySend hMay
          change (s.queue ++ [_]).length ≤ commandCapacity
          rw [List.length_append]
          exact hLess
      | failDispatch => exact length_tryCancel_le ih _
      | timeOut => exact length_tryCancel_le ih _
      | takeRegister _ hQueue =>
          rw [hQueue] at ih
          exact Nat.le_of_succ_le ih
      | takeCancel _ hQueue =>
          rw [hQueue] at ih
          exact Nat.le_of_succ_le ih
      | _ => exact ih
end Proxy

end Router

end Qanat

------------------------------------------------------------
-- Calls That Await Their Replies
------------------------------------------------------------

namespace Qanat

namespace Router

namespace Proxy

open Transition
open Bus (RawMessage)

variable {config : Config}

/- The registration is confirmed, the reply yet to come. -/
def Call.Awaits (call : Call) : Prop :=
  (call.phase = .registered ∨ call.phase = .dispatching ∨
    call.phase = .waiting) ∧ call.slot = none

/-
  Not in the table, nor in a channel from which the reply
  task might take it.
-/
def State.Unregistered
    (s : State) (c : CallId) (correlationId : String) : Prop :=
  s.pending correlationId = none ∧
    (s.running = true →
      ProxyCommand.register correlationId c ∉ s.queue)

/- There is nothing to cancel, or room for a cancellation. -/
def State.Cancels
    (s : State) (correlationId : String) : Prop :=
  s.pending correlationId = none ∨ s.HasRoom

/- No caller leaves the table with an entry of its own. -/
def State.Clears (s : State) : Event → Prop
| .dispatchFailed c _ _ =>
    ∀ call, s.calls c = some call →
      s.Cancels call.request.correlationId
| .timedOut c _ =>
    ∀ call, s.calls c = some call →
      s.Cancels call.request.correlationId
| .dropped c =>
    ∀ call, s.calls c = some call →
      s.Unregistered c call.request.correlationId
| _ => True

/- The event after which a call no longer awaits its reply. -/
def Event.Ends (c : CallId) : Event → Prop
| .dispatchFailed c' _ _ => c' = c
| .timedOut c' _ => c' = c
| .dropped c' => c' = c
| .taken _ _ found => found = some c
| _ => False

/- Only the update of a call closes it. -/
theorem closed_of_setCall
    {s : State} {c c' : CallId} {call moved call' : Call}
    (hCall : s.calls c = some call)
    (hOpen : ¬ call.phase.Closed)
    (hAfter : (s.setCall c' moved).calls c = some call')
    (hClosed : call'.phase.Closed) :
    c = c' ∧ moved.phase.Closed := by
  by_cases hSame : c = c'
  · subst hSame
    rw [setCall_self, Option.some.injEq] at hAfter
    subst hAfter
    exact ⟨rfl, hClosed⟩
  · rw [setCall_of_ne _ _ hSame, hCall, Option.some.injEq]
      at hAfter
    subst hAfter
    exact absurd hClosed hOpen

/- How an open call is closed. -/
theorem Step.closed_cases
    {s s' : State} {e : Event}
    (hStep : Step config s e s')
    {c : CallId} {call call' : Call}
    (hCall : s.calls c = some call)
    (hOpen : ¬ call.phase.Closed)
    (hAfter : s'.calls c = some call')
    (hClosed : call'.phase.Closed) :
    c = s.nextCall ∨ call.slot ≠ none ∨ e.Ends c ∨
      s.running = false := by
  have hKept : s.calls c ≠ some call' := by
    rw [hCall]
    rintro ⟨⟩
    exact hOpen hClosed
  cases hStep with
  | call request _ =>
      exact Or.inl
        (closed_of_setCall hCall hOpen hAfter hClosed).1
  | register =>
      exact absurd
        (closed_of_setCall hCall hOpen hAfter hClosed).2 id
  | refuse _ _ hStopped => simp [hStopped]
  | lose _ _ hStopped => simp [hStopped]
  | dispatch =>
      exact absurd
        (closed_of_setCall hCall hOpen hAfter hClosed).2 id
  | finishDispatch =>
      exact absurd
        (closed_of_setCall hCall hOpen hAfter hClosed).2 id
  | failDispatch =>
      have hSame :=
        (closed_of_setCall hCall hOpen hAfter hClosed).1
      exact Or.inr (Or.inr (Or.inl hSame.symm))
  | receive hOther _ hSlot =>
      rcases closed_of_setCall hCall hOpen hAfter hClosed with
        ⟨rfl, _⟩
      rw [hCall, Option.some.injEq] at hOther
      subst hOther
      simp [hSlot]
  | timeOut =>
      have hSame :=
        (closed_of_setCall hCall hOpen hAfter hClosed).1
      exact Or.inr (Or.inr (Or.inl hSame.symm))
  | abandonWait _ _ _ hStopped => simp [hStopped]
  | drop =>
      have hSame :=
        (closed_of_setCall hCall hOpen hAfter hClosed).1
      exact Or.inr (Or.inr (Or.inl hSame.symm))
  | @takeRegister correlationId c' rest =>
      cases hOther : s.calls c' with
      | none =>
          simp only [State.confirm, hOther] at hAfter
          exact absurd hAfter hKept
      | some other =>
          by_cases hQueued : other.phase = .queued
          · simp only [State.confirm, hOther, if_pos hQueued]
              at hAfter
            exact absurd (closed_of_setCall hCall hOpen hAfter
              hClosed).2 id
          · simp only [State.confirm, hOther, if_neg hQueued]
              at hAfter
            exact absurd hAfter hKept
  | @takeReply message correlationId c' =>
      cases hOther : s.calls c' with
      | none =>
          simp only [State.hand, hOther] at hAfter
          exact absurd hAfter hKept
      | some other =>
          by_cases hEnded : other.phase.Closed
          · simp only [State.hand, hOther, if_pos hEnded]
              at hAfter
            exact absurd hAfter hKept
          · simp only [State.hand, hOther, if_neg hEnded]
              at hAfter
            rcases closed_of_setCall hCall hOpen hAfter
              hClosed with ⟨rfl, _⟩
            exact Or.inr (Or.inr (Or.inl rfl))
  | _ => exact absurd hAfter hKept

/- An open call without a reply moves on, or that was all. -/
theorem open_cases
    {trace : List Event} {s s' : State} {e : Event}
    (hReach : (lts config).Reachable trace s)
    (hStep : Step config s e s')
    {c : CallId} {call : Call}
    (hCall : s.calls c = some call)
    (hOpen : ¬ call.phase.Closed)
    (hSlot : call.slot = none) :
    (∃ call', s'.calls c = some call' ∧
      CallMove c call e call' ∧ ¬ call'.phase.Closed ∧
        call'.slot = none) ∨
      e.Ends c ∨ s.running = false := by
  rcases call_moves hReach hStep hCall with
    ⟨call', hAfter, hMove⟩
  by_cases hClosed : call'.phase.Closed
  · rcases Step.closed_cases hStep hCall hOpen hAfter
      hClosed with hNew | hReply | hRest
    · exact absurd hNew (Nat.ne_of_lt (call_lt hReach hCall))
    · exact absurd hSlot hReply
    · exact Or.inr hRest
  · have hNext : call'.slot = none ∨ e.Ends c := by
      cases hMove with
      | hand => exact Or.inr rfl
      | _ => exact Or.inl hSlot
    rcases hNext with hNone | hEnds
    · exact Or.inl ⟨call', hAfter, hMove, hClosed, hNone⟩
    · exact Or.inr (Or.inl hEnds)

/- A call that awaits its reply does so until its end. -/
theorem awaits_cases
    {trace : List Event} {s s' : State} {e : Event}
    (hReach : (lts config).Reachable trace s)
    (hStep : Step config s e s')
    {c : CallId} {call : Call}
    (hCall : s.calls c = some call)
    (hAwaits : call.Awaits) :
    (∃ call', s'.calls c = some call' ∧
      call'.request = call.request ∧ call'.Awaits) ∨
      e.Ends c ∨ s.running = false := by
  rcases hAwaits with ⟨hPhase, hSlot⟩
  have hOpen : ¬ call.phase.Closed := by
    rcases hPhase with h | h | h <;> rw [h] <;> exact id
  rcases open_cases hReach hStep hCall hOpen hSlot with
    ⟨call', hAfter, hMove, hNext, hNone⟩ | hEnd
  · refine Or.inl ⟨call', hAfter, hMove.request, ?_, hNone⟩
    cases hMove with
    | same => exact hPhase
    | register h => simp [h] at hPhase
    | confirm h => simp [h] at hPhase
    | dispatch => simp
    | finishDispatch => simp
    | hand => exact hPhase
    | receive => exact absurd trivial hNext
    | fail => exact absurd trivial hNext
  · exact Or.inr hEnd

/- A queued call stays so until it is confirmed. -/
theorem queued_cases
    {trace : List Event} {s s' : State} {e : Event}
    (hReach : (lts config).Reachable trace s)
    (hStep : Step config s e s')
    {c : CallId} {call : Call}
    (hCall : s.calls c = some call)
    (hQueued : call.phase = .queued)
    (hSlot : call.slot = none) :
    (∃ call', s'.calls c = some call' ∧
      call'.request = call.request ∧
        call'.phase = .queued ∧ call'.slot = none) ∨
      (∃ correlationId, e = .registered correlationId c) ∨
        e.Ends c ∨ s.running = false := by
  have hOpen : ¬ call.phase.Closed := by
    rw [hQueued]
    exact id
  rcases open_cases hReach hStep hCall hOpen hSlot with
    ⟨call', hAfter, hMove, hNext, hNone⟩ | hEnd
  · cases hMove with
    | same =>
        exact Or.inl ⟨call, hAfter, rfl, hQueued, hNone⟩
    | register h => simp [h] at hQueued
    | confirm => exact Or.inr (Or.inl ⟨_, rfl⟩)
    | dispatch h => simp [h] at hQueued
    | finishDispatch h => simp [h] at hQueued
    | hand =>
        exact Or.inl ⟨_, hAfter, rfl, hQueued, hNone⟩
    | receive => exact absurd trivial hNext
    | fail => exact absurd trivial hNext
  · exact Or.inr (Or.inr hEnd)

/- A closed call stays closed. -/
theorem closed_persists
    {trace : List Event} {s s' : State} {e : Event}
    (hReach : (lts config).Reachable trace s)
    (hStep : Step config s e s')
    {c : CallId} {call : Call}
    (hCall : s.calls c = some call)
    (hClosed : call.phase.Closed) :
    ∃ call', s'.calls c = some call' ∧
      call'.request = call.request ∧ call'.phase.Closed := by
  rcases call_moves hReach hStep hCall with
    ⟨call', hAfter, hMove⟩
  refine ⟨call', hAfter, hMove.request, ?_⟩
  cases hMove with
  | same => exact hClosed
  | hand => exact hClosed
  | receive => trivial
  | fail => trivial
  | register h => simp [h, CallPhase.Closed] at hClosed
  | confirm h => simp [h, CallPhase.Closed] at hClosed
  | dispatch h => simp [h, CallPhase.Closed] at hClosed
  | finishDispatch h => simp [h, CallPhase.Closed] at hClosed

end Proxy

end Router

end Qanat

------------------------------------------------------------
-- The Table and the Channel
------------------------------------------------------------

namespace Qanat

namespace Router

namespace Proxy

open Transition
open Bus (RawMessage)

variable {config : Config}

/- The entry of a call that no longer waits for its reply. -/
def State.Doomed
    (s : State) (call : Call) : Prop :=
  call.phase.Closed ∧
    ProxyCommand.cancel call.request.correlationId ∈ s.queue

/-
  `owned` is the purpose of the others: an entry belongs to a
  call that awaits its reply, or a cancellation is under way.
-/
structure Tidy (s : State) : Prop where
  stopped : s.running = false → ∀ id, s.pending id = none
  starting : ∀ c call, s.calls c = some call →
    call.phase = .starting → call.slot = none
  queued : s.running = true → ∀ id c,
    ProxyCommand.register id c ∈ s.queue →
      ∃ call, s.calls c = some call ∧
        call.request.correlationId = id ∧
          call.phase = .queued ∧ call.slot = none
  owned : ∀ id c, s.pending id = some c →
    ∃ call, s.calls c = some call ∧
      call.request.correlationId = id ∧
        (call.Awaits ∨ s.Doomed call)

/- A reply goes to a call that has been confirmed. -/
theorem Tidy.phase_of_taken
    {s s' : State} {c : CallId} {call : Call}
    {position : Nat} {message : RawMessage}
    (hTidy : Tidy s)
    (hStep :
      Step config s (.taken position message (some c)) s')
    (hCall : s.calls c = some call) :
    call.phase ≠ .starting ∧ call.phase ≠ .queued := by
  cases hStep with
  | takeReply _ _ _ hFound =>
      rcases hTidy.owned _ _ hFound with
        ⟨owner, hOwner, _, hAwaits | hDoomed⟩
      · rw [hCall, Option.some.injEq] at hOwner
        subst hOwner
        rcases hAwaits.1 with h | h | h <;> simp [h]
      · rw [hCall, Option.some.injEq] at hOwner
        subst hOwner
        have hClosed := hDoomed.1
        constructor <;> intro hPhase <;>
          simp [hPhase, CallPhase.Closed] at hClosed

/- A call with its registration in the channel goes on. -/
theorem Tidy.not_ends_of_queued
    {s s' : State} {e : Event} {c : CallId} {call : Call}
    (hTidy : Tidy s)
    (hStep : Step config s e s')
    (hClears : s.Clears e)
    (hRunning : s.running = true)
    (hCall : s.calls c = some call)
    (hQueued : call.phase = .queued)
    (hMem :
      ProxyCommand.register call.request.correlationId c ∈
        s.queue) :
    ¬ e.Ends c := by
  intro hEnds
  cases hStep with
  | failDispatch hOther hPhase =>
      cases hEnds
      rw [hCall, Option.some.injEq] at hOther
      subst hOther
      exact absurd (hQueued.symm.trans hPhase) nofun
  | timeOut hOther hPhase =>
      cases hEnds
      rw [hCall, Option.some.injEq] at hOther
      subst hOther
      exact absurd (hQueued.symm.trans hPhase) nofun
  | drop =>
      cases hEnds
      exact (hClears _ hCall).2 hRunning hMem
  | takeReply hRunning hArrived hId hFound =>
      cases hEnds
      have hAgain : Step config s _ _ :=
        .takeReply hRunning hArrived hId hFound
      exact (hTidy.phase_of_taken hAgain hCall).2 hQueued
  | _ => cases hEnds

/- A command in the channel was there, or has been sent. -/
theorem Step.queue_cases
    {s s' : State} {e : Event}
    (hStep : Step config s e s')
    {command : ProxyCommand}
    (hMem : command ∈ s'.queue) :
    command ∈ s.queue ∨ e.sent? = some command := by
  cases hStep with
  | register =>
      rcases List.mem_append.mp hMem with hOld | hNew
      · exact Or.inl hOld
      · exact Or.inr (by rw [List.mem_singleton.mp hNew]; rfl)
  | failDispatch =>
      rcases List.mem_append.mp hMem with hOld | hNew
      · exact Or.inl hOld
      · exact Or.inr (by simpa [Event.sent?] using hNew)
  | timeOut =>
      rcases List.mem_append.mp hMem with hOld | hNew
      · exact Or.inl hOld
      · exact Or.inr (by simpa [Event.sent?] using hNew)
  | takeRegister _ hQueue =>
      rw [hQueue]
      exact Or.inl (List.mem_cons_of_mem _ hMem)
  | takeCancel _ hQueue =>
      rw [hQueue]
      exact Or.inl (List.mem_cons_of_mem _ hMem)
  | _ => exact Or.inl hMem

/- A command stays in the channel until it is taken. -/
theorem Step.queue_persists
    {s s' : State} {e : Event}
    (hStep : Step config s e s')
    {command : ProxyCommand}
    (hMem : command ∈ s.queue)
    (hNot : e.taken? ≠ some command) :
    command ∈ s'.queue := by
  cases hStep with
  | register => exact List.mem_append_left _ hMem
  | failDispatch => exact List.mem_append_left _ hMem
  | timeOut => exact List.mem_append_left _ hMem
  | takeRegister _ hQueue =>
      rw [hQueue] at hMem
      rcases List.mem_cons.mp hMem with rfl | hRest
      · exact absurd rfl hNot
      · exact hRest
  | takeCancel _ hQueue =>
      rw [hQueue] at hMem
      rcases List.mem_cons.mp hMem with rfl | hRest
      · exact absurd rfl hNot
      · exact hRest
  | _ => exact hMem

/- An entry is new, or it was there and nobody has taken it. -/
theorem Step.pending_cases
    {s s' : State} {e : Event}
    (hStep : Step config s e s')
    {id : String} {c : CallId}
    (hPending : s'.pending id = some c) :
    e = .registered id c ∨
      (s.pending id = some c ∧
        e.taken? ≠ some (.cancel id) ∧
        ∀ c', e.ticket? ≠ some (.redeemed id (some c'))) := by
  cases hStep with
  | @takeRegister id' c' rest =>
      by_cases hSame : id = id'
      · subst hSame
        have hEq : c' = c := by simpa using hPending
        subst hEq
        exact Or.inl rfl
      · refine Or.inr
          ⟨?_, by simp [Event.taken?], by simp [Event.ticket?]⟩
        simpa [Function.update_of_ne hSame] using hPending
  | @takeCancel id' rest =>
      by_cases hSame : id = id'
      · subst hSame
        simp at hPending
      · refine Or.inr ⟨?_, ?_, ?_⟩
        · simpa [Function.update_of_ne hSame] using hPending
        · simp [Event.taken?, Ne.symm hSame]
        · simp [Event.ticket?, Ne.symm hSame]
  | @takeReply message id' c' _ _ hId =>
      by_cases hSame : id = id'
      · subst hSame
        simp at hPending
      · refine Or.inr ⟨?_, by simp [Event.taken?], ?_⟩
        · simpa [Function.update_of_ne hSame] using hPending
        · simp [Event.ticket?, hId, Ne.symm hSame]
  | @discard message =>
      refine Or.inr ⟨hPending, by simp [Event.taken?], ?_⟩
      cases h : correlationId? message <;>
        simp [Event.ticket?, h]
  | stop => cases hPending
  | _ =>
      exact Or.inr ⟨hPending, by simp [Event.taken?],
        by simp [Event.ticket?]⟩

/- A stopped reply task does not start again. -/
theorem Step.running_of
    {s s' : State} {e : Event}
    (hStep : Step config s e s')
    (hRunning : s'.running = true) :
    s.running = true := by
  cases hStep with
  | stop => cases hRunning
  | _ => exact hRunning

/- The registration that the reply task takes is the last. -/
theorem once_of_taken
    {trace : List Event} {s s' : State} {id : String}
    {c c' : CallId}
    (hReach : (lts config).Reachable trace s)
    (hStep : Step config s (.registered id c) s') :
    ProxyCommand.register id c' ∉ s'.queue := by
  have hOnce := registering_once hReach
  rw [commands_fifo hReach, List.filterMap_append] at hOnce
  have hQueued := hOnce.of_append_right
  cases hStep with
  | @takeRegister _ _ rest _ hQueue =>
      rw [hQueue] at hQueued
      intro hMem
      have hName :
          id ∈ rest.filterMap ProxyCommand.registers? :=
        List.mem_filterMap.mpr ⟨_, hMem, rfl⟩
      exact (List.nodup_cons.mp hQueued).1 hName

/- Who is confirmed awaits the reply. -/
theorem Tidy.awaits_of_registered
    {s s' : State} {id : String} {c : CallId}
    (hTidy : Tidy s)
    (hStep : Step config s (.registered id c) s') :
    ∃ call, s'.calls c = some call ∧
      call.request.correlationId = id ∧ call.Awaits := by
  cases hStep with
  | takeRegister hRunning hQueue =>
      rcases hTidy.queued hRunning id c (by simp [hQueue])
        with ⟨call, hCall, hId, hPhase, hSlot⟩
      refine ⟨{ call with phase := .registered }, ?_, hId,
        Or.inl rfl, hSlot⟩
      simp [State.confirm, hCall, hPhase]

/- Who ends a call in the table cancels its entry. -/
theorem Tidy.doomed_of_ends
    {s s' : State} {e : Event} {id : String} {c : CallId}
    {call : Call}
    (hTidy : Tidy s)
    (hStep : Step config s e s')
    (hClears : s.Clears e)
    (hPending : s.pending id = some c)
    (hCall : s.calls c = some call)
    (hId : call.request.correlationId = id)
    (hEnds : e.Ends c)
    (hKept : s'.pending id = some c) :
    ∃ after, s'.calls c = some after ∧
      after.request.correlationId = id ∧
        s'.Doomed after := by
  subst hId
  have hRunning : s.running = true := by
    by_contra hStopped
    rw [hTidy.stopped (by simpa using hStopped)] at hPending
    cases hPending
  have hCancel :
      s.Cancels call.request.correlationId →
        s.tryCancel call.request.correlationId =
          some (.cancel call.request.correlationId) := by
    rintro (hNone | hRoom)
    · rw [hPending] at hNone
      cases hNone
    · exact if_pos ⟨hRunning, hRoom⟩
  cases hStep with
  | failDispatch hOther =>
      cases hEnds
      rw [hCall, Option.some.injEq] at hOther
      subst hOther
      refine ⟨_, setCall_self _ _ _, rfl, trivial, ?_⟩
      simp [State.setCall, hCancel (hClears _ hCall)]
  | timeOut hOther =>
      cases hEnds
      rw [hCall, Option.some.injEq] at hOther
      subst hOther
      refine ⟨_, setCall_self _ _ _, rfl, trivial, ?_⟩
      simp [State.setCall, hCancel (hClears _ hCall)]
  | drop =>
      cases hEnds
      have hNone := (hClears _ hCall).1
      rw [hPending] at hNone
      cases hNone
  | @takeReply message id' c' _ _ _ hFound =>
      cases hEnds
      rcases hTidy.owned _ _ hFound with
        ⟨owner, hOwner, hSame, _⟩
      rw [hCall, Option.some.injEq] at hOwner
      subst hOwner
      rw [hSame] at hKept
      simp at hKept
  | _ => cases hEnds

theorem tidy_step
    {trace : List Event} {s s' : State} {e : Event}
    (hReach : (lts config).Reachable trace s)
    (hStep : Step config s e s')
    (hClears : s.Clears e)
    (hTidy : Tidy s) :
    Tidy s' where
  stopped := by
    intro hStopped id
    cases hStep with
    | stop => rfl
    | takeRegister hRunning =>
        exact absurd (hRunning.symm.trans hStopped) nofun
    | takeCancel hRunning =>
        exact absurd (hRunning.symm.trans hStopped) nofun
    | takeReply hRunning =>
        exact absurd (hRunning.symm.trans hStopped) nofun
    | _ => exact hTidy.stopped hStopped id
  starting := by
    intro c call' hAfter hPhase
    rcases Step.call_cases hStep hAfter with
      ⟨_, _, _, _, rfl⟩ | ⟨call, hCall, hMove⟩
    · rfl
    · cases hMove with
      | same => exact hTidy.starting c call' hCall hPhase
      | hand =>
          exact absurd hPhase
            (hTidy.phase_of_taken hStep hCall).1
      | _ => cases hPhase
  queued := by
    intro hRunning' id c hMem
    have hRunning := Step.running_of hStep hRunning'
    rcases Step.queue_cases hStep hMem with hOld | hNew
    · rcases hTidy.queued hRunning id c hOld with
        ⟨call, hCall, hId, hPhase, hSlot⟩
      rcases queued_cases hReach hStep hCall hPhase hSlot with
        ⟨call', hAfter, hRequest, hRest⟩ |
          ⟨id', rfl⟩ | hEnds | hStopped
      · exact ⟨call', hAfter, by rw [hRequest, hId], hRest⟩
      · -- a registration that is taken is in the channel once
        have hSame : id = id' := by
          rcases hTidy.awaits_of_registered hStep with
            ⟨after, hAfter, hId', _⟩
          rcases call_moves hReach hStep hCall with
            ⟨after', hAfter', hMove⟩
          rw [hAfter, Option.some.injEq] at hAfter'
          subst hAfter'
          rw [← hId, ← hId', hMove.request]
        subst hSame
        exact absurd hMem (once_of_taken hReach hStep)
      · exact absurd hEnds
          (hTidy.not_ends_of_queued hStep hClears hRunning
            hCall hPhase (hId ▸ hOld))
      · exact absurd (hRunning.symm.trans hStopped) nofun
    · cases hStep with
      | @register c' call hCall hPhase =>
          cases hNew
          exact ⟨_, setCall_self _ _ _, rfl, rfl,
            hTidy.starting c call hCall hPhase⟩
      | failDispatch =>
          simp only [Event.sent?, State.tryCancel] at hNew
          split at hNew <;> cases hNew
      | timeOut =>
          simp only [Event.sent?, State.tryCancel] at hNew
          split at hNew <;> cases hNew
      | _ => cases hNew
  owned := by
    intro id c hPending'
    rcases Step.pending_cases hStep hPending' with
      rfl | ⟨hPending, hNotTaken, _⟩
    · rcases hTidy.awaits_of_registered hStep with
        ⟨call, hCall, hId, hAwaits⟩
      exact ⟨call, hCall, hId, Or.inl hAwaits⟩
    rcases hTidy.owned id c hPending with
      ⟨call, hCall, hId, hAwaits | hDoomed⟩
    · rcases awaits_cases hReach hStep hCall hAwaits with
        ⟨call', hAfter, hRequest, hNext⟩ | hEnds | hStopped
      · exact ⟨call', hAfter, by rw [hRequest, hId],
          Or.inl hNext⟩
      · rcases hTidy.doomed_of_ends hStep hClears hPending
          hCall hId hEnds hPending' with
          ⟨after, hAfter, hId', hDoomed⟩
        exact ⟨after, hAfter, hId', Or.inr hDoomed⟩
      · rw [hTidy.stopped hStopped] at hPending
        cases hPending
    · rcases closed_persists hReach hStep hCall hDoomed.1 with
        ⟨call', hAfter, hRequest, hNext⟩
      refine ⟨call', hAfter, by rw [hRequest, hId],
        Or.inr ⟨hNext, ?_⟩⟩
      rw [hRequest]
      exact Step.queue_persists hStep hDoomed.2
        (hId ▸ hNotTaken)

theorem tidy_start : Tidy State.start where
  stopped _ _ := rfl
  starting c call hCall := by cases hCall
  queued _ id c hMem := by cases hMem
  owned id c hPending := by cases hPending

/- So it is in every run whose steps clear the table. -/
theorem tidy_of_reachable
    {trace : List Event} {s : State}
    (hReach :
      ((lts config).restrict State.Clears).Reachable
        trace s) :
    Tidy s := by
  induction hReach with
  | initial hInitial =>
      subst hInitial
      exact tidy_start
  | step hReach hStep ih =>
      exact tidy_step hReach.of_restrict hStep.1 hStep.2 ih

/-
  In such a run every pending id belongs to a call that
  awaits its reply, or its cancellation is in the channel; so
  after all calls have returned and the channel is drained
  the table is empty.
-/
theorem pending_awaited
    {trace : List Event} {s : State}
    (hReach :
      ((lts config).restrict State.Clears).Reachable
        trace s) :
    (∀ id c, s.pending id = some c →
      ∃ call, s.calls c = some call ∧
        call.request.correlationId = id ∧
          (call.Awaits ∨
            ProxyCommand.cancel id ∈ s.queue)) ∧
    ((∀ c call, s.calls c = some call → call.phase.Closed) →
      s.queue = [] → ∀ id, s.pending id = none) := by
  have hTidy := tidy_of_reachable hReach
  have hOwned : ∀ id c, s.pending id = some c →
      ∃ call, s.calls c = some call ∧
        call.request.correlationId = id ∧
          (call.Awaits ∨
            ProxyCommand.cancel id ∈ s.queue) := by
    intro id c hPending
    rcases hTidy.owned id c hPending with
      ⟨call, hCall, rfl, hAwaits | hDoomed⟩
    · exact ⟨call, hCall, rfl, Or.inl hAwaits⟩
    · exact ⟨call, hCall, rfl, Or.inr hDoomed.2⟩
  refine ⟨hOwned, ?_⟩
  intro hClosed hDrained id
  cases hPending : s.pending id with
  | none => rfl
  | some c =>
      rcases hOwned id c hPending with
        ⟨call, hCall, _, hAwaits | hCancel⟩
      · have hEnded := hClosed c call hCall
        rcases hAwaits.1 with h | h | h <;>
          simp [h, CallPhase.Closed] at hEnded
      · rw [hDrained] at hCancel
        cases hCancel

end Proxy

end Router

end Qanat

------------------------------------------------------------
-- A Full Channel
------------------------------------------------------------

namespace Qanat

namespace Router

namespace Proxy

open Transition
open Bus (RawMessage)

def crowdConfig : Config where
  pattern := "orders"
  replySubject := "replies"
  contentType := none

def crowdId (n : Nat) : String :=
  String.ofList (List.replicate n 'a')

theorem crowdId_injective {m n : Nat}
    (hSame : crowdId m = crowdId n) : m = n := by
  have hLists := String.ofList_injective hSame
  simpa using congrArg List.length hLists

/- The request of the `n`th call. -/
def crowdRequest (n : Nat) : Request where
  headers := ∅
  payload := .ok []
  correlationId := crowdId n
  messageId := "message"
  requestId := 0

def crowdCall (phase : CallPhase) : Call where
  request := crowdRequest 0
  phase := phase
  dispatched := true
  slot := none

/-
  The first call waits for its reply, and `n` more have sent
  their registrations, which nobody has taken yet.
-/
structure Crowded (n : Nat) (s : State) : Prop where
  running : s.running = true
  quiet : s.arrived = []
  next : s.nextCall = n + 1
  first : s.calls 0 = some (crowdCall .waiting)
  pending : s.pending (crowdId 0) = some 0
  ids : ∀ c call, s.calls c = some call →
    call.request.correlationId = crowdId c
  length : s.queue.length = n
  unblocked : s.blocked = []
  uncancelled : ProxyCommand.cancel (crowdId 0) ∉ s.queue

/- No call of the crowd has the id of the next. -/
theorem Crowded.fresh
    {n : Nat} {trace : List Event} {s : State}
    (hCrowded : Crowded n s)
    (hReach : (lts crowdConfig).Reachable trace s) :
    s.Fresh (crowdId (n + 1)) := by
  refine ⟨?_, by simp [hCrowded.quiet]⟩
  intro c call hCall hId
  have hSame : c = n + 1 := by
    apply crowdId_injective
    rw [← hCrowded.ids c call hCall, hId]
  have hBound := call_lt hReach hCall
  rw [hCrowded.next, hSame] at hBound
  exact absurd hBound (Nat.lt_irrefl _)

theorem crowded_zero :
    ∃ trace s, ((lts crowdConfig).restrict
      State.Clears).Reachable trace s ∧ Crowded 0 s := by
  have h : ((lts crowdConfig).restrict
      State.Clears).Reachable [] State.start :=
    .initial rfl
  have hFresh : State.start.Fresh (crowdId 0) := by
    constructor
    · intro c call hCall
      cases hCall
    · intro message hMem
      cases hMem
  have h := h.step ⟨.call (crowdRequest 0) hFresh, trivial⟩
  have h := h.step
    ⟨@Step.register _ _ 0 _ rfl rfl rfl (by decide), trivial⟩
  have h := h.step ⟨.takeRegister rfl rfl, trivial⟩
  have h := h.step
    ⟨@Step.dispatch _ _ 0 _ _ rfl rfl rfl, trivial⟩
  have h := h.step
    ⟨@Step.finishDispatch _ _ 0 _ rfl rfl, trivial⟩
  refine ⟨_, _, h, rfl, rfl, rfl, rfl, rfl, ?_, rfl, rfl,
    List.not_mem_nil⟩
  intro c call hCall
  have hFirst := call_lt h.of_restrict hCall
  have hZero : c = 0 := Nat.lt_one_iff.mp hFirst
  subst hZero
  have hSame := hCall.symm.trans
    (show _ = some (crowdCall .waiting) from rfl)
  rw [Option.some.injEq] at hSame
  rw [hSame]
  rfl

/- One more call joins the crowd while there is room. -/
theorem Crowded.join
    {n : Nat} {trace : List Event} {s : State}
    (hReach : ((lts crowdConfig).restrict
      State.Clears).Reachable trace s)
    (hCrowded : Crowded n s)
    (hRoom : n < commandCapacity) :
    ∃ trace' s', ((lts crowdConfig).restrict
      State.Clears).Reachable trace' s' ∧
        Crowded (n + 1) s' := by
  have hNext := hCrowded.next
  have hCalled := hReach.step
    ⟨.call (crowdRequest (n + 1))
      (hCrowded.fresh hReach.of_restrict), trivial⟩
  have hSent := hCalled.step
    ⟨.register (setCall_self _ _ _) rfl hCrowded.running
      (by simpa [State.MaySend, State.granted, State.HasRoom,
        State.setCall, hCrowded.length,
        hCrowded.unblocked] using hRoom),
      trivial⟩
  refine ⟨_, _, hSent, ?_⟩
  constructor
  case running => exact hCrowded.running
  case quiet => exact hCrowded.quiet
  case next => simp [State.setCall, hNext]
  case first =>
    have hOther : 0 ≠ s.nextCall := by
      rw [hNext]
      exact (Nat.succ_ne_zero n).symm
    rw [setCall_of_ne _ _ hOther, ← hCrowded.first]
    exact setCall_of_ne _ _ hOther
  case pending => exact hCrowded.pending
  case ids =>
    intro c call hCall
    by_cases hSame : c = s.nextCall
    · rw [hSame, setCall_self, Option.some.injEq] at hCall
      rw [← hCall, hSame, hNext]
      rfl
    · rw [setCall_of_ne _ _ hSame] at hCall
      apply hCrowded.ids c call
      rw [← hCall]
      exact (setCall_of_ne s _ hSame).symm
  case length => simp [State.setCall, hCrowded.length]
  case unblocked =>
    simp [State.setCall, State.unblock, hCrowded.unblocked]
  case uncancelled =>
    simpa [State.setCall] using hCrowded.uncancelled

theorem crowded_of_le
    (n : Nat) (hBound : n ≤ commandCapacity) :
    ∃ trace s, ((lts crowdConfig).restrict
      State.Clears).Reachable trace s ∧ Crowded n s := by
  induction n with
  | zero => exact crowded_zero
  | succ n ih =>
      rcases ih (Nat.le_of_succ_le hBound) with
        ⟨trace, s, hReach, hCrowded⟩
      exact hCrowded.join hReach hBound

/-
  The first call times out while the channel is full, and its
  entry stays in the table.
-/
theorem timedOut_stays_pending :
    ∃ trace s call,
      (lts crowdConfig).Reachable trace s ∧
        s.pending (crowdId 0) = some 0 ∧
          s.calls 0 = some call ∧
            call.phase = .returned .timedOut ∧
              ProxyCommand.cancel (crowdId 0) ∉ s.queue := by
  rcases crowded_of_le commandCapacity (Nat.le_refl _) with
    ⟨trace, s, hReach, hCrowded⟩
  have hLost : s.tryCancel (crowdId 0) = none := by
    simp [State.tryCancel, State.HasRoom, hCrowded.length,
      hCrowded.unblocked]
  have hOut := hReach.of_restrict.step
    (.timeOut hCrowded.first rfl)
  refine ⟨_, _, _, hOut, hCrowded.pending, setCall_self _ _ _,
    rfl, ?_⟩
  have hSame :
      (crowdCall .waiting).request.correlationId =
        crowdId 0 := rfl
  rw [hSame, hLost]
  simpa [State.setCall] using hCrowded.uncancelled

/- With room in the channel the cancellation is under way. -/
theorem pending_awaited_timedOut :
    ∃ trace s call,
      ((lts crowdConfig).restrict State.Clears).Reachable
        trace s ∧
        s.pending (crowdId 0) = some 0 ∧
          s.calls 0 = some call ∧
            call.phase = .returned .timedOut ∧
              ProxyCommand.cancel (crowdId 0) ∈ s.queue := by
  rcases crowded_of_le 0 (Nat.zero_le _) with
    ⟨trace, s, hReach, hCrowded⟩
  have hRoom : s.Clears (.timedOut 0
      (s.tryCancel (crowdId 0))) := by
    intro call _
    right
    rw [State.HasRoom, hCrowded.length, hCrowded.unblocked]
    decide
  have hOut := hReach.step
    ⟨.timeOut hCrowded.first rfl, hRoom⟩
  have hCall := setCall_self (({ s with
    queue := s.queue ++
      (s.tryCancel (crowdId 0)).toList } : State)) 0
      { crowdCall .waiting with phase := .returned .timedOut }
  refine ⟨_, _, _, hOut, hCrowded.pending, hCall, rfl, ?_⟩
  rcases (pending_awaited hOut).1 (crowdId 0) 0
    hCrowded.pending with ⟨call, hOwner, _, hAwaits | hCancel⟩
  · have hSame := hOwner.symm.trans hCall
    rw [Option.some.injEq] at hSame
    subst hSame
    simp [Call.Awaits] at hAwaits
  · exact hCancel

end Proxy

end Router

end Qanat
