import Qanat.Library.Lists
import Qanat.Router.Proxy.Calls

/-
  Requests and replies of a broker proxy: which message on
  the reply subject a call receives.

  Main declarations:
    * `found_iff`, `registered_before_taken`
    * `request_of_taken`, `first_of_taken`
    * `Event.GivesUp`, `settled_of_discarded`
-/

------------------------------------------------------------
-- Registrations as Tickets
------------------------------------------------------------

namespace Qanat

namespace Router

namespace Proxy

open Transition
open Bus (RawMessage)

/- A registration is a ticket for its correlation id. -/
def Event.ticket? :
    Event → Option (Tickets.Event String CallId)
| .registered correlationId c =>
    some (.issued correlationId c)
| .cancelled correlationId found =>
    some (.redeemed correlationId found)
| .taken _ message found =>
    (correlationId? message).map
      (fun correlationId => .redeemed correlationId found)
| _ => none

variable {config : Config}

/- While the reply task runs, its table holds the tickets. -/
theorem tickets_of_reachable
    {trace : List Event} {s : State}
    (hReach : (lts config).Reachable trace s) :
    ∃ table, (Tickets.lts String CallId).Reachable
      (trace.filterMap Event.ticket?) table := by
  have hRun := hReach.simulate
    (N := Tickets.lts String CallId) Event.ticket?
    (fun _ s table => s.running = true → table = s.pending)
    ?initial ?step
  case initial =>
    rintro s rfl
    exact ⟨fun _ => none, rfl, fun _ => rfl⟩
  case step =>
    intro trace s e s' table _ hTable hStep
    cases hStep with
    | takeRegister hRunning =>
        have hSame := hTable hRunning
        subst hSame
        exact ⟨_, fun _ => rfl, .issue _ _⟩
    | takeCancel hRunning =>
        have hSame := hTable hRunning
        subst hSame
        exact ⟨_, fun _ => rfl, .redeem _⟩
    | @takeReply message correlationId c hRunning _ hId
        hFound =>
        have hSame := hTable hRunning
        subst hSame
        refine ⟨_, fun _ => rfl, ?_⟩
        simpa [Event.ticket?, hId] using
          Tickets.step_redeem s.pending hFound
    | @discard message hRunning _ hNone =>
        have hSame := hTable hRunning
        subst hSame
        refine ⟨s.pending, fun _ => rfl, ?_⟩
        cases hId : correlationId? message with
        | none => simp [Event.ticket?, hId]
        | some correlationId =>
            rw [hId] at hNone
            simpa [Event.ticket?, hId] using
              Tickets.step_miss s.pending hNone
    | stop => exact ⟨table, nofun, rfl⟩
    | _ => exact ⟨table, hTable, rfl⟩
  rcases hRun with ⟨table, hTickets, _⟩
  exact ⟨table, hTickets⟩

/- The correlation id that a command registers. -/
def ProxyCommand.registers? : ProxyCommand → Option String
| .register correlationId _ => some correlationId
| .cancel _ => none

theorem registers_tryCancel
    (s : State) (correlationId : String) :
    (s.tryCancel correlationId).bind
      ProxyCommand.registers? = none := by
  unfold State.tryCancel
  split <;> rfl

/- Correlation ids are sent for registration once. -/
theorem registering_once
    {trace : List Event} {s : State}
    (hReach : (lts config).Reachable trace s) :
    ((trace.filterMap Event.sent?).filterMap
      ProxyCommand.registers?).Nodup := by
  rw [List.filterMap_filterMap]
  induction hReach with
  | initial => exact List.nodup_nil
  | @step trace s s' e hReach hStep ih =>
      rw [List.filterMap_append, List.nodup_append]
      refine ⟨ih, ?_, ?_⟩
      · cases h : e.sent?.bind ProxyCommand.registers? <;>
          simp [h]
      intro correlationId hMem other hOther hSame
      subst hSame
      have hNew :
          e.sent?.bind ProxyCommand.registers? =
            some correlationId := by
        simpa using hOther
      rw [← List.filterMap_filterMap] at hMem
      rcases List.mem_filterMap.mp hMem with
        ⟨command, hSent, hName⟩
      cases hStep with
      | @register c call hCall hPhase =>
          have hId :
              call.request.correlationId = correlationId := by
            simpa [Event.sent?, ProxyCommand.registers?]
              using hNew
          cases command with
          | cancel => cases hName
          | register _ c' =>
              cases hName
              rcases call_of_registering hReach
                  (registering_of_sent hReach hSent) with
                ⟨call', hCall', hId', hPhase'⟩
              have hEq := correlationId_injective hReach
                hCall' hCall (by rw [hId', hId])
              subst hEq
              rw [hCall, Option.some.injEq] at hCall'
              subst hCall'
              exact hPhase' hPhase
      | failDispatch =>
          rw [Event.sent?, registers_tryCancel] at hNew
          cases hNew
      | timeOut =>
          rw [Event.sent?, registers_tryCancel] at hNew
          cases hNew
      | _ => cases hNew

theorem issued_once
    {trace : List Event} {s : State}
    (hReach : (lts config).Reachable trace s) :
    ((trace.filterMap Event.ticket?).filterMap
      Tickets.Event.issue?).Nodup := by
  have hIssued :
      (trace.filterMap Event.ticket?).filterMap
          Tickets.Event.issue? =
        (trace.filterMap Event.taken?).filterMap
          ProxyCommand.registers? := by
    rw [List.filterMap_filterMap, List.filterMap_filterMap]
    apply List.filterMap_congr
    intro e _
    cases e with
    | taken _ message _ =>
        cases h : correlationId? message <;>
          simp [Event.ticket?, Event.taken?, h,
            Tickets.Event.issue?]
    | _ => rfl
  have hOnce := registering_once hReach
  rw [commands_fifo hReach, List.filterMap_append] at hOnce
  rw [hIssued]
  exact hOnce.of_append_left

/-
  Who asks for a correlation id finds the call that was
  registered under it, unless somebody has found it before.
-/
theorem found_iff
    {trace earlier later : List Event} {s : State}
    (hReach : (lts config).Reachable trace s)
    {e : Event} {correlationId : String}
    {found : Option CallId}
    (hTrace : trace = earlier ++ e :: later)
    (hAsks :
      e.ticket? = some (.redeemed correlationId found))
    (c : CallId) :
    found = some c ↔
      Event.registered correlationId c ∈ earlier ∧
        ∀ e' ∈ earlier, ∀ other,
          e'.ticket? ≠
            some (.redeemed correlationId (some other)) := by
  rcases tickets_of_reachable hReach with ⟨table, hTickets⟩
  have hSplit :
      trace.filterMap Event.ticket? =
        earlier.filterMap Event.ticket? ++
          .redeemed correlationId found ::
            later.filterMap Event.ticket? := by
    rw [hTrace, List.filterMap_append,
      List.filterMap_cons_some hAsks]
  rw [Tickets.redeemed_iff_of_once hTickets
    (issued_once hReach) hSplit]
  apply and_congr
  · constructor
    · intro hMem
      rcases List.mem_filterMap.mp hMem with ⟨e', hE, hIssue⟩
      cases e' with
      | registered _ _ =>
          cases hIssue
          exact hE
      | taken _ message _ =>
          cases h : correlationId? message <;>
            simp [Event.ticket?, h] at hIssue
      | _ => cases hIssue
    · intro hMem
      exact List.mem_filterMap.mpr ⟨_, hMem, rfl⟩
  · constructor
    · intro hNone e' hE other hFound
      exact hNone other
        (List.mem_filterMap.mpr ⟨e', hE, hFound⟩)
    · intro hNone other hMem
      rcases List.mem_filterMap.mp hMem with ⟨e', hE, hFound⟩
      exact hNone e' hE other hFound

end Proxy

end Router

end Qanat

------------------------------------------------------------
-- Messages on the Reply Subject
------------------------------------------------------------

namespace Qanat

namespace Router

namespace Proxy

open Transition
open Bus (RawMessage)

variable {config : Config}

/- A message keeps its position. -/
theorem arrived_iff
    {trace : List Event} {s : State}
    (hReach : (lts config).Reachable trace s)
    (position : Nat) (message : RawMessage) :
    Event.arrived position message ∈ trace ↔
      s.arrived[position]? = some message := by
  induction hReach with
  | initial hInitial =>
      subst hInitial
      simp [State.start]
  | @step trace s s' e hReach hStep ih =>
      rw [List.mem_append, List.mem_singleton, ih]
      cases hStep with
      | arrive other =>
          rw [Lists.getElem?_append_singleton_eq_some]
          simp
      | _ => simp [State.setCall]

/- The reply task takes every message once, in their order. -/
theorem taken_lt
    {trace : List Event} {s : State}
    (hReach : (lts config).Reachable trace s)
    {position : Nat} {message : RawMessage}
    {found : Option CallId}
    (hTaken : Event.taken position message found ∈ trace) :
    position < s.read ∧
      s.arrived[position]? = some message := by
  induction hReach with
  | initial => cases hTaken
  | @step trace s s' e hReach hStep ih =>
      rcases List.mem_append.mp hTaken with hOld | hNew
      · rcases ih hOld with ⟨hRead, hArrived⟩
        cases hStep with
        | arrive other =>
            exact ⟨hRead,
              Lists.getElem?_append_singleton_eq_some.mpr
                (Or.inl hArrived)⟩
        | takeReply =>
            exact ⟨Nat.lt_succ_of_lt hRead, hArrived⟩
        | discard =>
            exact ⟨Nat.lt_succ_of_lt hRead, hArrived⟩
        | _ => exact ⟨hRead, hArrived⟩
      · rw [List.mem_singleton] at hNew
        subst hNew
        cases hStep with
        | takeReply _ hArrived =>
            exact ⟨Nat.lt_succ_self _, hArrived⟩
        | discard _ hArrived =>
            exact ⟨Nat.lt_succ_self _, hArrived⟩

theorem taken_of_lt
    {trace : List Event} {s : State}
    (hReach : (lts config).Reachable trace s)
    {position : Nat}
    (hRead : position < s.read) :
    ∃ message found,
      Event.taken position message found ∈ trace := by
  induction hReach with
  | initial hInitial =>
      subst hInitial
      cases hRead
  | @step trace s s' e hReach hStep ih =>
      have hCases :
          position < s.read ∨
            ∃ message found,
              e = .taken position message found := by
        cases hStep with
        | takeReply =>
            rcases Nat.lt_succ_iff_lt_or_eq.mp hRead with
              hOld | rfl
            · exact Or.inl hOld
            · exact Or.inr ⟨_, _, rfl⟩
        | discard =>
            rcases Nat.lt_succ_iff_lt_or_eq.mp hRead with
              hOld | rfl
            · exact Or.inl hOld
            · exact Or.inr ⟨_, _, rfl⟩
        | _ => exact Or.inl hRead
      rcases hCases with hOld | ⟨message, found, rfl⟩
      · rcases ih hOld with ⟨message, found, hMem⟩
        exact ⟨message, found, List.mem_append_left _ hMem⟩
      · exact ⟨message, found,
          List.mem_append_right _ List.mem_cons_self⟩

/- What a message is taken with. -/
theorem Step.taken_cases
    {s s' : State} {position : Nat} {message : RawMessage}
    {found : Option CallId}
    (hStep :
      Step config s (.taken position message found) s') :
    position = s.read ∧ s.arrived[s.read]? = some message := by
  cases hStep with
  | takeReply _ hArrived => exact ⟨rfl, hArrived⟩
  | discard _ hArrived => exact ⟨rfl, hArrived⟩

theorem taken_unique
    {trace : List Event} {s : State}
    (hReach : (lts config).Reachable trace s)
    {position : Nat} {message message' : RawMessage}
    {found found' : Option CallId}
    (hTaken : Event.taken position message found ∈ trace)
    (hTaken' : Event.taken position message' found' ∈ trace) :
    message = message' ∧ found = found' := by
  induction hReach with
  | initial => cases hTaken
  | @step trace s s' e hReach hStep ih =>
      rcases List.mem_append.mp hTaken with hOld | hNew
      · rcases List.mem_append.mp hTaken' with hOld' | hNew'
        · exact ih hOld hOld'
        · rw [List.mem_singleton] at hNew'
          subst hNew'
          rw [(Step.taken_cases hStep).1] at hOld
          exact absurd (taken_lt hReach hOld).1
            (Nat.lt_irrefl _)
      · rw [List.mem_singleton] at hNew
        subst hNew
        rcases List.mem_append.mp hTaken' with hOld' | hNew'
        · rw [(Step.taken_cases hStep).1] at hOld'
          exact absurd (taken_lt hReach hOld').1
            (Nat.lt_irrefl _)
        · rw [List.mem_singleton] at hNew'
          cases hNew'
          exact ⟨rfl, rfl⟩

end Proxy

end Router

end Qanat

------------------------------------------------------------
-- Registered Before the Reply
------------------------------------------------------------

namespace Qanat

namespace Router

namespace Proxy

open Transition
open Bus (RawMessage)

variable {config : Config}

/- A call is made before a reply to it is taken. -/
theorem called_before_taken
    {trace earlier later : List Event} {s : State}
    (hReach : (lts config).Reachable trace s)
    {c : CallId} {request : Request} {position : Nat}
    {message : RawMessage} {found : Option CallId}
    (hTrace :
      trace =
        earlier ++ .taken position message found :: later)
    (hCalled : Event.called c request ∈ trace)
    (hBears :
      correlationId? message =
        some request.correlationId) :
    Event.called c request ∈ earlier := by
  rw [hTrace] at hCalled
  rcases List.mem_append.mp hCalled with hBefore | hAfter
  · exact hBefore
  have hLater : Event.called c request ∈ later := by
    rcases List.mem_cons.mp hAfter with hEq | hLater
    · cases hEq
    · exact hLater
  rcases List.mem_iff_append.mp hLater with
    ⟨between, rest, rfl⟩
  have hSplit :
      trace =
        (earlier ++ .taken position message found ::
          between) ++ .called c request :: rest := by
    rw [hTrace]
    simp
  rcases hReach.before hSplit with ⟨r, r', hBefore, hStep⟩
  have hTaken :
      Event.taken position message found ∈
        earlier ++ .taken position message found ::
          between := by
    simp
  have hArrived := (taken_lt hBefore hTaken).2
  cases hStep with
  | call _ hFresh =>
      exact absurd hBears
        (hFresh.2 message (List.mem_of_getElem? hArrived))

/- So is its registration, which the reply task then has. -/
theorem registered_before_taken
    {trace earlier later : List Event} {s : State}
    (hReach : (lts config).Reachable trace s)
    {c : CallId} {request : Request} {position : Nat}
    {message : RawMessage} {found : Option CallId}
    (hTrace :
      trace =
        earlier ++ .taken position message found :: later)
    (hCalled : Event.called c request ∈ trace)
    (hBears :
      correlationId? message =
        some request.correlationId) :
    Event.registered request.correlationId c ∈ earlier := by
  have hMade :=
    called_before_taken hReach hTrace hCalled hBears
  rcases hReach.before hTrace with ⟨r, r', hBefore, hStep⟩
  rcases call_of_called hBefore hMade with
    ⟨call, hCall, rfl⟩
  have hArrived :=
    List.mem_of_getElem? (Step.taken_cases hStep).2
  have hDispatched :=
    dispatched_of_arrived hBefore hCall hArrived hBears
  exact registered_of_confirmed hBefore hCall
    (Or.inr hDispatched)

/- The caller has given its call up. -/
def Event.GivesUp (c : CallId) : Event → Prop
| .dispatchFailed c' _ _ => c' = c
| .timedOut c' _ => c' = c
| _ => False

theorem correlationId_of_tryCancel
    {s : State} {correlationId correlationId' : String}
    (hCancel :
      s.tryCancel correlationId =
        some (.cancel correlationId')) :
    correlationId = correlationId' := by
  unfold State.tryCancel at hCancel
  split at hCancel
  · simpa using hCancel
  · cases hCancel

/- A cancellation comes from the call that it names. -/
theorem givesUp_of_cancelled
    {trace : List Event} {s : State}
    (hReach : (lts config).Reachable trace s)
    {c : CallId} {call : Call} {found : Option CallId}
    (hCall : s.calls c = some call)
    (hCancelled :
      Event.cancelled call.request.correlationId found ∈
        trace) :
    ∃ e ∈ trace, e.GivesUp c := by
  have hSent :
      ProxyCommand.cancel call.request.correlationId ∈
        trace.filterMap Event.sent? := by
    rw [commands_fifo hReach]
    exact List.mem_append_left _
      (List.mem_filterMap.mpr ⟨_, hCancelled, rfl⟩)
  rcases List.mem_filterMap.mp hSent with ⟨e, hMem, hCommand⟩
  refine ⟨e, hMem, ?_⟩
  rcases hReach.step_of_mem hMem with
    ⟨_, _, r, r', hTrace, hBefore, hStep⟩
  have hSame :
      ∀ c' call', r.calls c' = some call' →
        call'.request.correlationId =
          call.request.correlationId → c' = c := by
    intro c' call' hCall' hId
    have hMade := called_of_call hBefore hCall'
    rcases call_of_called hReach
        (hTrace ▸ List.mem_append_left _ hMade) with
      ⟨after, hAfter, hRequest⟩
    exact correlationId_injective hReach hAfter hCall
      (by rw [hRequest, hId])
  cases hStep with
  | failDispatch hCall' =>
      exact hSame _ _ hCall'
        (correlationId_of_tryCancel hCommand)
  | timeOut hCall' =>
      exact hSame _ _ hCall'
        (correlationId_of_tryCancel hCommand)
  | _ => cases hCommand

end Proxy

end Router

end Qanat

------------------------------------------------------------
-- What a Call Receives
------------------------------------------------------------

namespace Qanat

namespace Router

namespace Proxy

open Transition
open Bus (RawMessage)

variable {config : Config}

/- Whom a message is handed to, it bears the id of. -/
theorem registered_of_taken
    {trace earlier later : List Event} {s : State}
    (hReach : (lts config).Reachable trace s)
    {c : CallId} {position : Nat} {message : RawMessage}
    (hTrace :
      trace =
        earlier ++ .taken position message (some c) ::
          later) :
    ∃ correlationId,
      correlationId? message = some correlationId ∧
        Event.registered correlationId c ∈ earlier := by
  rcases hReach.before hTrace with ⟨r, r', _, hStep⟩
  cases hStep with
  | @takeReply _ correlationId _ _ _ hId _ =>
      have hAsks :
          (Event.taken r.read message (some c)).ticket? =
            some (.redeemed correlationId (some c)) := by
        rw [Event.ticket?, hId]
        rfl
      exact ⟨_, hId,
        ((found_iff hReach hTrace hAsks c).mp rfl).1⟩

theorem request_of_taken
    {trace earlier later : List Event} {s : State}
    (hReach : (lts config).Reachable trace s)
    {c : CallId} {position : Nat} {message : RawMessage}
    (hTrace :
      trace =
        earlier ++ .taken position message (some c) ::
          later) :
    ∃ request, Event.called c request ∈ trace ∧
      correlationId? message =
        some request.correlationId := by
  rcases registered_of_taken hReach hTrace with
    ⟨correlationId, hBears, hRegistered⟩
  have hMem :
      Event.registered correlationId c ∈ trace := by
    rw [hTrace]
    exact List.mem_append_left _ hRegistered
  rcases call_of_registered hReach hMem with
    ⟨call, hCall, rfl, _⟩
  exact ⟨call.request, called_of_call hReach hCall, hBears⟩

/- The first message with the id of a call is handed to it. -/
theorem first_of_taken
    {trace : List Event} {s : State}
    (hReach : (lts config).Reachable trace s)
    {c : CallId} {request : Request}
    {position position' : Nat}
    {message message' : RawMessage}
    (hTaken : Event.taken position message (some c) ∈ trace)
    (hCalled : Event.called c request ∈ trace)
    (hBears :
      correlationId? message = some request.correlationId)
    (hArrived : Event.arrived position' message' ∈ trace)
    (hBears' :
      correlationId? message' =
        some request.correlationId) :
    position ≤ position' := by
  apply Nat.le_of_not_lt
  intro hEarlier
  rcases List.mem_iff_append.mp hTaken with
    ⟨earlier, later, hTrace⟩
  have hAsks :
      (Event.taken position message (some c)).ticket? =
        some (.redeemed request.correlationId (some c)) := by
    rw [Event.ticket?, hBears]
    rfl
  have hFirst :=
    ((found_iff hReach hTrace hAsks c).mp rfl).2
  rcases hReach.before hTrace with ⟨r, r', hBefore, hStep⟩
  rw [(Step.taken_cases hStep).1] at hEarlier
  rcases taken_of_lt hBefore hEarlier with
    ⟨other, found, hOther⟩
  have hMem : Event.taken position' other found ∈ trace := by
    rw [hTrace]
    exact List.mem_append_left _ hOther
  have hSame : other = message' := by
    have hOld := (taken_lt hReach hMem).2
    rw [(arrived_iff hReach _ _).mp hArrived,
      Option.some.injEq] at hOld
    exact hOld.symm
  subst hSame
  rcases List.mem_iff_append.mp hOther with
    ⟨before, between, rfl⟩
  have hSplit :
      trace =
        before ++ .taken position' other found ::
          (between ++ .taken position message (some c) ::
            later) := by
    rw [hTrace]
    simp
  have hAsks' :
      (Event.taken position' other found).ticket? =
        some (.redeemed request.correlationId found) := by
    rw [Event.ticket?, hBears']
    rfl
  -- nobody found the call before, so the earlier one did
  have hFound : found = some c := by
    rw [found_iff hReach hSplit hAsks' c]
    refine ⟨registered_before_taken hReach hSplit hCalled
      hBears', ?_⟩
    intro e hE
    exact hFirst e (List.mem_append_left _ hE)
  subst hFound
  exact hFirst _ hOther c hAsks'

/- A reply that nobody gets comes too late. -/
theorem settled_of_discarded
    {trace earlier later : List Event} {s : State}
    (hReach : (lts config).Reachable trace s)
    {c : CallId} {request : Request} {position : Nat}
    {message : RawMessage}
    (hTrace :
      trace =
        earlier ++ .taken position message none :: later)
    (hCalled : Event.called c request ∈ trace)
    (hBears :
      correlationId? message =
        some request.correlationId) :
    (∃ position' message',
      Event.taken position' message' (some c) ∈ earlier) ∨
      ∃ e ∈ earlier, e.GivesUp c := by
  have hRegistered :=
    registered_before_taken hReach hTrace hCalled hBears
  have hAsks :
      (Event.taken position message none).ticket? =
        some (.redeemed request.correlationId none) := by
    rw [Event.ticket?, hBears]
    rfl
  have hNot : ¬ ∀ e ∈ earlier, ∀ other,
      e.ticket? ≠
        some (.redeemed request.correlationId
          (some other)) := by
    intro hNone
    have hFound := (found_iff hReach hTrace hAsks c).mpr
      ⟨hRegistered, hNone⟩
    cases hFound
  push Not at hNot
  rcases hNot with ⟨e, hE, other, hFound⟩
  rcases hReach.before hTrace with ⟨r, r', hBefore, _⟩
  rcases call_of_registered hBefore hRegistered with
    ⟨call, hCall, hId, _⟩
  have hTheSame :
      Event.registered request.correlationId other ∈
        earlier := by
    rcases List.mem_iff_append.mp hE with
      ⟨before, between, rfl⟩
    have hOne :=
      ((found_iff hBefore rfl hFound other).mp rfl).1
    exact List.mem_append_left _ hOne
  rcases call_of_registered hBefore hTheSame with
    ⟨call', hCall', hId', _⟩
  have hEq := correlationId_injective hBefore hCall' hCall
    (by rw [hId', hId])
  subst hEq
  cases e with
  | taken position' message' found =>
      have hHanded : found = some other := by
        cases h : correlationId? message' <;>
          simp [Event.ticket?, h] at hFound
        exact hFound.2
      subst hHanded
      exact Or.inl ⟨position', message', hE⟩
  | cancelled correlationId found =>
      simp only [Event.ticket?, Option.some.injEq,
        Tickets.Event.redeemed.injEq] at hFound
      rcases hFound with ⟨rfl, rfl⟩
      rw [← hId] at hE
      exact Or.inr (givesUp_of_cancelled hBefore hCall hE)
  | _ => cases hFound

end Proxy

end Router

end Qanat
