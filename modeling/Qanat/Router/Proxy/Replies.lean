import Qanat.Headers
import Qanat.Router.Proxy.Correlation

/-
  The replies of a broker proxy, over all its runs.

  What a caller puts in its headers does not matter: every
  run is also a run of callers with any other headers, with
  the same replies.

  Main declarations:
    * `Event.withHeaders`, `reachable_withHeaders`
    * `Correlated`, `replies_correlated`
-/

------------------------------------------------------------
-- Headers of Requests
------------------------------------------------------------

namespace Qanat

namespace Router

namespace Proxy

open Bus (RawMessage)

theorem isContentType_correlationIdHeader :
    Headers.IsContentType correlationIdHeader = false := by
  decide

theorem isContentType_replyToHeader :
    Headers.IsContentType replyToHeader = false := by
  decide

/- The caller's own values for the two names are replaced. -/
theorem lookup_correlationId_requestHeaders
    (config : Config) (headers : Headers)
    (correlationId : String) :
    (requestHeaders config headers correlationId).lookup
      correlationIdHeader = some correlationId := by
  have hCorrelated :
      ((headers.insert correlationIdHeader
        correlationId).insert replyToHeader
          config.replySubject).lookup correlationIdHeader =
        some correlationId := by
    rw [AList.lookup_insert_ne (by decide),
      AList.lookup_insert]
  unfold requestHeaders
  cases config.contentType with
  | none => exact hCorrelated
  | some value =>
      rw [← hCorrelated]
      exact Headers.lookup_setContentType
        isContentType_correlationIdHeader

theorem lookup_replyTo_requestHeaders
    (config : Config) (headers : Headers)
    (correlationId : String) :
    (requestHeaders config headers correlationId).lookup
      replyToHeader = some config.replySubject := by
  unfold requestHeaders
  cases config.contentType with
  | none => exact AList.lookup_insert _
  | some value =>
      rw [← AList.lookup_insert (b := config.replySubject)
        (headers.insert correlationIdHeader correlationId)]
      exact Headers.lookup_setContentType
        isContentType_replyToHeader

theorem correlationId_message
    (config : Config) (request : Request) (payload : Bytes) :
    correlationId? (request.message config payload) =
      some request.correlationId :=
  lookup_correlationId_requestHeaders _ _ _

end Proxy

end Router

end Qanat

------------------------------------------------------------
-- Other Headers, the Same Replies
------------------------------------------------------------

namespace Qanat

namespace Router

namespace Proxy

open Transition
open Bus (RawMessage)

/- The same call with other headers. -/
def Call.withHeaders (headers : Headers) (call : Call) :
    Call :=
  { call with
    request := { call.request with headers := headers } }

def State.withHeaders
    (headers : CallId → Headers) (s : State) : State :=
  { s with
    calls := fun c =>
      (s.calls c).map (Call.withHeaders (headers c)) }

/- Only what the callers supply and dispatch is another. -/
def Event.withHeaders
    (config : Config) (headers : CallId → Headers) :
    Event → Event
| .called c request =>
    .called c { request with headers := headers c }
| .dispatched c message =>
    .dispatched c
      { message with
        envelope :=
          { message.envelope with
            headers := (correlationId? message).map
              (requestHeaders config (headers c)) } }
| e => e

variable {config : Config}

theorem calls_withHeaders
    {s : State} {c : CallId} {call : Call}
    (headers : CallId → Headers)
    (hCall : s.calls c = some call) :
    (s.withHeaders headers).calls c =
      some (call.withHeaders (headers c)) := by
  simp [State.withHeaders, hCall]

theorem setCall_withHeaders
    (s : State) (c : CallId) (call : Call)
    (headers : CallId → Headers) :
    (s.setCall c call).withHeaders headers =
      (s.withHeaders headers).setCall c
        (call.withHeaders (headers c)) := by
  unfold State.withHeaders State.setCall
  congr 1
  funext c'
  by_cases hSame : c' = c
  · subst hSame
    simp
  · simp [hSame]

theorem withHeaders_message
    (request : Request) (payload : Bytes) (c : CallId)
    (headers : CallId → Headers) :
    Event.withHeaders config headers
        (.dispatched c (request.message config payload)) =
      .dispatched c
        (Request.message config
          { request with headers := headers c } payload) := by
  rw [Event.withHeaders, correlationId_message]
  rfl

theorem fresh_withHeaders
    {s : State} {correlationId : String}
    (headers : CallId → Headers)
    (hFresh : s.Fresh correlationId) :
    (s.withHeaders headers).Fresh correlationId := by
  refine ⟨?_, hFresh.2⟩
  intro c call hCall
  rcases Option.map_eq_some_iff.mp hCall with
    ⟨before, hBefore, rfl⟩
  exact hFresh.1 c before hBefore

theorem timely_withHeaders
    {s : State} {message : RawMessage}
    (headers : CallId → Headers)
    (hTimely : s.Timely message) :
    (s.withHeaders headers).Timely message := by
  intro c call hCall hBears
  rcases Option.map_eq_some_iff.mp hCall with
    ⟨before, hBefore, rfl⟩
  exact hTimely c before hBefore hBears

theorem confirm_withHeaders
    (s : State) (c : CallId) (headers : CallId → Headers) :
    (s.withHeaders headers).confirm c = fun c' =>
      (s.confirm c c').map
        (Call.withHeaders (headers c')) := by
  funext c'
  cases hCall : s.calls c with
  | none =>
      simp [State.confirm, State.withHeaders, hCall]
  | some call =>
      by_cases hQueued : call.phase = .queued
      · by_cases hSame : c' = c
        · subst hSame
          simp [State.confirm, State.withHeaders, hCall,
            Call.withHeaders, hQueued]
        · simp [State.confirm, State.withHeaders, hCall,
            Call.withHeaders, hQueued, hSame]
      · simp [State.confirm, State.withHeaders, hCall,
          Call.withHeaders, hQueued]

theorem hand_withHeaders
    (s : State) (c : CallId) (position : Nat)
    (message : RawMessage) (headers : CallId → Headers) :
    (s.withHeaders headers).hand c position message =
      fun c' => (s.hand c position message c').map
        (Call.withHeaders (headers c')) := by
  funext c'
  cases hCall : s.calls c with
  | none =>
      simp [State.hand, State.withHeaders, hCall]
  | some call =>
      by_cases hClosed : call.phase.Closed
      · simp [State.hand, State.withHeaders, hCall,
          Call.withHeaders, hClosed]
      · by_cases hSame : c' = c
        · subst hSame
          simp [State.hand, State.withHeaders, hCall,
            Call.withHeaders, hClosed]
        · simp [State.hand, State.withHeaders, hCall,
            Call.withHeaders, hClosed, hSame]

/- Every step is also one of callers with other headers. -/
theorem Step.withHeaders
    {s s' : State} {e : Event}
    (headers : CallId → Headers)
    (hStep : Step config s e s') :
    Step config (s.withHeaders headers)
      (e.withHeaders config headers)
      (s'.withHeaders headers) := by
  cases hStep with
  | call request hFresh =>
      rw [setCall_withHeaders]
      exact .call _ (fresh_withHeaders headers hFresh)
  | block hCall hPhase hRunning hNot hFull =>
      exact .block (calls_withHeaders headers hCall) hPhase
        hRunning hNot hFull
  | register hCall hPhase hRunning hMay =>
      rw [setCall_withHeaders]
      exact .register (calls_withHeaders headers hCall)
        hPhase hRunning hMay
  | refuse hCall hPhase hStopped =>
      rw [setCall_withHeaders]
      exact .refuse (calls_withHeaders headers hCall)
        hPhase hStopped
  | lose hCall hPhase hStopped =>
      rw [setCall_withHeaders]
      exact .lose (calls_withHeaders headers hCall)
        hPhase hStopped
  | dispatch hCall hPhase hPayload =>
      rw [setCall_withHeaders, withHeaders_message]
      exact .dispatch (calls_withHeaders headers hCall)
        hPhase hPayload
  | finishDispatch hCall hPhase =>
      rw [setCall_withHeaders]
      exact .finishDispatch (calls_withHeaders headers hCall)
        hPhase
  | failDispatch hCall hPhase =>
      rw [setCall_withHeaders]
      exact .failDispatch (calls_withHeaders headers hCall)
        hPhase
  | receive hCall hPhase hSlot =>
      rw [setCall_withHeaders]
      exact .receive (calls_withHeaders headers hCall)
        hPhase hSlot
  | timeOut hCall hPhase =>
      rw [setCall_withHeaders]
      exact .timeOut (calls_withHeaders headers hCall) hPhase
  | abandonWait hCall hPhase hSlot hStopped =>
      rw [setCall_withHeaders]
      exact .abandonWait (calls_withHeaders headers hCall)
        hPhase hSlot hStopped
  | drop hCall hOpen =>
      rw [setCall_withHeaders]
      exact .drop (calls_withHeaders headers hCall) hOpen
  | @takeRegister correlationId c rest hRunning hQueue =>
      have hMove : Step config (s.withHeaders headers)
          (.registered correlationId c) _ :=
        .takeRegister hRunning hQueue
      rw [confirm_withHeaders] at hMove
      exact hMove
  | takeCancel hRunning hQueue =>
      exact .takeCancel hRunning hQueue
  | @takeReply message correlationId c hRunning hArrived hId
      hFound =>
      have hMove : Step config (s.withHeaders headers)
          (.taken s.read message (some c)) _ :=
        .takeReply hRunning hArrived hId hFound
      rw [hand_withHeaders] at hMove
      exact hMove
  | discard hRunning hArrived hNone =>
      exact .discard hRunning hArrived hNone
  | stop hRunning => exact .stop hRunning
  | arrive message hTimely =>
      exact .arrive message
        (timely_withHeaders headers hTimely)

theorem reachable_withHeaders
    {trace : List Event} {s : State}
    (hReach : (lts config).Reachable trace s)
    (headers : CallId → Headers) :
    (lts config).Reachable
      (trace.map (Event.withHeaders config headers))
      (s.withHeaders headers) := by
  induction hReach with
  | initial hInitial =>
      subst hInitial
      exact .initial rfl
  | step _ hStep ih =>
      rw [List.map_append]
      exact ih.step (Step.withHeaders headers hStep)

end Proxy

end Router

end Qanat

------------------------------------------------------------
-- Correlation of Whole Runs
------------------------------------------------------------

namespace Qanat

namespace Router

namespace Proxy

open Transition
open Bus (RawMessage)

variable {config : Config}

/-
  Calls and replies of one run.  `own` is about requests,
  `first` and `handed` about the replies that are received,
  `registered` and `late` about those that are not, and
  `anyHeaders` about what callers put in their headers.
-/
structure Correlated (config : Config) (trace : List Event) :
    Prop where
  own : ∀ c message,
    Event.dispatched c message ∈ trace →
    ∃ request, Event.called c request ∈ trace ∧
      correlationId? message = some request.correlationId ∧
      ∃ headers, message.envelope.headers = some headers ∧
        headers.lookup replyToHeader =
          some config.replySubject
  first : ∀ c position message,
    Event.received c position message ∈ trace →
    ∃ request, Event.called c request ∈ trace ∧
      Event.arrived position message ∈ trace ∧
      correlationId? message = some request.correlationId ∧
      ∀ position' message',
        Event.arrived position' message' ∈ trace →
        correlationId? message' =
          some request.correlationId →
        position ≤ position'
  handed : ∀ c c' position message message',
    Event.taken position message (some c) ∈ trace →
    Event.taken position message' (some c') ∈ trace →
    c = c'
  registered : ∀ earlier later position message found c
      request,
    trace =
      earlier ++ .taken position message found :: later →
    Event.called c request ∈ trace →
    correlationId? message = some request.correlationId →
    Event.registered request.correlationId c ∈ earlier
  late : ∀ earlier later position message c request,
    trace =
      earlier ++ .taken position message none :: later →
    Event.called c request ∈ trace →
    correlationId? message = some request.correlationId →
    (∃ position' message',
      Event.taken position' message' (some c) ∈ earlier) ∨
      ∃ e ∈ earlier, e.GivesUp c
  anyHeaders : ∀ headers : CallId → Headers,
    ∃ s', (lts config).Reachable
      (trace.map (Event.withHeaders config headers)) s'

theorem own_of_dispatched
    {trace : List Event} {s : State}
    (hReach : (lts config).Reachable trace s)
    {c : CallId} {message : RawMessage}
    (hDispatched : Event.dispatched c message ∈ trace) :
    ∃ request payload, Event.called c request ∈ trace ∧
      message = Request.message config request payload := by
  rcases hReach.step_of_mem hDispatched with
    ⟨_, _, r, r', hTrace, hBefore, hStep⟩
  cases hStep with
  | dispatch hCall =>
      refine ⟨_, _, ?_, rfl⟩
      rw [hTrace]
      exact List.mem_append_left _
        (called_of_call hBefore hCall)

theorem first_of_received
    {trace : List Event} {s : State}
    (hReach : (lts config).Reachable trace s)
    {c : CallId} {position : Nat} {message : RawMessage}
    (hReceived :
      Event.received c position message ∈ trace) :
    ∃ request, Event.called c request ∈ trace ∧
      Event.arrived position message ∈ trace ∧
      correlationId? message = some request.correlationId ∧
      ∀ position' message',
        Event.arrived position' message' ∈ trace →
        correlationId? message' =
          some request.correlationId →
        position ≤ position' := by
  have hTaken := taken_of_received hReach hReceived
  rcases List.mem_iff_append.mp hTaken with
    ⟨earlier, later, hTrace⟩
  rcases request_of_taken hReach hTrace with
    ⟨request, hCalled, hBears⟩
  refine ⟨request, hCalled, ?_, hBears, ?_⟩
  · exact (arrived_iff hReach _ _).mpr
      (taken_lt hReach hTaken).2
  · intro position' message' hArrived hBears'
    exact first_of_taken hReach hTaken hCalled hBears
      hArrived hBears'

/- Requests and replies are correlated in every run. -/
theorem replies_correlated
    {trace : List Event} {s : State}
    (hReach : (lts config).Reachable trace s) :
    Correlated config trace where
  own := by
    intro c message hDispatched
    rcases own_of_dispatched hReach hDispatched with
      ⟨request, payload, hCalled, rfl⟩
    exact ⟨request, hCalled, correlationId_message _ _ _,
      _, rfl, lookup_replyTo_requestHeaders _ _ _⟩
  first := by
    intro c position message hReceived
    exact first_of_received hReach hReceived
  handed := by
    intro c c' position message message' hTaken hTaken'
    have hSame := taken_unique hReach hTaken hTaken'
    exact Option.some.inj hSame.2
  registered := by
    intro earlier later position message found c request
      hTrace hCalled hBears
    exact registered_before_taken hReach hTrace hCalled
      hBears
  late := by
    intro earlier later position message c request
      hTrace hCalled hBears
    exact settled_of_discarded hReach hTrace hCalled hBears
  anyHeaders := by
    intro headers
    exact ⟨_, reachable_withHeaders hReach headers⟩

def sampleConfig : Config where
  pattern := "orders.total"
  replySubject := "replies"
  contentType := none

/- A request whose caller forges the id of another call. -/
def sampleRequest (correlationId forged : String) :
    Request where
  headers :=
    (∅ : Headers).insert correlationIdHeader forged
  payload := .ok []
  correlationId := correlationId
  messageId := "m"
  requestId := 1

def sampleReply (correlationId : String) : RawMessage where
  envelope :=
    { subject := "replies"
      id := 2
      messageId := "r"
      headers := some
        ((∅ : Headers).insert correlationIdHeader
          correlationId)
      attempts := 0 }
  payload := []

/- Two calls, answered in the other order, one of them twice. -/
def sampleTrace : List Event :=
  [.called 0 (sampleRequest "a" "b"),
    .called 1 (sampleRequest "b" "a"),
    .registering "a" 0,
    .registering "b" 1,
    .registered "a" 0,
    .registered "b" 1,
    .dispatched 0
      ((sampleRequest "a" "b").message sampleConfig []),
    .dispatched 1
      ((sampleRequest "b" "a").message sampleConfig []),
    .arrived 0 (sampleReply "b"),
    .arrived 1 (sampleReply "b"),
    .arrived 2 (sampleReply "a"),
    .dispatchReturned 0,
    .dispatchReturned 1,
    .taken 0 (sampleReply "b") (some 1),
    .taken 1 (sampleReply "b") none,
    .taken 2 (sampleReply "a") (some 0),
    .received 0 2 (sampleReply "a"),
    .received 1 0 (sampleReply "b")]

/- No earlier call has the id, and nothing has arrived. -/
theorem fresh_of_calls
    {trace : List Event} {s : State} {correlationId : String}
    (hReach : (lts config).Reachable trace s)
    (hCalls : ∀ c < s.nextCall,
      (s.calls c).map (·.request.correlationId) ≠
        some correlationId)
    (hArrived : s.arrived = []) :
    s.Fresh correlationId := by
  refine ⟨?_, by simp [hArrived]⟩
  intro c call hCall hId
  apply hCalls c (call_lt hReach hCall)
  rw [hCall, ← hId]
  rfl

/- Every call has been dispatched. -/
theorem timely_of_calls
    {trace : List Event} {s : State}
    (hReach : (lts config).Reachable trace s)
    (hCalls : ∀ c < s.nextCall,
      (s.calls c).map (·.dispatched) = some true)
    (message : RawMessage) :
    s.Timely message := by
  intro c call hCall _
  have hDispatched := hCalls c (call_lt hReach hCall)
  rw [hCall] at hDispatched
  exact Option.some.inj hDispatched

theorem sample_reachable :
    ∃ s, (lts sampleConfig).Reachable sampleTrace s := by
  have h : (lts sampleConfig).Reachable [] State.start :=
    .initial rfl
  have h := h.step (.call (sampleRequest "a" "b")
    (fresh_of_calls h (by decide) rfl))
  have h := h.step (.call (sampleRequest "b" "a")
    (fresh_of_calls h (by decide) rfl))
  have h := h.step
    (@Step.register _ _ 0 _ rfl rfl rfl (by decide))
  have h := h.step
    (@Step.register _ _ 1 _ rfl rfl rfl (by decide))
  have h := h.step (.takeRegister rfl rfl)
  have h := h.step (.takeRegister rfl rfl)
  have h := h.step (@Step.dispatch _ _ 0 _ _ rfl rfl rfl)
  have h := h.step (@Step.dispatch _ _ 1 _ _ rfl rfl rfl)
  have h := h.step (.arrive (sampleReply "b")
    (timely_of_calls h (by decide) _))
  have h := h.step (.arrive (sampleReply "b")
    (timely_of_calls h (by decide) _))
  have h := h.step (.arrive (sampleReply "a")
    (timely_of_calls h (by decide) _))
  have h := h.step (@Step.finishDispatch _ _ 0 _ rfl rfl)
  have h := h.step (@Step.finishDispatch _ _ 1 _ rfl rfl)
  have h := h.step
    (@Step.takeReply _ _ (sampleReply "b") "b" 1
      rfl rfl rfl rfl)
  have h := h.step
    (@Step.discard _ _ (sampleReply "b") rfl rfl rfl)
  have h := h.step
    (@Step.takeReply _ _ (sampleReply "a") "a" 0
      rfl rfl rfl rfl)
  have h := h.step (@Step.receive _ _ 0 _ _ _ rfl rfl rfl)
  have h := h.step (@Step.receive _ _ 1 _ _ _ rfl rfl rfl)
  exact ⟨_, h⟩

theorem sample_correlated :
    ∃ s, (lts sampleConfig).Reachable sampleTrace s ∧
      Correlated sampleConfig sampleTrace := by
  rcases sample_reachable with ⟨s, hReach⟩
  exact ⟨s, hReach, replies_correlated hReach⟩

end Proxy

end Router

end Qanat
