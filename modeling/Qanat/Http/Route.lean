import Qanat.Http.Source
import Qanat.Library.Budgets
import Qanat.Router.Loop

/-
  An unpartitioned route that is fed by an HTTP source.

  The task of the route owns the receiver of the channel and,
  with the source, a sender of it.  Its stream therefore does
  not end; the task ends only by unwinding, and the receiver
  goes with it.

  Main declarations:
    * `Fed.State`, `Fed.Step`, `Fed.lts`
    * `Fed.progress_of_reachable`
    * `Fed.accepted_requests_processed`
    * `Fed.every_request_is_answered`
-/

------------------------------------------------------------
-- States and Events
------------------------------------------------------------

namespace Qanat

namespace Http

namespace Fed

open Router (RouteMessage RouteEffect)
open Router.Loop (Phase)

/- `position` counts the messages the stream has yielded. -/
structure State where
  source : Source.State
  phase : Phase
  position : Nat

inductive Event where
| source (event : Source.Event)
| performed (position : Nat) (effect : RouteEffect)
| continued (position : Nat)

/- What the requests of the source do among themselves. -/
def IsRequestEvent : Source.Event → Prop
| .opened | .yielded _ | .dropped _ => False
| _ => True

end Fed

end Http

end Qanat

------------------------------------------------------------
-- Steps
------------------------------------------------------------

namespace Qanat

namespace Http

open Transition
open Router (RouteBinding RouteEffect RouteMessage)
open Router.Loop (Phase)

variable {Value : Type}

namespace Fed

/- The steps of a route and of the requests that feed it. -/
inductive Step
    (source : HttpSource)
    (binding : Nat → RouteBinding Value) :
    State → Event → State → Prop where
| request
    {s : State} {event : Source.Event}
    {source' : Source.State} :
    Source.Step source s.source event source' →
    IsRequestEvent event →
    Step source binding s (.source event)
      { s with source := source' }
-- `install`
| install {s : State} {source' : Source.State} :
    s.phase = .notInstalled →
    Source.Step source s.source .opened source' →
    Step source binding s (.source .opened)
      { s with source := source', phase := .waiting }
-- `subscription.next()`
| next
    {s : State} {message : RouteMessage}
    {source' : Source.State} :
    s.phase = .waiting →
    Source.Step source s.source (.yielded message) source' →
    Step source binding s (.source (.yielded message))
      { source := source'
        phase := .take binding s.position message
        position := s.position + 1 }
-- `process_route_message`
| perform
    {s : State} {position : Nat} {effect : RouteEffect}
    {rest : List RouteEffect} {panics : Bool} :
    s.phase = .working position (effect :: rest) panics →
    Step source binding s (.performed position effect)
      { s with phase := .working position rest panics }
| «continue» {s : State} {position : Nat} :
    s.phase = .working position [] false →
    Step source binding s (.continued position)
      { s with phase := .waiting }
-- the task unwinds and drops the receiver
| unwind
    {s : State} {position : Nat}
    {lost : List RouteMessage} {source' : Source.State} :
    s.phase = .working position [] true →
    Source.Step source s.source (.dropped lost) source' →
    Step source binding s (.source (.dropped lost))
      { s with source := source', phase := .ended }

def lts
    (source : HttpSource)
    (binding : Nat → RouteBinding Value) :
    Lts State Event where
  initial s :=
    (Source.lts source).initial s.source ∧
      s.phase = .notInstalled ∧ s.position = 0
  step := Step source binding

/- The step of the source an event is. -/
def Event.source? : Event → Option Source.Event
| .source event => some event
| _ => none

def Event.effect? : Event → Option RouteEffect
| .performed _ effect => some effect
| _ => none

def sourceEvents (trace : List Event) : List Source.Event :=
  trace.filterMap Event.source?

/- What the route has done so far. -/
def effects (trace : List Event) : List RouteEffect :=
  trace.filterMap Event.effect?

/- The messages of the requests answered with 202, in order. -/
def accepted (trace : List Event) : List RouteMessage :=
  (sourceEvents trace).filterMap Source.Event.queued?

/- The messages that the stream has yielded. -/
def taken (trace : List Event) : List RouteMessage :=
  (sourceEvents trace).filterMap Source.Event.yielded?

variable {source : HttpSource}
variable {binding : Nat → RouteBinding Value}

/- A run of a route is a run of its source. -/
theorem source_reachable
    {trace : List Event} {s : State}
    (hReach : (lts source binding).Reachable trace s) :
    (Source.lts source).Reachable (sourceEvents trace)
      s.source := by
  apply hReach.component State.source Event.source?
  · rintro s ⟨hInit, _⟩
    exact hInit
  · intro s e s' hStep
    cases hStep with
    | request hMove _ => exact hMove
    | install _ hMove => exact hMove
    | next _ hMove => exact hMove
    | unwind _ hMove => exact hMove
    | _ => rfl

end Fed

end Http

end Qanat

------------------------------------------------------------
-- What the Route Has Done
------------------------------------------------------------

namespace Qanat

namespace Http

open Transition
open Router (RouteBinding RouteEffect RouteMessage)
open Router.Loop (Phase Progress)

variable {Value : Type}

namespace Fed

variable {source : HttpSource}
variable {binding : Nat → RouteBinding Value}

theorem effects_append
    (trace : List Event) (e : Event) :
    effects (trace ++ [e]) =
      effects trace ++ e.effect?.toList := by
  unfold effects
  rw [List.filterMap_append, Lists.filterMap_singleton]

theorem taken_append
    (trace : List Event) (e : Event) :
    taken (trace ++ [e]) =
      taken trace ++
        (e.source?.bind Source.Event.yielded?).toList := by
  unfold taken sourceEvents
  rw [List.filterMap_append, Lists.filterMap_singleton,
    List.filterMap_append]
  cases hSource : e.source? with
  | none => simp
  | some event =>
      cases hYielded : event.yielded? <;> simp [hYielded]

/- The requests of a source yield nothing. -/
theorem yielded?_of_isRequestEvent
    {event : Source.Event}
    (hRequest : IsRequestEvent event) :
    event.yielded? = none := by
  cases event with
  | yielded => exact hRequest.elim
  | _ => rfl

/- Every step does what the loop does next. -/
theorem progress_of_reachable
    {trace : List Event} {s : State}
    (hReach : (lts source binding).Reachable trace s) :
    Progress binding (taken trace) (effects trace) s.phase ∧
      s.position = (taken trace).length := by
  induction hReach with
  | @initial s hInit =>
      rcases hInit with ⟨_, hPhase, hPosition⟩
      rw [hPhase]
      exact ⟨⟨rfl, rfl⟩, hPosition⟩
  | @step trace s s' e hReach hStep ih =>
      rcases ih with ⟨hProgress, hPosition⟩
      rw [effects_append, taken_append]
      cases hStep with
      | @request event source' hMove hRequest =>
          simp only [Event.source?, Event.effect?,
            Option.bind_some,
            yielded?_of_isRequestEvent hRequest,
            Option.toList_none, List.append_nil]
          exact ⟨hProgress, hPosition⟩
      | install hPhase hMove =>
          rw [hPhase] at hProgress
          simp only [Event.source?, Event.effect?,
            Option.bind_some, Source.Event.yielded?,
            Option.toList_none, List.append_nil]
          exact ⟨hProgress.install, hPosition⟩
      | @next message source' hPhase hMove =>
          rw [hPhase] at hProgress
          simp only [Event.source?, Event.effect?,
            Option.bind_some, Source.Event.yielded?,
            Option.toList_none, Option.toList_some,
            List.append_nil, List.length_append,
            List.length_singleton]
          rw [hPosition]
          exact ⟨hProgress.take message, rfl⟩
      | perform hPhase =>
          rw [hPhase] at hProgress
          simp only [Event.source?, Event.effect?,
            Option.bind_none, Option.toList_none,
            Option.toList_some, List.append_nil]
          exact ⟨hProgress.perform, hPosition⟩
      | «continue» hPhase =>
          rw [hPhase] at hProgress
          simp only [Event.source?, Event.effect?,
            Option.bind_none, Option.toList_none,
            List.append_nil]
          exact ⟨hProgress.done, hPosition⟩
      | unwind hPhase hMove =>
          rw [hPhase] at hProgress
          simp only [Event.source?, Event.effect?,
            Option.bind_some, Source.Event.yielded?,
            Option.toList_none, List.append_nil]
          exact ⟨hProgress.done, hPosition⟩

end Fed

end Http

end Qanat

------------------------------------------------------------
-- Accepted Requests Are Processed
------------------------------------------------------------

namespace Qanat

namespace Http

open Transition
open Router (RouteBinding runRoute)
open Source (sampleRequest sampleMessage)

variable {Value : Type}

namespace Fed

variable {source : HttpSource}
variable {binding : Nat → RouteBinding Value}

/- What is accepted is taken, waits or has been lost. -/
theorem accepted_eq
    {trace : List Event} {s : State}
    (hReach : (lts source binding).Reachable trace s) :
    accepted trace =
      taken trace ++ (s.source.buffer ++
        (sourceEvents trace).flatMap Source.Event.lost) := by
  have hHolds :=
    Source.holds_of_reachable (source_reachable hReach)
  unfold accepted taken
  rw [hHolds.fifo, List.append_assoc]

/-
  In every run, what the route has done is what its loop does
  first with the accepted requests in the order in which they
  were accepted: none is skipped, none is taken twice and
  nothing else is processed.
-/
theorem accepted_requests_processed
    {trace : List Event} {s : State}
    (hReach : (lts source binding).Reachable trace s) :
    effects trace <+:
      (runRoute binding (accepted trace)).effects := by
  rw [accepted_eq hReach]
  exact (progress_of_reachable hReach).1.isPrefix _

end Fed

end Http

end Qanat

------------------------------------------------------------
-- What Is Left To Do
------------------------------------------------------------

namespace Qanat

namespace Http

open Transition
open Router (RouteBinding RouteMessage)
open Router.Loop (Phase)

variable {Value : Type}

/- A waiting message has to be taken, processed and left. -/
def messageDues : Nat := 6

def Source.RequestPhase.dues : Source.RequestPhase → Nat
| .reading => messageDues + 2
| .sending _ => messageDues + 1
| .answered _ | .disconnected => 0

def Source.Request.dues (request : Source.Request) : Nat :=
  request.phase.dues

def Source.State.workLeft (s : Source.State) : Nat :=
  (s.requests.map Source.Request.dues).sum +
    messageDues * s.buffer.length

/- The work that an event of the source brings or is. -/
def Source.Event.brings : Source.Event → Nat
| .arrived _ _ => messageDues + 3
| .numberedElsewhere _ | .openFailed _ | .opened => 1
| _ => 0

variable {source : HttpSource}

theorem Source.workLeft_setPhase
    {s : Source.State} {r : Source.RequestId}
    {request : Source.Request}
    (hRequest : s.requests[r]? = some request)
    (phase : Source.RequestPhase) :
    (s.setPhase r request phase).workLeft +
        request.phase.dues =
      s.workLeft + phase.dues := by
  have hMoved := Lists.sum_map_set Source.Request.dues
    hRequest { request with phase := phase }
  simp only [Source.State.workLeft, Source.State.setPhase,
    Source.Request.dues] at hMoved ⊢
  omega

/- The requests spend what they brought themselves. -/
theorem Source.Step.spend
    {s s' : Source.State} {e : Source.Event}
    (hStep : Source.Step source s e s')
    (hRequest : Fed.IsRequestEvent e) :
    s'.workLeft + 1 ≤ s.workLeft + e.brings := by
  cases hStep with
  | arrive incoming =>
      simp [Source.State.workLeft, Source.Request.dues,
        Source.RequestPhase.dues, Source.Event.brings]
      omega
  | reject hOther hPhase hNone =>
      have hMoved := Source.workLeft_setPhase hOther
        (.answered .payloadTooLarge)
      simp only [hPhase, Source.RequestPhase.dues] at hMoved
      simp only [Source.Event.brings]
      omega
  | @number r other _ _ message hOther hPhase hMessage =>
      have hMoved := Source.workLeft_setPhase hOther
        (.sending message)
      simp only [hPhase, Source.RequestPhase.dues] at hMoved
      show (s.setPhase r other (.sending message)).workLeft +
        1 ≤ _
      simp only [Source.Event.brings]
      omega
  | @queue r other message hOther hPhase hAlive hRoom =>
      have hMoved := Source.workLeft_setPhase hOther
        (.answered .accepted)
      simp only [hPhase, Source.RequestPhase.dues,
        Source.State.workLeft, Source.State.setPhase]
        at hMoved
      simp only [Source.State.workLeft,
        Source.State.setPhase, Source.Event.brings,
        List.length_append, List.length_singleton,
        Nat.mul_add]
      omega
  | refuse hOther hPhase hGone =>
      have hMoved := Source.workLeft_setPhase hOther
        (.answered .serviceUnavailable)
      simp only [hPhase, Source.RequestPhase.dues] at hMoved
      simp only [Source.Event.brings]
      omega
  | @disconnect r other hOther hPending =>
      have hMoved := Source.workLeft_setPhase hOther
        .disconnected
      cases hPhase : other.phase with
      | answered | disconnected =>
          rw [hPhase] at hPending
          exact hPending.elim
      | _ =>
          simp only [hPhase, Source.RequestPhase.dues]
            at hMoved
          simp only [Source.Event.brings]
          omega
  | elsewhere => exact Nat.le_refl _
  | openFail => exact Nat.le_refl _
  | «open» | «yield» | drop => exact hRequest.elim

/- A message that is taken leaves its dues to the reader. -/
theorem Source.Step.yield_spend
    {s s' : Source.State} {message : RouteMessage}
    (hStep : Source.Step source s (.yielded message) s') :
    s'.workLeft + messageDues = s.workLeft := by
  cases hStep with
  | «yield» hStreaming hBuffer =>
      simp only [Source.State.workLeft, hBuffer,
        List.length_cons, Nat.mul_add, Nat.mul_one]
      omega

theorem Source.Step.drop_spend
    {s s' : Source.State} {lost : List RouteMessage}
    (hStep : Source.Step source s (.dropped lost) s') :
    s'.workLeft ≤ s.workLeft := by
  cases hStep with
  | drop hAlive =>
      simp only [Source.State.workLeft, List.length_nil]
      omega

theorem Source.Step.open_spend
    {s s' : Source.State}
    (hStep : Source.Step source s .opened s') :
    s'.workLeft = s.workLeft := by
  cases hStep with
  | «open» => rfl

namespace Fed

variable {binding : Nat → RouteBinding Value}

def State.workLeft (s : State) : Nat :=
  s.source.workLeft + s.phase.dues

def Event.brings : Event → Nat
| .source event => event.brings
| _ => 0

/- Every step spends part of what is left. -/
theorem Step.spend
    {s s' : State} {e : Event}
    (hStep : Step source binding s e s') :
    s'.workLeft + 1 ≤ s.workLeft + e.brings := by
  unfold State.workLeft
  cases hStep with
  | request hMove hRequest =>
      have hSpent := Source.Step.spend hMove hRequest
      simp only [Event.brings]
      omega
  | install hPhase hMove =>
      have hSame := Source.Step.open_spend hMove
      simp only [hPhase, Phase.dues, Event.brings,
        Source.Event.brings]
      omega
  | @next message source' hPhase hMove =>
      have hSpent := Source.Step.yield_spend hMove
      have hFew :=
        Phase.dues_take_le binding s.position message
      have hIdle : s.phase.dues = 0 := by rw [hPhase]; rfl
      simp only [Event.brings, Source.Event.brings,
        messageDues] at hSpent ⊢
      omega
  | perform hPhase =>
      simp only [hPhase, Phase.dues, Event.brings,
        List.length_cons]
      omega
  | «continue» hPhase =>
      simp only [hPhase, Phase.dues, Event.brings,
        List.length_nil]
      omega
  | unwind hPhase hMove =>
      have hSpent := Source.Step.drop_spend hMove
      simp only [hPhase, Phase.dues, Event.brings,
        Source.Event.brings, List.length_nil]
      omega

/- A route lives on the requests that arrive. -/
def budget
    (source : HttpSource)
    (binding : Nat → RouteBinding Value) :
    (lts source binding).Budget where
  left := State.workLeft
  paid := Event.brings
  spend _ _ _ _ _ hStep := Step.spend hStep

end Fed

end Http

end Qanat

------------------------------------------------------------
-- Every Request Is Answered
------------------------------------------------------------

namespace Qanat

namespace Http

namespace Fed

open Transition
open Router (RouteBinding runRoute)
open Source (sampleRequest sampleMessage)
open Router.Loop (Phase)

variable {Value : Type} {source : HttpSource}
variable {binding : Nat → RouteBinding Value}

/-
  What the route and the requests do by themselves; new
  requests, clients that go away and the installation come
  from outside.
-/
def Event.IsWork : Event → Prop
| .source (.arrived _ _) => False
| .source (.numberedElsewhere _) => False
| .source (.disconnected _ _) => False
| .source (.openFailed _) => False
| .source .opened => False
| _ => True

theorem Event.IsWork.brings_eq_zero
    {e : Event}
    (hWork : e.IsWork) :
    e.brings = 0 := by
  cases e with
  | source event =>
      cases event with
      | arrived | numberedElsewhere | openFailed | opened =>
          exact hWork.elim
      | _ => rfl
  | _ => rfl

/- The requests leave the receiver to the route. -/
theorem receiver_of_request
    {s s' : Source.State} {e : Source.Event}
    (hStep : Source.Step source s e s')
    (hRequest : IsRequestEvent e) :
    s'.receiver = s.receiver := by
  cases hStep with
  | «open» | «yield» | drop => exact hRequest.elim
  | _ => rfl

/- Where the receiver is while the route is at a phase. -/
def ReceiverAt (receiver : Source.Receiver) : Phase → Prop
| .notInstalled => True
| .waiting | .working _ _ _ => receiver = .streaming
| .ended => receiver = .dropped

/- An installed route reads its stream until it unwinds. -/
theorem receiver_of_reachable
    {trace : List Event} {s : State}
    (hReach : (lts source binding).Reachable trace s) :
    ReceiverAt s.source.receiver s.phase := by
  apply hReach.stateInvariant
    (P := fun s => ReceiverAt s.source.receiver s.phase)
  · rintro s ⟨_, hPhase, _⟩
    rw [hPhase]
    trivial
  · intro s e s' hAt hStep
    cases hStep with
    | request hMove hRequest =>
        rw [receiver_of_request hMove hRequest]
        exact hAt
    | install hPhase hMove =>
        cases hMove with
        | «open» hHeld => rfl
    | next hPhase hMove =>
        cases hMove with
        | «yield» hStreaming hBuffer => exact hStreaming
    | perform hPhase | «continue» hPhase =>
        rw [hPhase] at hAt
        exact hAt
    | unwind hPhase hMove =>
        cases hMove with
        | drop hAlive => rfl

/- The requests are done, and so is the route with them. -/
structure Served
    (binding : Nat → RouteBinding Value)
    (trace : List Event) (s : State) : Prop where
  requests :
    ∀ (r : Source.RequestId) (request : Source.Request),
      s.source.requests[r]? = some request →
        ¬ request.phase.IsPending
  buffer : s.source.buffer = []
  effects :
    effects trace =
      (runRoute binding (accepted trace)).effects

/- A source whose requests cannot move has none to answer. -/
theorem not_isPending_of_stuck
    {s : Source.State}
    (hStuck :
      ∀ e s', Source.Step source s e s' →
        IsRequestEvent e → e.brings = 0 →
          ∃ r message, e = .disconnected r message)
    (hRoom :
      s.receiver ≠ .dropped →
        s.buffer.length < source.capacity)
    {r : Source.RequestId} {request : Source.Request}
    (hRequest : s.requests[r]? = some request) :
    ¬ request.phase.IsPending := by
  intro hPending
  cases hPhase : request.phase with
  | answered | disconnected =>
      rw [hPhase] at hPending
      exact hPending
  | reading =>
      cases hMessage : enqueueRequest
          FiniteMap.Iteration.identity "" s.nextRequestId
          source.bodyLimit request.incoming with
      | none =>
          rcases hStuck _ _
              (Source.Step.reject hRequest hPhase hMessage)
              trivial rfl with ⟨_, _, hOther⟩
          cases hOther
      | some message =>
          rcases hStuck _ _
              (Source.Step.number hRequest hPhase hMessage)
              trivial rfl with ⟨_, _, hOther⟩
          cases hOther
  | sending message =>
      by_cases hGone : s.receiver = .dropped
      · rcases hStuck _ _
            (Source.Step.refuse hRequest hPhase hGone)
            trivial rfl with ⟨_, _, hOther⟩
        cases hOther
      · rcases hStuck _ _
            (Source.Step.queue hRequest hPhase hGone
              (hRoom hGone))
            trivial rfl with ⟨_, _, hOther⟩
        cases hOther

/- An installed route without work has served everybody. -/
theorem served_of_stuck
    {trace : List Event} {s : State}
    (hReach : (lts source binding).Reachable trace s)
    (hInstalled : s.phase ≠ .notInstalled)
    (hStuck : (lts source binding).Stuck Event.IsWork s) :
    Served binding trace s := by
  have hAt := receiver_of_reachable hReach
  have hProgress := (progress_of_reachable hReach).1
  have hHolds :=
    Source.holds_of_reachable (source_reachable hReach)
  have hRequests :
      ∀ e s', Source.Step source s.source e s' →
        IsRequestEvent e → e.brings = 0 →
          ∃ r message, e = .disconnected r message := by
    intro e s' hMove hRequest hFree
    cases e with
    | disconnected r message => exact ⟨r, message, rfl⟩
    | arrived | numberedElsewhere | openFailed =>
        cases hFree
    | opened | yielded | dropped => exact hRequest.elim
    | _ =>
        exact (hStuck _ _ (Step.request hMove hRequest)
          trivial).elim
  cases hPhase : s.phase with
  | notInstalled => exact absurd hPhase hInstalled
  | working position rest panics =>
      exfalso
      rw [hPhase] at hAt
      cases rest with
      | cons effect rest =>
          exact hStuck _ _ (Step.perform hPhase) trivial
      | nil =>
          cases panics with
          | false =>
              exact hStuck _ _ (Step.continue hPhase) trivial
          | true =>
              have hAlive : s.source.receiver ≠ .dropped := by
                rw [show s.source.receiver = _ from hAt]
                simp
              exact hStuck _ _
                (Step.unwind hPhase (Source.Step.drop hAlive))
                trivial
  | waiting =>
      rw [hPhase] at hAt hProgress
      have hEmpty : s.source.buffer = [] := by
        cases hBuffer : s.source.buffer with
        | nil => rfl
        | cons message rest =>
            exact (hStuck _ _
              (Step.next hPhase
                (Source.Step.yield hAt hBuffer))
              trivial).elim
      have hLost :
          (sourceEvents trace).flatMap Source.Event.lost =
            [] :=
        hHolds.kept (by
          rw [show s.source.receiver = _ from hAt]
          simp)
      refine ⟨?_, hEmpty, ?_⟩
      · intro r request hRequest
        refine not_isPending_of_stuck hRequests ?_ hRequest
        intro _
        rw [hEmpty]
        exact source.capacity_pos
      · rw [accepted_eq hReach, hEmpty, hLost,
          List.append_nil, List.append_nil]
        exact hProgress.performed_eq_of_waiting
  | ended =>
      rw [hPhase] at hAt hProgress
      refine ⟨?_, hHolds.gone hAt, ?_⟩
      · intro r request hRequest
        exact not_isPending_of_stuck hRequests
          (fun hAlive => absurd hAt hAlive) hRequest
      · rw [accepted_eq hReach]
        exact hProgress.performed_eq_of_ended _

/- A route is installed once. -/
theorem Step.installed
    {s s' : State} {e : Event}
    (hInstalled : s.phase ≠ .notInstalled)
    (hStep : Step source binding s e s') :
    s'.phase ≠ .notInstalled := by
  cases hStep with
  | request => exact hInstalled
  | _ => nofun

/-
  Once a route is installed, the requests that have arrived
  are all answered, after a bounded amount of work in any
  order: none waits for ever for room in the channel, even
  if the route unwinds.  Everything that was accepted has
  then been processed in order, up to the message the route
  unwound on.
-/
theorem every_request_is_answered
    {trace : List Event} {s : State}
    (hReach : (lts source binding).Reachable trace s)
    (hInstalled : s.phase ≠ .notInstalled) :
    (∀ more s',
      (lts source binding).Continues Event.IsWork s more s' →
        more.length ≤ s.workLeft ∧
          ((lts source binding).Stuck Event.IsWork s' →
            Served binding (trace ++ more) s')) ∧
      ∃ more s',
        (lts source binding).Continues Event.IsWork s
            more s' ∧
          (lts source binding).Stuck Event.IsWork s' := by
  have hFree :
      ∀ e : Event, e.IsWork →
        (budget source binding).paid e = 0 :=
    fun e hWork => hWork.brings_eq_zero
  constructor
  · intro more s' hMore
    have hBound := (budget source binding).continues_le hFree
      hReach hMore
    refine ⟨Nat.le_trans (Nat.le_add_right _ _) hBound, ?_⟩
    intro hStuck
    have hKept : s'.phase ≠ .notInstalled :=
      hMore.keeps (fun s e s' _ hInstalled hStep =>
        Step.installed hInstalled hStep) hInstalled
    exact served_of_stuck (hReach.continue hMore) hKept hStuck
  · exact (budget source binding).exists_stuck hFree hReach

/- The handler consumes messages and unwinds on the second. -/
def unwindingBinding (position : Nat) : RouteBinding Unit where
  source := { decode := fun _ => .ok () }
  handler :=
    { consume := fun _ _ =>
        if position = 1 then none else some (.ok ())
      call := fun _ _ _ => none }
  target := none
  errorTarget := none
  failureDecision := .retry
  failureValue := fun _ => .ok ()

/- A source with room for one message. -/
def narrowSource : HttpSource :=
  HttpSource.withCapacity 1

/-
  While the route is at the first of three messages, the
  second one fills the channel and the third one waits.
-/
def installedTrace : List Event :=
  [.source (.arrived 0 sampleRequest),
    .source (.numbered 0 (sampleMessage 7)),
    .source (.queued 0 (sampleMessage 7)),
    .source .opened,
    .source (.arrived 1 sampleRequest),
    .source (.arrived 2 sampleRequest),
    .source (.numbered 1 (sampleMessage 8)),
    .source (.yielded (sampleMessage 7)),
    .performed 0 (.handled (sampleMessage 7)),
    .source (.queued 1 (sampleMessage 8)),
    .source (.numbered 2 (sampleMessage 9))]

def installedState : State where
  source :=
    { requests :=
        [⟨sampleRequest, .answered .accepted⟩,
          ⟨sampleRequest, .answered .accepted⟩,
          ⟨sampleRequest, .sending (sampleMessage 9)⟩]
      buffer := [sampleMessage 8]
      receiver := .streaming
      nextRequestId := 10 }
  phase := .working 0 [.settled (sampleMessage 7) .ack] false
  position := 1

theorem installed_reachable :
    (lts narrowSource unwindingBinding).Reachable
      installedTrace installedState := by
  have h :
      (lts narrowSource unwindingBinding).Reachable []
        { source :=
            { requests := [], buffer := []
              receiver := .held, nextRequestId := 7 }
          phase := .notInstalled, position := 0 } :=
    .initial ⟨⟨rfl, rfl, rfl⟩, rfl, rfl⟩
  -- the first request is accepted before the route is there
  have h := h.step
    (Step.request (.arrive sampleRequest) trivial)
  have h := h.step (Step.request
    (@Source.Step.number _ _ 0 _ FiniteMap.Iteration.identity
      "fresh" (sampleMessage 7) rfl rfl rfl) trivial)
  have h := h.step (Step.request
    (@Source.Step.queue _ _ 0 _ (sampleMessage 7) rfl rfl nofun
      (by decide)) trivial)
  have h := h.step (Step.install rfl (.open rfl))
  have h := h.step
    (Step.request (.arrive sampleRequest) trivial)
  have h := h.step
    (Step.request (.arrive sampleRequest) trivial)
  have h := h.step (Step.request
    (@Source.Step.number _ _ 1 _ FiniteMap.Iteration.identity
      "fresh" (sampleMessage 8) rfl rfl rfl) trivial)
  -- the route takes its message and makes room
  have h := h.step (Step.next rfl (.yield rfl rfl))
  have h := h.step (@Step.perform _ _ _ _ 0 _ _ _ rfl)
  have h := h.step (Step.request
    (@Source.Step.queue _ _ 1 _ (sampleMessage 8) rfl rfl nofun
      (by decide)) trivial)
  have h := h.step (Step.request
    (@Source.Step.number _ _ 2 _ FiniteMap.Iteration.identity
      "fresh" (sampleMessage 9) rfl rfl rfl) trivial)
  exact h

/- What is done comes first in what the route will do. -/
theorem accepted_requests_processed_installed :
    effects installedTrace <+:
      (runRoute unwindingBinding
        (accepted installedTrace)).effects :=
  accepted_requests_processed installed_reachable

/- The others are answered, though the route unwinds. -/
theorem every_request_is_answered_installed :
    ∃ more s',
      (lts narrowSource unwindingBinding).Continues
          Event.IsWork installedState more s' ∧
        Served unwindingBinding (installedTrace ++ more) s' := by
  have hAnswered := every_request_is_answered
    installed_reachable
    (fun hPhase => by simp [installedState] at hPhase)
  rcases hAnswered.2 with ⟨more, s', hMore, hStuck⟩
  exact ⟨more, s', hMore,
    (hAnswered.1 more s' hMore).2 hStuck⟩

end Fed

end Http

end Qanat
