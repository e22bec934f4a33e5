import Qanat.Outbox.Accounting
import Qanat.Router.Install.Model
import Qanat.Router.Settlement

/-
  An installed route that is fed by an outbox source: when
  the task of the route polls the stream, and what it has
  settled by then.

  Main declarations:
    * `OutboxRoute`, `Fed.State`, `Fed.Step`, `Fed.lts`
    * `Fed.OneOutstanding`
    * `Fed.one_outstanding_of_sequential`
    * `Fed.lease_runs_beside_job`
-/

------------------------------------------------------------
-- The Route
------------------------------------------------------------

namespace Qanat

namespace Outbox

open Transition
open Router

/-
  The components of the route, which may return something
  else for every delivery, and its partition binding.
-/
structure OutboxRoute (Value : Type) where
  binding : DeliveryId → RouteBinding Value
  resolver : Option (DeliveryId → PartitionResolver Value)

namespace OutboxRoute

variable {Value : Type}

/- What is done with a record that the source yields. -/
def process
    (route : OutboxRoute Value)
    (delivery : DeliveryId) (leased : LeasedOutboxRecord) :
    Logged RouteEffect Unit :=
  processRouteMessage (route.binding delivery)
    (routeMessage delivery leased.record)

/- What is done with a record whose key cannot be resolved. -/
def fail
    (route : OutboxRoute Value)
    (delivery : DeliveryId) (leased : LeasedOutboxRecord)
    (error : RouteError) :
    Logged RouteEffect Unit :=
  (route.binding delivery).fail
    (routeMessage delivery leased.record) error none

/- The result of a resolver for a record. -/
def resolve
    (route : OutboxRoute Value)
    (resolver : DeliveryId → PartitionResolver Value)
    (delivery : DeliveryId) (leased : LeasedOutboxRecord) :
    Except RouteError String :=
  resolver delivery (routeMessage delivery leased.record)
    (route.binding delivery).source.decode

/- The boxed future that is submitted for a record. -/
def job
    (route : OutboxRoute Value)
    (delivery : DeliveryId) (leased : LeasedOutboxRecord) :
    Partitioner.Task JobEffect where
  effects :=
    (route.process delivery leased).effects.map
      (fun effect => ⟨some delivery, effect⟩)
  panics := (route.process delivery leased).outcome.isNone

end OutboxRoute

end Outbox

end Qanat

------------------------------------------------------------
-- States and Events
------------------------------------------------------------

namespace Qanat

namespace Outbox

namespace Fed

open Router
open Partitioner (CallId)

/-
  Where the task of the route is.  `polling` awaits the
  stream, and with a partition binding the completions too;
  `working` has effects left to perform for a delivery, and
  may unwind after them; `settling` awaits a settle call.
-/
inductive Phase where
| polling
| resolving
    (delivery : DeliveryId) (leased : LeasedOutboxRecord)
| working
    (delivery : DeliveryId) (rest : List RouteEffect)
    (panics : Bool)
| settling
    (call : SettleId) (delivery : DeliveryId)
    (rest : List RouteEffect) (panics : Bool)
| submitting (delivery : DeliveryId) (call : CallId)
| ended
deriving DecidableEq

/-
  `replied` are the settle calls that have their result and
  `awaiting` the jobs that have made one, with it.
-/
structure State where
  outbox : Outbox.State
  domain : Partitioner.State JobEffect
  phase : Phase
  sourceOpen : Bool
  pending : List CallId
  replied : List SettleId
  awaiting : List (CallId × SettleId)

/- The route owns the first handle of the domain. -/
def State.start : State where
  outbox := Outbox.State.start
  domain := Partitioner.State.start
  phase := .polling
  sourceOpen := true
  pending := []
  replied := []
  awaiting := []

/- `jobSettled` is a settle call made by a job of the route. -/
inductive Event where
| outbox (event : Outbox.Event)
| domain (event : Partitioner.Event JobEffect)
| unresolved (delivery : DeliveryId) (error : RouteError)
| submitted
    (delivery : DeliveryId) (key : String) (call : CallId)
| jobSettled
    (key : String) (job : CallId) (call : SettleId)
    (delivery : DeliveryId) (decision : DeliveryDecision)
| performed (delivery : DeliveryId) (effect : RouteEffect)
| settled (delivery : DeliveryId)
| continued (delivery : DeliveryId)
| unwound (delivery : DeliveryId)
| pushed (call : CallId)
| completionSeen (call : CallId)
| sourceEnded
| ended

/- The stream moves while the route polls it. -/
def PolledEvent : Outbox.Event → Prop
| .stream (.yielded _ _) => False
| .stream .dropped => False
| .stream _ => True
| .registering _ _ => True
| .registrationFailed _ => True
| _ => False

/- The actor and the renewals move at any time. -/
def BackgroundEvent : Outbox.Event → Prop
| .renewal _ _ => True
| .registered _ _ => True
| .settleTaken _ _ _ _ => True
| .stored _ _ _ => True
| .deadlineFailed _ _ => True
| .actorStopped => True
| _ => False

/- The job does not wait for a settle call. -/
def State.Free (s : State) (job : CallId) : Prop :=
  ∀ call, (job, call) ∈ s.awaiting → call ∈ s.replied

/- A settlement by a job of this route. -/
def Settles (effect : JobEffect) : Prop :=
  effect.origin.isSome = true ∧
    effect.effect.settled?.isSome = true

/-
  What may happen in the domain apart from what the route
  does in it: the jobs of others do not settle here and the
  route's own call and handle are its own.
-/
def State.Admits (s : State) :
    Partitioner.Event JobEffect → Prop
| .called _ _ task =>
    ∀ effect ∈ task.effects, effect.origin = none
| .performed _ job effect => ¬ Settles effect ∧ s.Free job
| .finished _ job => s.Free job
| .cancelled call =>
    ∀ delivery, s.phase ≠ .submitting delivery call
| .dropped => s.phase = .ended ∨ 1 < s.domain.handles
| _ => True

end Fed

end Outbox

end Qanat

------------------------------------------------------------
-- Steps
------------------------------------------------------------

namespace Qanat

namespace Outbox

namespace Fed

open Transition Router
open Partitioner (CallId Call)

variable {Value : Type}

/- The steps of the route, of its source and of its domain. -/
inductive Step
    (route : OutboxRoute Value) (config : Config)
    (partitioning : Partitioner.Config) :
    State → Event → State → Prop where
| poll
    {s : State} {event : Outbox.Event}
    {outbox : Outbox.State} :
    s.phase = .polling →
    s.sourceOpen = true →
    Outbox.Step config s.outbox event outbox →
    PolledEvent event →
    Step route config partitioning s (.outbox event)
      { s with outbox := outbox }
| background
    {s : State} {event : Outbox.Event}
    {outbox : Outbox.State} :
    Outbox.Step config s.outbox event outbox →
    BackgroundEvent event →
    Step route config partitioning s (.outbox event)
      { s with outbox := outbox }
| reply
    {s : State} {call : SettleId}
    {result : Except BusError Unit}
    {outbox : Outbox.State} :
    Outbox.Step config s.outbox (.replied call result)
      outbox →
    Step route config partitioning s
      (.outbox (.replied call result))
      { s with
        outbox := outbox
        replied := call :: s.replied }
| domain
    {s : State} {event : Partitioner.Event JobEffect}
    {domain : Partitioner.State JobEffect} :
    Partitioner.Step partitioning s.domain event domain →
    s.Admits event →
    Step route config partitioning s (.domain event)
      { s with domain := domain }
-- `subscription.next()` has a message
| «yield»
    {s : State} {delivery : DeliveryId}
    {leased : LeasedOutboxRecord} {outbox : Outbox.State} :
    s.phase = .polling →
    s.sourceOpen = true →
    Outbox.Step config s.outbox
      (.stream (.yielded delivery leased)) outbox →
    Step route config partitioning s
      (.outbox (.stream (.yielded delivery leased)))
      { s with
        outbox := outbox
        phase :=
          match route.resolver with
          | some _ => .resolving delivery leased
          | none =>
              .working delivery
                (route.process delivery leased).effects
                (route.process delivery
                  leased).outcome.isNone }
-- the resolver fails
| unresolve
    {s : State} {delivery : DeliveryId}
    {leased : LeasedOutboxRecord} {error : RouteError}
    {resolver : DeliveryId → PartitionResolver Value} :
    s.phase = .resolving delivery leased →
    route.resolver = some resolver →
    route.resolve resolver delivery leased = .error error →
    Step route config partitioning s (.unresolved delivery error)
      { s with
        phase :=
          .working delivery
            (route.fail delivery leased error).effects
            (route.fail delivery
              leased error).outcome.isNone }
-- `pending.push(submit_task(key, task).await)`
| submit
    {s : State} {delivery : DeliveryId}
    {leased : LeasedOutboxRecord} {key : String}
    {resolver : DeliveryId → PartitionResolver Value}
    {call : CallId} {domain : Partitioner.State JobEffect} :
    s.phase = .resolving delivery leased →
    route.resolver = some resolver →
    route.resolve resolver delivery leased = .ok key →
    Partitioner.Step partitioning s.domain
      (.called key call (route.job delivery leased))
      domain →
    Step route config partitioning s
      (.submitted delivery key call)
      { s with
        domain := domain
        phase := .submitting delivery call }
| push
    {s : State} {delivery : DeliveryId} {c : CallId}
    {call : Call JobEffect} :
    s.phase = .submitting delivery c →
    s.domain.calls[c]? = some call →
    call.phase = .returned →
    Step route config partitioning s (.pushed c)
      { s with
        phase := .polling
        pending := s.pending ++ [c] }
| unwindSubmission
    {s : State} {delivery : DeliveryId} {c : CallId}
    {call : Call JobEffect} :
    s.phase = .submitting delivery c →
    s.domain.calls[c]? = some call →
    call.phase = .panicked →
    Step route config partitioning s (.unwound delivery)
      { s with phase := .ended }
-- `pending.next()`
| see {s : State} {c : CallId} :
    s.phase = .polling →
    c ∈ s.pending →
    s.domain.Released c →
    Step route config partitioning s (.completionSeen c)
      { s with pending := s.pending.erase c }
-- the effects performed by the task of the route
| perform
    {s : State} {delivery : DeliveryId}
    {effect : RouteEffect} {rest : List RouteEffect}
    {panics : Bool} :
    s.phase = .working delivery (effect :: rest) panics →
    effect.settled? = none →
    Step route config partitioning s
      (.performed delivery effect)
      { s with phase := .working delivery rest panics }
| settle
    {s : State} {delivery : DeliveryId}
    {message : RouteMessage} {decision : DeliveryDecision}
    {rest : List RouteEffect} {panics : Bool}
    {call : SettleId} {outbox : Outbox.State} :
    s.phase =
      .working delivery (.settled message decision :: rest)
        panics →
    Outbox.Step config s.outbox
      (.settleCalled call delivery decision) outbox →
    Step route config partitioning s
      (.outbox (.settleCalled call delivery decision))
      { s with
        outbox := outbox
        phase := .settling call delivery rest panics }
| settled
    {s : State} {delivery : DeliveryId}
    {rest : List RouteEffect} {panics : Bool}
    {call : SettleId} :
    s.phase = .settling call delivery rest panics →
    call ∈ s.replied →
    Step route config partitioning s (.settled delivery)
      { s with phase := .working delivery rest panics }
| «continue» {s : State} {delivery : DeliveryId} :
    s.phase = .working delivery [] false →
    Step route config partitioning s (.continued delivery)
      { s with phase := .polling }
| unwind {s : State} {delivery : DeliveryId} :
    s.phase = .working delivery [] true →
    Step route config partitioning s (.unwound delivery)
      { s with phase := .ended }
-- a job of the route reaches its settlement
| jobSettle
    {s : State} {key : String} {job : CallId}
    {delivery : DeliveryId} {message : RouteMessage}
    {decision : DeliveryDecision} {call : SettleId}
    {domain : Partitioner.State JobEffect}
    {outbox : Outbox.State} :
    s.Free job →
    Partitioner.Step partitioning s.domain
      (.performed key job
        ⟨some delivery, .settled message decision⟩)
      domain →
    Outbox.Step config s.outbox
      (.settleCalled call delivery decision) outbox →
    Step route config partitioning s
      (.jobSettled key job call delivery decision)
      { s with
        outbox := outbox
        domain := domain
        awaiting := (job, call) :: s.awaiting }
-- the loop ends with the stream and its completions
| endSource {s : State} :
    s.phase = .polling →
    s.sourceOpen = true →
    s.outbox.stream = .ended →
    Step route config partitioning s .sourceEnded
      { s with sourceOpen := false }
| «end» {s : State} :
    s.phase = .polling →
    s.sourceOpen = false →
    s.pending = [] →
    Step route config partitioning s .ended
      { s with phase := .ended }
| dropStream {s : State} {outbox : Outbox.State} :
    s.phase = .ended →
    Outbox.Step config s.outbox (.stream .dropped) outbox →
    Step route config partitioning s (.outbox (.stream .dropped))
      { s with outbox := outbox }
| dropSource {s : State} {outbox : Outbox.State} :
    s.phase = .ended →
    Outbox.Step config s.outbox .sourceDropped outbox →
    Step route config partitioning s (.outbox .sourceDropped)
      { s with outbox := outbox }

/- A route installed over an open outbox source. -/
def lts
    (route : OutboxRoute Value) (config : Config)
    (partitioning : Partitioner.Config) :
    Lts State Event where
  initial s := s = State.start
  step := Step route config partitioning

end Fed

end Outbox

end Qanat

------------------------------------------------------------
-- One Outstanding Lease
------------------------------------------------------------

namespace Qanat

namespace Outbox

namespace Fed

open Transition Router
open Partitioner (CallId Call)

/- The settle call for a delivery has returned. -/
def Settled (delivery : DeliveryId) (trace : List Event) :
    Prop :=
  ∃ call decision result,
    Event.outbox (.settleCalled call delivery decision) ∈
        trace ∧
      Event.outbox (.replied call result) ∈ trace

/-
  Whenever the source calls `claim`, every record it has
  yielded has been settled.
-/
def OneOutstanding (trace : List Event) : Prop :=
  ∀ earlier later claim,
    trace =
        earlier ++ .outbox (.stream (.claimCalled claim)) ::
          later →
      ∀ delivery leased,
        Event.outbox (.stream (.yielded delivery leased)) ∈
            earlier →
          Settled delivery earlier

/- No record of the run is submitted to a partition domain. -/
def Sequential (trace : List Event) : Prop :=
  ∀ delivery key call,
    Event.submitted delivery key call ∉ trace

variable {Value : Type} {route : OutboxRoute Value}
variable {config : Config}
variable {partitioning : Partitioner.Config}

theorem Settled.append
    {delivery : DeliveryId} {trace : List Event}
    (hSettled : Settled delivery trace) (e : Event) :
    Settled delivery (trace ++ [e]) := by
  rcases hSettled with ⟨call, decision, result, hCall, hReply⟩
  exact ⟨call, decision, result,
    List.mem_append_left _ hCall,
    List.mem_append_left _ hReply⟩

/- The effects hold a settlement that is still to be made. -/
def WillSettle (rest : List RouteEffect) : Prop :=
  ∃ message decision, RouteEffect.settled message decision ∈ rest

/- All records but one have been settled. -/
def AllSettledBut
    (exempt : DeliveryId → Prop) (trace : List Event) : Prop :=
  ∀ delivery leased,
    Event.outbox (.stream (.yielded delivery leased)) ∈
        trace →
      ¬ exempt delivery → Settled delivery trace

/-
  What has been settled, by where the task is.  A record
  whose processing unwinds ends the task.
-/
def Progress (trace : List Event) : Phase → Prop
| .polling => AllSettledBut (fun _ => False) trace
| .resolving delivery _ => AllSettledBut (· = delivery) trace
| .working delivery rest panics =>
    AllSettledBut (· = delivery) trace ∧
      (panics = false →
        Settled delivery trace ∨ WillSettle rest)
| .settling call delivery _ _ =>
    AllSettledBut (· = delivery) trace ∧
      ∃ decision,
        Event.outbox (.settleCalled call delivery decision) ∈
          trace
| .submitting _ _ => False
| .ended => True

theorem AllSettledBut.append
    {exempt : DeliveryId → Prop} {trace : List Event}
    {e : Event}
    (hAll : AllSettledBut exempt trace)
    (hNew : ∀ delivery leased,
      e = .outbox (.stream (.yielded delivery leased)) →
        exempt delivery) :
    AllSettledBut exempt (trace ++ [e]) := by
  intro delivery leased hMem hRest
  rcases List.mem_append.mp hMem with hOld | hLast
  · exact (hAll delivery leased hOld hRest).append e
  · have hEq := List.mem_singleton.mp hLast
    exact absurd (hNew delivery leased hEq.symm) hRest

/- An event that yields nothing keeps what has been settled. -/
theorem Progress.append
    {trace : List Event} {phase : Phase} {e : Event}
    (hProgress : Progress trace phase)
    (hNew : ∀ delivery leased,
      e ≠ .outbox (.stream (.yielded delivery leased))) :
    Progress (trace ++ [e]) phase := by
  have hSame (exempt : DeliveryId → Prop)
      (hAll : AllSettledBut exempt trace) :
      AllSettledBut exempt (trace ++ [e]) :=
    hAll.append (fun delivery leased hEq =>
      absurd hEq (hNew delivery leased))
  cases phase with
  | polling => exact hSame _ hProgress
  | resolving delivery leased => exact hSame _ hProgress
  | working delivery rest panics =>
      refine ⟨hSame _ hProgress.1, ?_⟩
      intro hReturns
      rcases hProgress.2 hReturns with hSettled | hWill
      · exact Or.inl (hSettled.append e)
      · exact Or.inr hWill
  | settling call delivery rest panics =>
      rcases hProgress.2 with ⟨decision, hCalled⟩
      exact ⟨hSame _ hProgress.1, decision,
        List.mem_append_left _ hCalled⟩
  | submitting delivery call => exact hProgress
  | ended => trivial

/- A message whose processing returns has a settlement. -/
theorem willSettle_of_returns
    {binding : RouteBinding Value} {message : RouteMessage}
    (hReturns :
      (processRouteMessage binding message).outcome.isNone =
        false) :
    WillSettle
      (processRouteMessage binding message).effects := by
  have hNot : ¬ binding.Unwinds message := by
    rw [← outcome_eq_none_iff, ← Option.isNone_iff_eq_none,
      hReturns]
    exact Bool.false_ne_true
  rcases settled_of_returns hNot with ⟨_, decision, hOnce⟩
  have hMem :
      (message, decision) ∈
        (processRouteMessage binding
          message).effects.filterMap
          RouteEffect.settled? := by
    rw [hOnce]
    exact List.mem_singleton.mpr rfl
  rcases List.mem_filterMap.mp hMem with ⟨e, hE, hPair⟩
  cases e with
  | settled _ _ => exact ⟨_, _, hE⟩
  | _ => cases hPair

/- So has a failure whose delivery returns. -/
theorem willSettle_of_fail
    {binding : RouteBinding Value} {message : RouteMessage}
    {error : RouteError}
    (hReturns :
      (binding.fail message error none).outcome.isNone =
        false) :
    WillSettle (binding.fail message error none).effects := by
  have hNot : ¬ binding.FailureUnwinds message error none := by
    intro hUnwinds
    rw [(settled_of_failureUnwinds hUnwinds).1] at hReturns
    cases hReturns
  have hMem :
      (message, binding.failureDecision) ∈
        (binding.fail message error none).effects.filterMap
          RouteEffect.settled? := by
    rw [(settled_of_fail hNot).2]
    exact List.mem_singleton.mpr rfl
  rcases List.mem_filterMap.mp hMem with ⟨e, hE, hPair⟩
  cases e with
  | settled _ _ => exact ⟨_, _, hE⟩
  | _ => cases hPair

/- What the source has replied has been seen. -/
theorem replied_mem
    {trace : List Event} {s : State}
    (hReach :
      (lts route config partitioning).Reachable trace s)
    {call : SettleId}
    (hReplied : call ∈ s.replied) :
    ∃ result, Event.outbox (.replied call result) ∈ trace := by
  induction hReach with
  | initial hInitial =>
      subst hInitial
      cases hReplied
  | @step trace s s' e hReach hStep ih =>
      have hOld (hMem : call ∈ s.replied) :
          ∃ result,
            Event.outbox (.replied call result) ∈
              trace ++ [e] := by
        rcases ih hMem with ⟨result, hBefore⟩
        exact ⟨result, List.mem_append_left _ hBefore⟩
      cases hStep with
      | @reply call' result _ hMove =>
          rcases List.mem_cons.mp hReplied with rfl | hRest
          · exact ⟨result, by simp⟩
          · exact hOld hRest
      | _ => exact hOld hReplied

theorem Progress.step
    {trace : List Event} {s s' : State} {e : Event}
    (hReach :
      (lts route config partitioning).Reachable trace s)
    (hProgress : Progress trace s.phase)
    (hStep :
      Step route config partitioning s e s')
    (hSequential : ∀ delivery key call,
      e ≠ .submitted delivery key call) :
    Progress (trace ++ [e]) s'.phase := by
  cases hStep with
  | poll _ _ _ hPolled =>
      apply hProgress.append
      rintro delivery leased ⟨⟩
      exact hPolled
  | background _ hBackground =>
      apply hProgress.append
      rintro delivery leased ⟨⟩
      exact hBackground
  | reply => exact hProgress.append nofun
  | domain => exact hProgress.append nofun
  | @«yield» delivery leased outbox hPhase _ _ =>
      rw [hPhase] at hProgress
      have hAll :
          AllSettledBut (· = delivery)
            (trace ++
              [.outbox
                (.stream (.yielded delivery leased))]) := by
        apply AllSettledBut.append
        · intro other record hMem _
          exact hProgress other record hMem id
        · rintro other record ⟨⟩
          rfl
      cases hResolver : route.resolver with
      | some resolver => exact hAll
      | none =>
          refine ⟨hAll, fun hReturns => Or.inr ?_⟩
          exact willSettle_of_returns hReturns
  | @unresolve delivery leased error resolver hPhase _ _ =>
      rw [hPhase] at hProgress
      refine ⟨hProgress.append nofun, ?_⟩
      intro hReturns
      exact Or.inr (willSettle_of_fail hReturns)
  | submit => exact absurd rfl (hSequential _ _ _)
  | push hPhase =>
      rw [hPhase] at hProgress
      exact hProgress.elim
  | unwindSubmission => trivial
  | see => exact hProgress.append nofun
  | @perform delivery effect rest panics hPhase hOther =>
      rw [hPhase] at hProgress
      refine ⟨hProgress.1.append nofun, ?_⟩
      intro hReturns
      rcases hProgress.2 hReturns with hSettled | hWill
      · exact Or.inl (hSettled.append _)
      · rcases hWill with ⟨message, decision, hMem⟩
        rcases List.mem_cons.mp hMem with rfl | hRest
        · cases hOther
        · exact Or.inr ⟨message, decision, hRest⟩
  | @settle delivery message decision rest panics call outbox
      hPhase _ =>
      rw [hPhase] at hProgress
      exact ⟨hProgress.1.append nofun, decision, by simp⟩
  | @settled delivery rest panics call hPhase hReplied =>
      rw [hPhase] at hProgress
      rcases hProgress.2 with ⟨decision, hCalled⟩
      rcases replied_mem hReach hReplied with ⟨result, hReply⟩
      refine ⟨hProgress.1.append nofun, fun _ => Or.inl ?_⟩
      exact ⟨call, decision, result,
        List.mem_append_left _ hCalled,
        List.mem_append_left _ hReply⟩
  | @«continue» delivery hPhase =>
      rw [hPhase] at hProgress
      have hOwn : Settled delivery trace := by
        rcases hProgress.2 rfl with hSettled | ⟨_, _, hMem⟩
        · exact hSettled
        · cases hMem
      have hAll : AllSettledBut (fun _ => False) trace := by
        intro other leased hMem _
        by_cases hOther : other = delivery
        · rw [hOther]
          exact hOwn
        · exact hProgress.1 other leased hMem hOther
      exact hAll.append nofun
  | unwind => trivial
  | jobSettle => exact hProgress.append nofun
  | endSource => exact hProgress.append nofun
  | «end» => trivial
  | dropStream => exact hProgress.append nofun
  | dropSource => exact hProgress.append nofun

theorem progress_of_sequential
    {trace : List Event} {s : State}
    (hReach :
      (lts route config partitioning).Reachable trace s)
    (hSequential : Sequential trace) :
    Progress trace s.phase := by
  induction hReach with
  | initial hInitial =>
      subst hInitial
      rintro delivery leased ⟨⟩
  | step hReach hStep ih =>
      have hBefore := ih (fun delivery key call hMem =>
        hSequential delivery key call
          (List.mem_append_left _ hMem))
      apply hBefore.step hReach hStep
      rintro delivery key call rfl
      exact hSequential delivery key call (by simp)

/-
  Without a partition binding, or with a resolver that always
  fails, no record is submitted.
-/
theorem sequential_of_unresolved
    {trace : List Event} {s : State}
    (hReach :
      (lts route config partitioning).Reachable trace s)
    (hUnresolved : ∀ resolver delivery leased key,
      route.resolver = some resolver →
        route.resolve resolver delivery leased ≠ .ok key) :
    Sequential trace := by
  intro delivery key call hMem
  rcases hReach.step_of_mem hMem with
    ⟨_, _, r, r', _, _, hStep⟩
  cases hStep with
  | submit _ hResolver hResolve _ =>
      exact hUnresolved _ _ _ _ hResolver hResolve

/-
  As long as no record is submitted to a partition domain,
  the source claims only when all it has yielded is settled.
-/
theorem one_outstanding_of_sequential
    {trace : List Event} {s : State}
    (hReach :
      (lts route config partitioning).Reachable trace s)
    (hSequential : Sequential trace) :
    OneOutstanding trace := by
  intro earlier later claim hTrace delivery leased hYielded
  rcases hReach.before hTrace with ⟨r, r', hBefore, hStep⟩
  have hPrefix : Sequential earlier := by
    intro other key call hMem
    apply hSequential other key call
    rw [hTrace]
    exact List.mem_append_left _ hMem
  have hProgress := progress_of_sequential hBefore hPrefix
  cases hStep with
  | poll hPhase =>
      rw [hPhase] at hProgress
      exact hProgress delivery leased hYielded id
  | background _ hBackground => cases hBackground

/- A route that consumes its messages, with a resolver or none. -/
def consumingRoute
    (resolver :
      Option (DeliveryId → PartitionResolver Unit)) :
    OutboxRoute Unit where
  binding := fun _ =>
    { source := { decode := fun _ => .ok () }
      handler :=
        { consume := fun _ _ => some (.ok ())
          call := fun _ _ _ => none }
      target := none
      errorTarget := none
      failureDecision := .retry
      failureValue := fun _ => .ok () }
  resolver := resolver

def oneJobDomain : Partitioner.Config where
  capacity := 1
  idleTimeout := 1
  capacity_pos := Nat.one_pos
  idleTimeout_pos := Nat.one_pos

/- A claim of one record, up to its yield. -/
def firstYield : List Event :=
  [.outbox (.stream .polled),
    .outbox (.stream
      (.claimCalled (sampleConfig.claim 30_000_000_000))),
    .outbox (.stream (.claimed [sampleLeased "a"])),
    .outbox (.registering 1 (sampleLeased "a")),
    .outbox (.registered 1 (sampleLeased "a").key),
    .outbox (.stream (.yielded 1 (sampleLeased "a")))]

/- The source with the first record out. -/
def firstLeased : Outbox.State where
  nextDelivery := 2
  stream := .resting
  sourceOpen := true
  calls := 0
  queue := []
  actor := .receiving
  pending :=
    Function.update (fun _ => none) 1
      (some (sampleLeased "a").key)
  renewals :=
    Function.update (fun _ => none) 1
      (some (spawnLeaseRenewal (sampleLeased "a").key))

theorem firstYield_reachable
    (resolver :
      Option (DeliveryId → PartitionResolver Unit)) :
    (lts (consumingRoute resolver) sampleConfig
        oneJobDomain).Reachable firstYield
      { State.start with
        outbox := firstLeased
        phase :=
          match resolver with
          | some _ => .resolving 1 (sampleLeased "a")
          | none =>
              .working 1
                ((consumingRoute resolver).process 1
                  (sampleLeased "a")).effects
                ((consumingRoute resolver).process 1
                  (sampleLeased "a")).outcome.isNone } := by
  have h :
      (lts (consumingRoute resolver) sampleConfig
        oneJobDomain).Reachable [] State.start :=
    .initial rfl
  have h := h.step (Step.poll rfl rfl
    (Outbox.Step.stream .poll) trivial)
  have h := h.step (Step.poll rfl rfl
    (Outbox.Step.stream
      (@StreamStep.call _ 0 _ (Nat.zero_le _) rfl)) trivial)
  have h := h.step (Step.poll rfl rfl
    (Outbox.Step.stream
      (@StreamStep.claim _ (sampleLeased "a") [])) trivial)
  have h := h.step (Step.poll rfl rfl
    (Outbox.Step.register rfl nofun) trivial)
  have h := h.step (Step.background
    (Outbox.Step.takeRegister rfl rfl) trivial)
  have h := h.step (Step.yield rfl rfl
    (Outbox.Step.stream .yield))
  cases resolver with
  | none => exact h
  | some _ => exact h

/-
  With a partition binding the source claims again while the
  first record waits for its job, whatever the handlers do.
-/
theorem lease_runs_beside_job :
    ∃ (route : OutboxRoute Unit) (trace : List Event)
      (s : State),
      (∀ delivery message,
        ¬ (route.binding delivery).Unwinds message) ∧
        (lts route sampleConfig oneJobDomain).Reachable
          trace s ∧
        ¬ OneOutstanding trace := by
  refine ⟨consumingRoute (some (fun _ _ _ => .ok "device")),
    ?_⟩
  have h := firstYield_reachable
    (some (fun _ _ _ => .ok "device"))
  have h := h.step (Step.submit rfl rfl rfl
    (Partitioner.Step.call Nat.one_pos))
  have h := h.step (Step.domain
    (@Partitioner.Step.acquire _ _ _ 0 _ rfl rfl rfl)
    trivial)
  have h := h.step (Step.domain
    (Partitioner.Step.handle rfl rfl
      (fun _ => by decide)) trivial)
  have h := h.step (Step.domain
    (@Partitioner.Step.send _ _ _ 0 _ 0 _ rfl rfl rfl nofun
      Nat.one_pos) trivial)
  have h := h.step (Step.domain
    (@Partitioner.Step.return _ _ _ 0 _ 0 rfl rfl) trivial)
  have h := h.step (@Step.push _ _ _ _ _ 1 0 _ rfl rfl rfl)
  have h := h.step (Step.poll rfl rfl
    (Outbox.Step.stream .poll) trivial)
  have h := h.step (Step.poll rfl rfl
    (Outbox.Step.stream
      (@StreamStep.call _ 0 _ (Nat.zero_le _) rfl)) trivial)
  refine ⟨_, _, nofun, h, ?_⟩
  intro hOne
  rcases hOne _ [] _ rfl 1 (sampleLeased "a")
      (by simp [firstYield]) with
    ⟨call, decision, result, hCalled, _⟩
  simp [firstYield] at hCalled

/- Without one it claims again after the settlement. -/
theorem one_outstanding_consuming :
    ∃ trace s claim,
      (lts (consumingRoute none) sampleConfig
          oneJobDomain).Reachable
        (trace ++ [.outbox (.stream (.claimCalled claim))])
        s ∧
        Event.outbox
            (.stream (.yielded 1 (sampleLeased "a"))) ∈
          trace ∧
        OneOutstanding
          (trace ++
            [.outbox (.stream (.claimCalled claim))]) := by
  have h := firstYield_reachable none
  have h := h.step (Step.perform rfl rfl)
  have h := h.step (Step.settle rfl
    (Outbox.Step.settle 1 .ack rfl nofun))
  have h := h.step (Step.background
    (Outbox.Step.takeSettle rfl rfl rfl) trivial)
  have h := h.step (Step.background
    (@Outbox.Step.renewal _ _ 1 _ _ _ rfl (.stop rfl rfl))
    trivial)
  have h := h.step (Step.background
    (@Outbox.Step.store _ _ _ _ _ _ 0 _ rfl
      (by rintro _ ⟨⟩; rfl) (Nat.zero_le _) rfl) trivial)
  have h := h.step (Step.reply
    (@Outbox.Step.return _ _ _ _ (.ok ()) rfl))
  have h := h.step (@Step.settled _ _ _ _ _ 1 [] false 0 rfl
    List.mem_cons_self)
  have h := h.step (Step.continue rfl)
  have h := h.step (Step.poll rfl rfl
    (Outbox.Step.stream .poll) trivial)
  have h := h.step (Step.poll rfl rfl
    (Outbox.Step.stream
      (@StreamStep.call _ 0 _ (Nat.zero_le _) rfl)) trivial)
  refine ⟨_, _, _, h, by simp [firstYield], ?_⟩
  apply one_outstanding_of_sequential h
  intro delivery key call
  simp [firstYield]

end Fed

end Outbox

end Qanat
