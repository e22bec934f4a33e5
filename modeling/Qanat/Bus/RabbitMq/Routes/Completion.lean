import Qanat.Bus.RabbitMq.Routes
import Qanat.Library.Budgets

/-
  Routes that are fed by a RabbitMQ bus get every message
  settled that they take.

  While the bus is there, the jobs and the settlement actor
  come to rest after a bounded amount of work, whatever the
  order.  Then the acker of every message has been called
  with the verdict on it, unless its handler has unwound.

  Main declarations:
    * `Routes.IsWork`, `Routes.budget`
    * `Routes.Finished`
    * `Routes.started_messages_are_settled`
-/

------------------------------------------------------------
-- The Budget of the Bus
------------------------------------------------------------

namespace Qanat

namespace Bus

namespace RabbitMq

namespace Deliveries

/- What a command will cost the actor. -/
def SettlementCommand.cost : SettlementCommand → Nat
| .register _ _ => 1
| .settle _ _ _ => 3

/- What the actor has still to do for the call it serves. -/
def ActorPhase.due : ActorPhase → Nat
| .settling _ _ _ => 2
| .awaiting _ => 1
| .replying _ _ => 1
| _ => 0

def State.workLeft (s : State) : Nat :=
  (s.queue.map SettlementCommand.cost).sum + s.actor.due

/- A command pays for itself; the actor works for nothing. -/
def Event.paid : Event → Nat
| .registering _ _ _ => 2
| .settleCalled _ _ _ => 4
| .registered _ _ => 0
| .settleTaken _ _ _ _ => 0
| .performed _ _ _ => 0
| .replied _ _ => 0
| _ => 1

theorem Event.Serves.paid_eq_zero
    {e : Event} (hServes : e.Serves) :
    e.paid = 0 := by
  cases e <;> first | rfl | cases hServes

theorem Step.spends
    {s s' : State} {e : Event}
    (hStep : Step s e s') :
    s'.workLeft + 1 ≤ s.workLeft + e.paid := by
  cases hStep with
  | takeRegister _ hQueue =>
      simp only [State.workLeft, hQueue, List.map_cons,
        List.sum_cons, SettlementCommand.cost, Event.paid]
      omega
  | takeSettle hActor hQueue =>
      simp only [State.workLeft, hActor, hQueue,
        List.map_cons, List.sum_cons, ActorPhase.due,
        SettlementCommand.cost, Event.paid]
      omega
  | missSettle hActor hQueue =>
      simp only [State.workLeft, hActor, hQueue,
        List.map_cons, List.sum_cons, ActorPhase.due,
        SettlementCommand.cost, Event.paid]
      omega
  | register =>
      simp [State.workLeft, State.setStream,
        SettlementCommand.cost, Event.paid]
      omega
  | settle =>
      simp [State.workLeft, SettlementCommand.cost,
        Event.paid]
      omega
  | perform hActor =>
      simp [State.workLeft, hActor, ActorPhase.due,
        Event.paid]
  | «return» _ hActor =>
      simp [State.workLeft, hActor, ActorPhase.due,
        Event.paid]
  | reply hActor =>
      simp [State.workLeft, hActor, ActorPhase.due,
        Event.paid]
  | stopActor hActor =>
      simp [State.workLeft, hActor, ActorPhase.due,
        Event.paid]
  | _ => exact Nat.le_refl _

/- An actor that cannot go on has nothing to do. -/
theorem idle_of_stuck
    {s : State}
    (hRunning : s.actor ≠ .stopped)
    (hStuck : ∀ e s', Step s e s' → ¬ e.Serves) :
    s.queue = [] ∧ s.actor = .receiving := by
  cases hActor : s.actor with
  | settling =>
      exact absurd trivial (hStuck _ _ (.perform hActor))
  | awaiting =>
      exact absurd trivial
        (hStuck _ _ (.return (.ok true) hActor))
  | replying =>
      exact absurd trivial (hStuck _ _ (.reply hActor))
  | stopped => exact absurd hActor hRunning
  | receiving =>
      refine ⟨?_, rfl⟩
      cases hQueue : s.queue with
      | nil => rfl
      | cons command rest =>
          exfalso
          cases command with
          | register =>
              exact hStuck _ _
                (.takeRegister hActor hQueue) trivial
          | settle call delivery decision =>
              cases hFound : s.ackers delivery with
              | none =>
                  exact hStuck _ _
                    (.missSettle hActor hQueue hFound) trivial
              | some acker =>
                  exact hStuck _ _
                    (.takeSettle hActor hQueue hFound) trivial

/- Nobody drops the bus by serving or by settling. -/
theorem Step.serves_open
    {s s' : State} {e : Event}
    (hOpen : s.busOpen = true)
    (hServes : e.Serves)
    (hStep : Step s e s') :
    s'.busOpen = true := by
  cases hStep <;> first | exact hOpen | cases hServes

theorem Step.settles_open
    {s s' : State} {e : Event} {delivery : DeliveryId}
    {decision : Router.DeliveryDecision}
    (hOpen : s.busOpen = true)
    (hRole : role e = .settles delivery decision)
    (hStep : Step s e s') :
    s'.busOpen = true := by
  cases hStep <;> first | exact hOpen | cases hRole

/- A settle call costs the actor what its job pays for it. -/
theorem paid_of_settles
    {e : Event} {delivery : DeliveryId}
    {decision : Router.DeliveryDecision}
    (hRole : role e = .settles delivery decision) :
    e.paid ≤ 4 := by
  cases e with
  | settleCalled => exact Nat.le_refl _
  | settleRefused =>
      change 1 ≤ 4
      omega
  | _ => cases hRole

theorem paid_of_yields
    {e : Event} {delivery : DeliveryId}
    {message : Router.RouteMessage}
    (hRole : role e = .yields delivery message) :
    e.paid = 1 := by
  cases e <;> first | rfl | cases hRole

end Deliveries

end RabbitMq

end Bus

end Qanat

------------------------------------------------------------
-- The Budget of the Routes
------------------------------------------------------------

namespace Qanat

namespace Bus

namespace RabbitMq

namespace Routes

open Transition
open Router (DeliveryDecision RouteEffect RouteMessage)
open Router.Jobs renaming Event → JobEvent,
  State → JobState, Step → JobStep
open Deliveries (StreamId SettleId)

variable {Value : Type} {routes : Router.Routes Value}
variable {trace : List (JobEvent Deliveries.Event)}
variable {s : JobState Deliveries.State}

/- A job and the actor that serves it spend four on each. -/
def workLeft (s : JobState Deliveries.State) : Nat :=
  (s.jobs.map (fun job => 4 * job.rest.length)).sum +
    s.source.workLeft

/- What the jobs and the actor do. -/
def IsWork : JobEvent Deliveries.Event → Prop
| .source event => event.Serves
| .started _ _ => False
| .performed _ _ => True
| .settling _ _ _ => True

/- A message pays for its job. -/
def paid (routes : Router.Routes Value) :
    JobEvent Deliveries.Event → Nat
| .source event => event.paid
| .started j (.yielded _ _ raw) =>
    4 * (routes.work j
      (routeMessageFromBroker raw)).effects.length + 1
| _ => 0

theorem IsWork.paid_eq_zero
    {e : JobEvent Deliveries.Event} (hWork : IsWork e) :
    paid routes e = 0 := by
  cases e with
  | source event =>
      exact Deliveries.Event.Serves.paid_eq_zero hWork
  | started => exact hWork.elim
  | performed | settling => rfl

def budget (routes : Router.Routes Value) :
    (lts routes).Budget where
  left := workLeft
  paid := paid routes
  spend := by
    intro trace s e s' _ hStep
    cases hStep with
    | source hMove =>
        have hSpent := Deliveries.Step.spends hMove
        simp only [workLeft, paid]
        omega
    | start hMove hRole =>
        have hSpent := Deliveries.Step.spends hMove
        rw [Deliveries.paid_of_yields hRole] at hSpent
        rcases Deliveries.yielded_of_role hRole with
          ⟨stream, raw, rfl, rfl⟩
        simp only [workLeft, paid, List.map_append,
          List.sum_append, List.map_singleton,
          List.sum_singleton]
        omega
    | perform hJob hRest =>
        have hLess :=
          Router.Jobs.workLeft_set 4 hJob hRest
        simp only [workLeft, paid]
        omega
    | settle hJob hRest hMove hRole =>
        have hLess :=
          Router.Jobs.workLeft_set 4 hJob hRest
        have hSpent := Deliveries.Step.spends hMove
        have hPaid := Deliveries.paid_of_settles hRole
        simp only [workLeft, paid]
        omega

/- Working does not drop the bus. -/
theorem work_open
    {s' : JobState Deliveries.State}
    {e : JobEvent Deliveries.Event}
    (hOpen : s.source.busOpen = true)
    (hWork : IsWork e)
    (hStep : (lts routes).step s e s') :
    s'.source.busOpen = true := by
  cases hStep with
  | source hMove =>
      exact Deliveries.Step.serves_open hOpen hWork hMove
  | start => exact hWork.elim
  | perform => exact hOpen
  | settle _ _ hMove hRole =>
      exact Deliveries.Step.settles_open hOpen hRole hMove

end Routes

end RabbitMq

end Bus

end Qanat

------------------------------------------------------------
-- At Rest
------------------------------------------------------------

namespace Qanat

namespace Bus

namespace RabbitMq

namespace Routes

open Transition
open Router (DeliveryDecision RouteEffect RouteMessage)
open Router.Jobs renaming Event → JobEvent,
  State → JobState, Step → JobStep
open Deliveries (StreamId SettleId)

variable {Value : Type} {routes : Router.Routes Value}
variable {trace : List (JobEvent Deliveries.Event)}
variable {s : JobState Deliveries.State}

/-
  A settle call finds the acker of the message: it was
  registered before the message was yielded, and nobody has
  settled it before.
-/
theorem found_of_called
    {before after : List Deliveries.Event}
    (hReach : (lts routes).Reachable trace s)
    {call : SettleId} {delivery : DeliveryId}
    {decision : DeliveryDecision}
    (hSplit :
      busEvents trace =
        before ++ .settleCalled call delivery decision ::
          after) :
    ∃ stream raw acker,
      Deliveries.Event.fetched stream delivery raw acker ∈
        before ∧
      Desk.lookup delivery (Deliveries.sentCommands before) =
        some acker := by
  have hBus := bus_reachable hReach
  rcases Router.Jobs.told_first hReach hSplit rfl with
    ⟨⟨origin, hOrigin, message, hYields⟩, hFirst⟩
  rcases Deliveries.yielded_of_role hYields with
    ⟨stream, raw, rfl, rfl⟩
  rcases List.mem_iff_append.mp hOrigin with
    ⟨front, back, hFront⟩
  have hYielded :
      busEvents trace =
        front ++ .yielded stream delivery raw ::
          (back ++ .settleCalled call delivery decision ::
            after) := by
    rw [hSplit, hFront, List.append_assoc, List.cons_append]
  rcases Deliveries.registered_before_yielded hBus hYielded
    with ⟨acker, hFetched, hRegistering⟩
  have hIn : ∀ {event : Deliveries.Event},
      event ∈ front → event ∈ before := by
    intro event hMem
    rw [hFront]
    exact List.mem_append_left _ hMem
  refine ⟨stream, raw, acker, hIn hFetched, ?_⟩
  rw [hSplit] at hBus
  rw [Deliveries.lookup_eq_some_iff hBus]
  refine ⟨stream, hIn hRegistering, ?_⟩
  intro call' decision' hPrecedes
  -- a call for this delivery would be an earlier one
  rcases precedes_iff_split.mp hPrecedes with
    ⟨left, right, hCalls, _⟩
  apply hFirst
  rw [hCalls]
  exact List.mem_filterMap.mpr
    ⟨_, List.mem_append_right _ List.mem_cons_self, rfl⟩

/- An idle actor has called the acker for every settlement. -/
theorem performed_of_called
    (hReach : (lts routes).Reachable trace s)
    (hActor : s.source.actor = .receiving)
    (hQueue : s.source.queue = [])
    {call : SettleId} {delivery : DeliveryId}
    {decision : DeliveryDecision}
    (hCalled :
      Deliveries.Event.settleCalled call delivery decision ∈
        busEvents trace) :
    ∃ stream raw acker,
      Deliveries.Event.fetched stream delivery raw acker ∈
        busEvents trace ∧
      Deliveries.Event.performed call acker
        (operation decision) ∈ busEvents trace := by
  have hBus := bus_reachable hReach
  rcases List.mem_iff_append.mp hCalled with
    ⟨before, after, hSplit⟩
  rcases found_of_called hReach hSplit with
    ⟨stream, raw, acker, hFetched, hFound⟩
  have hIdle : s.source.actor.call? = none := by
    rw [hActor]
    rfl
  rcases Deliveries.replied_of_called hBus hIdle hQueue
      hCalled with ⟨result, hReplied⟩
  refine ⟨stream, raw, acker, ?_, ?_⟩
  · rw [hSplit]
    exact List.mem_append_left _ hFetched
  · rcases (Deliveries.served_of_called hBus
        hSplit).replied _ hReplied with
      ⟨hMissing, _⟩ | ⟨acker', _, hSome, hPerformed, _⟩
    · rw [hFound] at hMissing
      cases hMissing
    · rw [hFound, Option.some.injEq] at hSome
      subst hSome
      exact hPerformed

/-
  What has become of a message once everybody is at rest: its
  acker was called with the verdict on it, or, if its handler
  has unwound, not at all.
-/
def Settled
    (routes : Router.Routes Value)
    (trace : List (JobEvent Deliveries.Event))
    (j : Router.JobId) (message : RouteMessage)
    (acker : Acker) : Prop :=
  (routes.Unwinds j message ∧
      acker ∉ Deliveries.operated (busEvents trace)) ∨
    (¬ routes.Unwinds j message ∧
      ∃ call decision, routes.Verdict j message decision ∧
        JobEvent.source (.performed call acker
          (operation decision)) ∈ trace)

/- Every message that was taken is done with. -/
structure Finished
    (routes : Router.Routes Value)
    (trace : List (JobEvent Deliveries.Event))
    (s : JobState Deliveries.State) : Prop where
  idle :
    s.source.queue = [] ∧ s.source.actor = .receiving
  done : ∀ job ∈ s.jobs, job.rest = []
  settled : ∀ j stream delivery raw,
    JobEvent.started j (.yielded stream delivery raw) ∈
        trace →
      ∃ acker,
        JobEvent.source (.fetched stream delivery raw acker) ∈
          trace ∧
        Settled routes trace j (routeMessageFromBroker raw)
          acker

/- Who cannot go on has finished. -/
theorem idle_of_stuck
    (hReach : (lts routes).Reachable trace s)
    (hOpen : s.source.busOpen = true)
    (hStuck : (lts routes).Stuck IsWork s) :
    (s.source.queue = [] ∧ s.source.actor = .receiving) ∧
      ∀ job ∈ s.jobs, job.rest = [] := by
  have hRunning : s.source.actor ≠ .stopped := by
    intro hStopped
    have hShut := (Deliveries.stopped_of_reachable
      (bus_reachable hReach) hStopped).2.1
    rw [hOpen] at hShut
    cases hShut
  constructor
  · apply Deliveries.idle_of_stuck hRunning
    intro e s' hMove hServes
    refine hStuck _ _ (JobStep.source hMove ?_) hServes
    cases e <;> first | rfl | cases hServes
  · exact Router.Jobs.done_of_stuck (fun _ _ => trivial)
      (fun job _ decision =>
        ⟨_, _, Deliveries.Step.settle job.delivery decision
          hOpen hRunning, rfl, fun _ _ => trivial⟩) hStuck

theorem finished_of_stuck
    (hReach : (lts routes).Reachable trace s)
    (hOpen : s.source.busOpen = true)
    (hStuck : (lts routes).Stuck IsWork s) :
    Finished routes trace s := by
  rcases idle_of_stuck hReach hOpen hStuck with
    ⟨⟨hQueue, hActor⟩, hDone⟩
  refine ⟨⟨hQueue, hActor⟩, hDone, ?_⟩
  intro j stream delivery raw hStarted
  have hBus := bus_reachable hReach
  rcases (Deliveries.numbered_of_reachable hBus).yielded _ _
      _ (Router.Jobs.mem_sourceEvents hStarted rfl) with
    ⟨acker, hFetched⟩
  refine ⟨acker, Router.Jobs.mem_of_inner hReach hFetched rfl,
    ?_⟩
  rcases Router.Jobs.settled_of_done hReach hDone hStarted rfl
    with ⟨hUnwinds, hUntold⟩ |
      ⟨hReturns, told, decision, hTold, hRole, hVerdict⟩
  · refine Or.inl ⟨hUnwinds, ?_⟩
    intro hOperated
    rcases Deliveries.exists_performed hOperated with
      ⟨call, done, hPerformed⟩
    rcases Deliveries.called_of_performed hBus hPerformed with
      ⟨stream', delivery', raw', decision, hFetched', hCalled,
        _⟩
    have hSame :=
      Deliveries.delivery_of_acker hBus hFetched hFetched'
    subst hSame
    exact hUntold (List.mem_filterMap.mpr ⟨_, hCalled, rfl⟩)
  · refine Or.inr ⟨hReturns, ?_⟩
    rcases Deliveries.called_of_role hBus hTold hRole with
      ⟨call, rfl⟩
    rcases performed_of_called hReach hActor hQueue hTold with
      ⟨stream', raw', acker', hFetched', hPerformed⟩
    rcases Deliveries.fetched_unique hBus hFetched hFetched'
      with ⟨_, _, rfl⟩
    exact ⟨call, decision, hVerdict,
      Router.Jobs.mem_of_inner hReach hPerformed rfl⟩

/-
  No message is forgotten while its bus is there.  The jobs
  and the actor can go on only for as long as there is work
  left, in whatever order they do, and when they come to rest
  every message that was taken has been settled.
-/
theorem started_messages_are_settled
    (hReach : (lts routes).Reachable trace s)
    (hOpen : s.source.busOpen = true) :
    (∀ more s',
      (lts routes).Continues IsWork s more s' →
        more.length ≤ workLeft s ∧
          ((lts routes).Stuck IsWork s' →
            Finished routes (trace ++ more) s')) ∧
      ∃ more s',
        (lts routes).Continues IsWork s more s' ∧
          (lts routes).Stuck IsWork s' := by
  have hFree :
      ∀ e, IsWork e → (budget routes).paid e = 0 :=
    fun e hWork => hWork.paid_eq_zero
  constructor
  · intro more s' hMore
    have hBound :=
      (budget routes).continues_le hFree hReach hMore
    refine ⟨Nat.le_trans (Nat.le_add_right _ _) hBound, ?_⟩
    intro hStuck
    have hStill : s'.source.busOpen = true :=
      hMore.keeps (fun s e s' hWork hOpen hStep =>
        work_open hOpen hWork hStep) hOpen
    exact finished_of_stuck (hReach.continue hMore) hStill
      hStuck
  · exact (budget routes).exists_stuck hFree hReach

theorem started_messages_are_settled_sample :
    ∃ s, (lts sampleRoutes).Reachable startedTrace s ∧
      s.source.busOpen = true ∧
      ∃ more s',
        (lts sampleRoutes).Continues IsWork s more s' ∧
          (lts sampleRoutes).Stuck IsWork s' ∧
          Finished sampleRoutes (startedTrace ++ more) s' := by
  rcases sample_reachable.1 with ⟨s, hReach, hOpen⟩
  rcases started_messages_are_settled hReach hOpen with
    ⟨hAll, more, s', hMore, hStuck⟩
  exact ⟨s, hReach, hOpen, more, s', hMore, hStuck,
    (hAll more s' hMore).2 hStuck⟩

end Routes

end RabbitMq

end Bus

end Qanat
