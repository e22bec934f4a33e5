import Qanat.Bus.RabbitMq.Accounting
import Qanat.Router.Jobs

/-
  Routes that are fed by a RabbitMQ bus: which operation the
  acker of a delivery gets, and when.

  The streams of the bus are the source of the routes, and
  each message that they yield is the job of one route.

  Main declarations:
    * `Deliveries.role`, `Deliveries.source`
    * `Routes.lts`
    * `Routes.Settlements`
    * `Routes.deliveries_settled_by_their_jobs`
-/

------------------------------------------------------------
-- The Bus as a Source
------------------------------------------------------------

namespace Qanat

namespace Bus

namespace RabbitMq

namespace Deliveries

open Transition
open Router (DeliveryDecision)

/- What an event of the bus is to the routes. -/
def role : Event → Router.Jobs.Role
| .yielded _ delivery message =>
    .yields delivery (routeMessageFromBroker message)
| .settleCalled _ delivery decision =>
    .settles delivery decision
| .settleRefused _ delivery decision _ =>
    .settles delivery decision
| _ => .inner

theorem role_yielded (trace : List Event) :
    trace.filterMap (fun e => (role e).yielded?) =
      yields trace := by
  unfold yields
  congr 1
  funext e
  cases e <;> rfl

/- No id is yielded twice. -/
def source : Router.Jobs.Source State Event where
  system := lts
  role := role
  yieldedOnce := by
    intro trace s hReach
    rw [role_yielded]
    exact (numbered_of_reachable hReach).yieldedOnce

variable {trace : List Event} {s : State}

theorem yielded_of_role
    {event : Event} {delivery : DeliveryId}
    {message : Router.RouteMessage}
    (hRole : role event = .yields delivery message) :
    ∃ stream raw, event = .yielded stream delivery raw ∧
      message = routeMessageFromBroker raw := by
  cases event with
  | yielded =>
      cases hRole
      exact ⟨_, _, rfl, rfl⟩
  | _ => cases hRole

theorem called_of_role
    (hReach : lts.Reachable trace s)
    {event : Event} {delivery : DeliveryId}
    {decision : DeliveryDecision}
    (hMem : event ∈ trace)
    (hRole : role event = .settles delivery decision) :
    ∃ call, event = .settleCalled call delivery decision := by
  cases event with
  | settleCalled =>
      cases hRole
      exact ⟨_, rfl⟩
  | settleRefused =>
      exact (not_refused hReach _ _ _ _ hMem).elim
  | _ => cases hRole

/- The settle call that an acker is called for. -/
theorem called_of_performed
    (hReach : lts.Reachable trace s)
    {call : SettleId} {acker : Acker} {done : Operation}
    (hPerformed : Event.performed call acker done ∈ trace) :
    ∃ stream delivery raw decision,
      Event.fetched stream delivery raw acker ∈ trace ∧
        Event.settleCalled call delivery decision ∈ trace ∧
        done = operation decision := by
  rcases (handled_of_reachable hReach).performed _ _ _
      hPerformed with ⟨delivery, decision, hTaken, hDone⟩
  have hCalled := called_of_taken hReach hTaken
  -- the acker is the one that was registered for it
  rcases registered_of_performed hReach hPerformed with
    ⟨called, called', stream, delivery', decision', hSplit,
      hRegistering⟩
  have hMem :
      Event.settleCalled call delivery' decision' ∈ trace := by
    rw [hSplit]
    simp
  have hSame := (called_unique hReach hMem hCalled).1
  subst hSame
  have hIn :
      Event.registering stream delivery' acker ∈ trace := by
    rw [hSplit]
    exact List.mem_append_left _ hRegistering
  rcases (numbered_of_reachable hReach).registered _ _ _ hIn
    with ⟨raw, hFetched⟩
  exact ⟨stream, delivery', raw, decision, hFetched, hCalled,
    hDone⟩

/- An acker belongs to one delivery. -/
theorem delivery_of_acker
    (hReach : lts.Reachable trace s)
    {stream stream' : StreamId} {raw raw' : RawMessage}
    {delivery delivery' : DeliveryId} {acker : Acker}
    (hFetched :
      Event.fetched stream delivery raw acker ∈ trace)
    (hFetched' :
      Event.fetched stream' delivery' raw' acker ∈ trace) :
    delivery = delivery' := by
  have hOnce := (fetches_nodup hReach).2
  have hPair : (delivery, acker) ∈ fetches trace :=
    List.mem_filterMap.mpr ⟨_, hFetched, rfl⟩
  have hPair' : (delivery', acker) ∈ fetches trace :=
    List.mem_filterMap.mpr ⟨_, hFetched', rfl⟩
  have hSame :=
    (List.nodup_map_iff_inj_on hOnce.of_map).mp hOnce
      _ hPair _ hPair' rfl
  exact congrArg Prod.fst hSame

/- The call and the acker of an operation. -/
def operated? : Event → Option (SettleId × Acker)
| .performed call acker _ => some (call, acker)
| _ => none

/- The ackers that the actor has called, in order. -/
def operated (trace : List Event) : List Acker :=
  (trace.filterMap operated?).map Prod.snd

theorem mem_operated_pairs
    {call : SettleId} {acker : Acker}
    (hPair : (call, acker) ∈ trace.filterMap operated?) :
    ∃ done, Event.performed call acker done ∈ trace := by
  rcases List.mem_filterMap.mp hPair with ⟨e, hE, hIs⟩
  cases e with
  | performed _ _ done =>
      cases hIs
      exact ⟨done, hE⟩
  | _ => cases hIs

theorem exists_performed
    {acker : Acker}
    (hOperated : acker ∈ operated trace) :
    ∃ call done,
      Event.performed call acker done ∈ trace := by
  rcases List.mem_map.mp hOperated with
    ⟨⟨call, _⟩, hPair, rfl⟩
  exact ⟨call, mem_operated_pairs hPair⟩

/-
  If nobody settles a delivery twice, no acker is called
  twice.
-/
theorem operated_nodup
    (hReach : lts.Reachable trace s)
    (hOnce :
      (trace.filterMap (fun e => (role e).settled?)).Nodup) :
    (operated trace).Nodup := by
  have hCalls :
      ((trace.filterMap operated?).map Prod.fst).Nodup := by
    have hHandled := (handled_once hReach).1
    rw [List.map_filterMap]
    convert hHandled using 2
    rename_i e _
    cases e <;> rfl
  apply (List.nodup_map_iff_inj_on hCalls.of_map).mpr
  rintro ⟨call, acker⟩ hMem ⟨call', acker'⟩ hMem' hSame
  change acker = acker' at hSame
  subst hSame
  rcases mem_operated_pairs hMem with ⟨done, hDone⟩
  rcases mem_operated_pairs hMem' with ⟨done', hDone'⟩
  rcases called_of_performed hReach hDone with
    ⟨stream, delivery, raw, decision, hFetched, hCalled, _⟩
  rcases called_of_performed hReach hDone' with
    ⟨stream', delivery', raw', decision', hFetched',
      hCalled', _⟩
  have hEq := delivery_of_acker hReach hFetched hFetched'
  subst hEq
  cases Lists.eq_of_nodup_filterMap hOnce hCalled hCalled'
    rfl rfl
  rfl

end Deliveries

end RabbitMq

end Bus

end Qanat

------------------------------------------------------------
-- Operations
------------------------------------------------------------

namespace Qanat

namespace Bus

namespace RabbitMq

namespace Routes

open Transition
open Router (DeliveryDecision RouteEffect RouteMessage)
open Router.Jobs renaming Event → JobEvent,
  State → JobState, Step → JobStep
open Deliveries (StreamId SettleId)

variable {Value : Type}

/- The routes of a connected bus, with their jobs. -/
def lts (routes : Router.Routes Value) :
    Lts (JobState Deliveries.State)
      (JobEvent Deliveries.Event) :=
  Router.Jobs.lts Deliveries.source routes

def busEvents (trace : List (JobEvent Deliveries.Event)) :
    List Deliveries.Event :=
  Router.Jobs.sourceEvents trace

variable {routes : Router.Routes Value}
variable {trace : List (JobEvent Deliveries.Event)}
variable {s : JobState Deliveries.State}

theorem bus_reachable
    (hReach : (lts routes).Reachable trace s) :
    Deliveries.lts.Reachable (busEvents trace) s.source :=
  Router.Jobs.source_reachable hReach

/-
  What the broker is told.  An acker is called once; by then
  the job of its delivery has done all that it does, and the
  operation is the verdict on the message.
-/
structure Settlements
    (routes : Router.Routes Value)
    (trace : List (JobEvent Deliveries.Event)) : Prop where
  once : (Deliveries.operated (busEvents trace)).Nodup
  verdict : ∀ earlier later call acker done,
    trace =
        earlier ++ .source (.performed call acker done) ::
          later →
      ∃ j stream delivery raw decision,
        JobEvent.source (.fetched stream delivery raw acker) ∈
          earlier ∧
        JobEvent.started j (.yielded stream delivery raw) ∈
          earlier ∧
        Router.Jobs.effects j earlier =
          (routes.work j
            (routeMessageFromBroker raw)).effects ∧
        ¬ routes.Unwinds j (routeMessageFromBroker raw) ∧
        routes.Verdict j (routeMessageFromBroker raw)
          decision ∧
        done = operation decision

/-
  However the streams, the jobs and the actor interleave, the
  broker hears of a delivery once, after its job is done, and
  what it hears is what processing came to.
-/
theorem deliveries_settled_by_their_jobs
    (hReach : (lts routes).Reachable trace s) :
    Settlements routes trace where
  once :=
    Deliveries.operated_nodup (bus_reachable hReach)
      (Router.Jobs.settled_once hReach)
  verdict := by
    intro earlier later call acker done hTrace
    rcases hReach.before hTrace with
      ⟨r, r', hBefore, hStep⟩
    have hBus := bus_reachable hBefore
    have hAfter := bus_reachable (hBefore.step hStep)
    unfold busEvents at hAfter
    rw [Router.Jobs.sourceEvents_append] at hAfter
    rcases Deliveries.called_of_performed hAfter
        (List.mem_append_right _ List.mem_cons_self) with
      ⟨stream, delivery, raw, decision, hFetched, hCalled,
        hDone⟩
    -- both were there before the acker was called
    have hIn : ∀ {event : Deliveries.Event},
        event ∈ Router.Jobs.sourceEvents earlier ++
            [.performed call acker done] →
          event ≠ .performed call acker done →
            event ∈ busEvents earlier := by
      intro event hMem hNe
      rcases List.mem_append.mp hMem with hOld | hNew
      · exact hOld
      · exact absurd (List.mem_singleton.mp hNew) hNe
    have hFetched := hIn hFetched nofun
    rcases Router.Jobs.settled_by_its_job hBefore
        (hIn hCalled nofun) rfl with
      ⟨j, origin, message, hStarted, hOrigin, hReturns,
        hVerdict, hEffects⟩
    rcases Deliveries.yielded_of_role hOrigin with
      ⟨stream', raw', rfl, rfl⟩
    rcases (Deliveries.numbered_of_reachable hBus).yielded _
        _ _ (Router.Jobs.mem_sourceEvents hStarted rfl) with
      ⟨acker', hFetched'⟩
    rcases Deliveries.fetched_unique hBus hFetched hFetched'
      with ⟨rfl, rfl, rfl⟩
    exact ⟨j, stream, delivery, raw, decision,
      Router.Jobs.mem_of_inner hBefore hFetched rfl,
      hStarted, hEffects, hReturns, hVerdict, hDone⟩

/- Two jobs; the second message has no partition key. -/
def sampleRoutes : Router.Routes Unit where
  binding := fun _ =>
    { source := { decode := fun _ => .ok () }
      handler :=
        { consume := fun _ _ => some (.ok ())
          call := fun _ _ _ => none }
      target := none
      errorTarget := none
      failureDecision := .reject
      failureValue := fun _ => .ok () }
  unresolved := fun j _ =>
    if j = 1 then
      some (.handler "partition key must not be empty")
    else none

def sampleRoute (delivery : DeliveryId) : RouteMessage :=
  routeMessageFromBroker (Deliveries.sampleMessage delivery)

/- Both messages are taken from one stream. -/
def startedTrace : List (JobEvent Deliveries.Event) :=
  [.source (.subscribed 0),
    .source (.fetched 0 1 (Deliveries.sampleMessage 1) 0),
    .source (.registering 0 1 0),
    .started 0 (.yielded 0 1 (Deliveries.sampleMessage 1)),
    .source (.fetched 0 2 (Deliveries.sampleMessage 2) 1),
    .source (.registering 0 2 1),
    .started 1 (.yielded 0 2 (Deliveries.sampleMessage 2))]

/- The second is settled first. -/
def settledTrace : List (JobEvent Deliveries.Event) :=
  [.settling 1 (.settleCalled 0 2 .reject)
      (.settled (sampleRoute 2) .reject),
    .performed 0 (.handled (sampleRoute 1)),
    .settling 0 (.settleCalled 1 1 .ack)
      (.settled (sampleRoute 1) .ack),
    .source (.registered 1 0),
    .source (.registered 2 1),
    .source (.settleTaken 0 2 .reject (some 1)),
    .source (.performed 0 1 (.nack false)),
    .source (.replied 0 (.ok ())),
    .source (.settleTaken 1 1 .ack (some 0)),
    .source (.performed 1 0 .ack)]

theorem sample_reachable :
    (∃ s, (lts sampleRoutes).Reachable startedTrace s ∧
      s.source.busOpen = true) ∧
    ∃ s, (lts sampleRoutes).Reachable
      (startedTrace ++ settledTrace) s := by
  have h : (lts sampleRoutes).Reachable []
      { source := .start, jobs := [] } :=
    .initial ⟨rfl, rfl⟩
  have h := h.step
    (JobStep.source (Deliveries.Step.subscribe rfl) rfl)
  have h := h.step
    (JobStep.source (@Deliveries.Step.fetch _ 0
      FiniteMap.Iteration.identity "m"
      Deliveries.samplePublished false rfl) rfl)
  have h := h.step
    (JobStep.source
      (@Deliveries.Step.register _ 0 _ _ _ rfl nofun) rfl)
  have h := h.step
    (JobStep.start (@Deliveries.Step.yield _ 0 _ _ rfl) rfl)
  have h := h.step
    (JobStep.source (@Deliveries.Step.fetch _ 0
      FiniteMap.Iteration.identity "m"
      Deliveries.samplePublished false rfl) rfl)
  have h := h.step
    (JobStep.source
      (@Deliveries.Step.register _ 0 _ _ _ rfl nofun) rfl)
  have h := h.step
    (JobStep.start (@Deliveries.Step.yield _ 0 _ _ rfl) rfl)
  refine ⟨⟨_, h, rfl⟩, ?_⟩
  have h := h.step
    (@JobStep.settle _ _ _ _ _ _ 1 _ _ _ _ _ _ rfl rfl
      (Deliveries.Step.settle 2 .reject rfl nofun) rfl)
  have h := h.step
    (@JobStep.perform _ _ _ _ _ _ 0 _ _ _ rfl rfl rfl)
  have h := h.step
    (@JobStep.settle _ _ _ _ _ _ 0 _ _ _ _ _ _ rfl rfl
      (Deliveries.Step.settle 1 .ack rfl nofun) rfl)
  have h := h.step
    (JobStep.source (Deliveries.Step.takeRegister rfl rfl)
      rfl)
  have h := h.step
    (JobStep.source (Deliveries.Step.takeRegister rfl rfl)
      rfl)
  have h := h.step
    (JobStep.source (Deliveries.Step.takeSettle rfl rfl rfl)
      rfl)
  have h := h.step
    (JobStep.source (Deliveries.Step.perform rfl) rfl)
  have h := h.step
    (JobStep.source (Deliveries.Step.return (.ok true) rfl)
      rfl)
  have h := h.step
    (JobStep.source (Deliveries.Step.takeSettle rfl rfl rfl)
      rfl)
  have h := h.step
    (JobStep.source (Deliveries.Step.perform rfl) rfl)
  exact ⟨_, h⟩

theorem deliveries_settled_by_their_jobs_sample :
    ∃ s, (lts sampleRoutes).Reachable
        (startedTrace ++ settledTrace) s ∧
      Settlements sampleRoutes
        (startedTrace ++ settledTrace) := by
  rcases sample_reachable.2 with ⟨s, hReach⟩
  exact ⟨s, hReach, deliveries_settled_by_their_jobs hReach⟩

end Routes

end RabbitMq

end Bus

end Qanat
