import Qanat.Outbox.Accounting
import Qanat.Router.Jobs

/-
  Routes that are fed by an outbox: when the lease of a
  record is acknowledged at the store and when it is given
  back.

  The stream of the outbox is the source of the routes, and
  each record that it yields is the job of one route.

  Main declarations:
    * `Outbox.role`, `Outbox.source`
    * `Processing.lts`
    * `Processing.Outcomes`
    * `Processing.records_stored_by_their_jobs`
-/

------------------------------------------------------------
-- The Outbox as a Source
------------------------------------------------------------

namespace Qanat

namespace Outbox

open Transition
open Router (DeliveryDecision RouteMessage)

/- What an event of the outbox is to the routes. -/
def role : Event → Router.Jobs.Role
| .stream (.yielded delivery leased) =>
    .yields delivery (routeMessage delivery leased.record)
| .settleCalled _ delivery decision =>
    .settles delivery decision
| .settleRefused _ delivery decision _ =>
    .settles delivery decision
| _ => .inner

theorem role_yielded (trace : List Event) :
    trace.filterMap (fun e => (role e).yielded?) =
      (yields trace).map Prod.fst := by
  unfold yields
  rw [List.map_filterMap]
  congr 1
  funext e
  cases e with
  | stream event => cases event <;> rfl
  | _ => rfl

/- No id is yielded twice. -/
def source (config : Config) :
    Router.Jobs.Source State Event where
  system := lts config
  role := role
  yieldedOnce := by
    intro trace s hReach
    rw [role_yielded]
    exact yields_fresh hReach

variable {config : Config} {trace : List Event} {s : State}

theorem yielded_of_role
    {event : Event} {delivery : DeliveryId}
    {message : RouteMessage}
    (hRole : role event = .yields delivery message) :
    ∃ leased, event = .stream (.yielded delivery leased) ∧
      message = routeMessage delivery leased.record := by
  cases event with
  | stream event =>
      cases event with
      | yielded =>
          cases hRole
          exact ⟨_, rfl, rfl⟩
      | _ => cases hRole
  | _ => cases hRole

theorem called_of_role
    (hReach : (lts config).Reachable trace s)
    {event : Event} {delivery : DeliveryId}
    {decision : DeliveryDecision}
    (hMem : event ∈ trace)
    (hRole : role event = .settles delivery decision) :
    ∃ call, event = .settleCalled call delivery decision := by
  cases event with
  | settleCalled =>
      cases hRole
      exact ⟨_, rfl⟩
  | settleRefused =>
      exact (not_refused hReach _ _ _ _ hMem).elim
  | stream event => cases event <;> cases hRole
  | _ => cases hRole

/- A record that is yielded was registered under its id. -/
theorem offered_of_yielded
    (hReach : (lts config).Reachable trace s)
    {delivery : DeliveryId} {leased : LeasedOutboxRecord}
    (hYielded :
      Event.stream (.yielded delivery leased) ∈ trace) :
    (delivery, leased) ∈ offers trace := by
  rw [offers_eq hReach]
  exact List.mem_append_left _
    (List.mem_filterMap.mpr ⟨_, hYielded, rfl⟩)

end Outbox

end Qanat

------------------------------------------------------------
-- Calls of the Store
------------------------------------------------------------

namespace Qanat

namespace Outbox

open Transition
open Router (DeliveryDecision)

variable {config : Config} {trace : List Event} {s : State}

theorem Served.storeCalls_le
    {delivery : DeliveryId} {decision : DeliveryDecision}
    {found : Option LeaseKey} {calls : List StoreCall}
    {replies : List (Except BusError Unit)}
    (hServed :
      Served config delivery decision found calls replies) :
    calls.length ≤ 1 := by
  cases hServed <;> simp

theorem stored_of_storeCalls
    {call : SettleId} {made : StoreCall}
    (hMade : made ∈ storeCalls call trace) :
    ∃ delivery, Event.stored call delivery made ∈ trace := by
  rcases List.mem_filterMap.mp hMade with ⟨e, hMem, hCall⟩
  cases e with
  | stored call' delivery made' =>
      simp only [Event.storeCall?,
        Option.ite_none_right_eq_some,
        Option.some.injEq] at hCall
      rcases hCall with ⟨rfl, rfl⟩
      exact ⟨delivery, hMem⟩
  | _ => cases hCall

theorem mem_storeCalls
    {call : SettleId} {delivery : DeliveryId}
    {made : StoreCall}
    (hStored : Event.stored call delivery made ∈ trace) :
    made ∈ storeCalls call trace :=
  List.mem_filterMap.mpr ⟨_, hStored, if_pos rfl⟩

/- A settle call makes at most one call of the store. -/
theorem storeCalls_le
    (hReach : (lts config).Reachable trace s)
    (call : SettleId) :
    (storeCalls call trace).length ≤ 1 := by
  cases hCalls : storeCalls call trace with
  | nil => exact Nat.zero_le _
  | cons made rest =>
      have hMade : made ∈ storeCalls call trace := by
        rw [hCalls]
        exact List.mem_cons_self
      rcases stored_of_storeCalls hMade with
        ⟨delivery, hStored⟩
      rcases taken_of_stored hReach hStored with
        ⟨decision, hTaken⟩
      rw [← hCalls]
      exact (served_of_taken hReach hTaken).storeCalls_le

/-
  What the store is asked for is what the decision of a
  settle call comes to for the lease of its delivery.
-/
theorem called_with_of_stored
    (hReach : (lts config).Reachable trace s)
    {call : SettleId} {delivery : DeliveryId}
    {made : StoreCall}
    (hStored : Event.stored call delivery made ∈ trace) :
    ∃ leased decision now,
      (delivery, leased) ∈ offers trace ∧
        Event.settleCalled call delivery decision ∈ trace ∧
        now ≤ config.maxTime ∧
        settleRecord config leased.key decision now =
          .ok made := by
  rcases taken_of_stored hReach hStored with
    ⟨decision, hTaken⟩
  rcases List.mem_iff_append.mp hTaken with
    ⟨taken, taken', hSplit⟩
  -- the lease was registered for the delivery
  have hRegistered :=
    ((found_iff hReach hSplit made.lease).mp rfl).1
  have hSent :
      SettlementCommand.register delivery made.lease ∈
        sentCommands trace := by
    rw [sentCommands_eq hReach]
    refine List.mem_append_left _
      (registered_mem_iff.mpr ?_)
    rw [hSplit]
    exact List.mem_append_left _ hRegistered
  rcases registering_of_sent hSent with
    ⟨leased, hKey, hRegistering⟩
  have hCalled :
      Event.settleCalled call delivery decision ∈ trace := by
    have hCommand :
        SettlementCommand.settle call delivery decision ∈
          sentCommands trace := by
      rw [sentCommands_eq hReach]
      exact List.mem_append_left _
        (List.mem_filterMap.mpr ⟨_, hTaken, rfl⟩)
    rcases List.mem_filterMap.mp hCommand with
      ⟨e, hMem, hIs⟩
    cases e with
    | settleCalled =>
        cases hIs
        exact hMem
    | _ => cases hIs
  refine ⟨leased, decision, ?_⟩
  have hMade := mem_storeCalls hStored
  generalize hLease : made.lease = lease at hTaken hKey
  have hServed := served_of_taken hReach hTaken
  generalize storeCalls call trace = calls at hMade hServed
  generalize replies call trace = answers at hServed
  cases hServed with
  | @storing _ now _ hNow hRecord =>
      cases List.mem_singleton.mp hMade
      rw [hKey]
      exact ⟨now, List.mem_filterMap.mpr
        ⟨_, hRegistering, rfl⟩, hCalled, hNow, hRecord⟩
  | @stored _ now _ _ hNow hRecord =>
      cases List.mem_singleton.mp hMade
      rw [hKey]
      exact ⟨now, List.mem_filterMap.mpr
        ⟨_, hRegistering, rfl⟩, hCalled, hNow, hRecord⟩
  | unanswered | late => cases hMade

/- The settle call and the delivery of a call of the store. -/
def stored? : Event → Option (SettleId × DeliveryId)
| .stored call delivery _ => some (call, delivery)
| _ => none

/- The deliveries whose leases were given up, in order. -/
def storedDeliveries (trace : List Event) :
    List DeliveryId :=
  (trace.filterMap stored?).map Prod.snd

theorem mem_stored_pairs
    {call : SettleId} {delivery : DeliveryId}
    (hPair : (call, delivery) ∈ trace.filterMap stored?) :
    ∃ made, Event.stored call delivery made ∈ trace := by
  rcases List.mem_filterMap.mp hPair with ⟨e, hE, hIs⟩
  cases e with
  | stored _ _ made =>
      cases hIs
      exact ⟨made, hE⟩
  | _ => cases hIs

theorem count_stored
    (call : SettleId) (trace : List Event) :
    ((trace.filterMap stored?).map Prod.fst).count call =
      (storeCalls call trace).length := by
  unfold storeCalls
  induction trace with
  | nil => rfl
  | cons e rest ih =>
      cases e with
      | stored call' delivery made =>
          by_cases hCall : call' = call <;>
            simp [stored?, Event.storeCall?, hCall, ih]
      | _ => exact ih

/-
  If nobody settles a delivery twice, its lease is not given
  up twice.
-/
theorem stored_nodup
    (hReach : (lts config).Reachable trace s)
    (hOnce :
      (trace.filterMap (fun e => (role e).settled?)).Nodup) :
    (storedDeliveries trace).Nodup := by
  have hCalls :
      ((trace.filterMap stored?).map Prod.fst).Nodup := by
    rw [List.nodup_iff_count_le_one]
    intro call
    rw [count_stored]
    exact storeCalls_le hReach call
  apply (List.nodup_map_iff_inj_on hCalls.of_map).mpr
  rintro ⟨call, delivery⟩ hMem ⟨call', delivery'⟩ hMem' hSame
  change delivery = delivery' at hSame
  subst hSame
  rcases mem_stored_pairs hMem with ⟨made, hStored⟩
  rcases mem_stored_pairs hMem' with ⟨made', hStored'⟩
  rcases called_of_stored hReach hStored with
    ⟨decision, hCalled⟩
  rcases called_of_stored hReach hStored' with
    ⟨decision', hCalled'⟩
  cases Lists.eq_of_nodup_filterMap hOnce hCalled hCalled'
    rfl rfl
  rfl

end Outbox

end Qanat

------------------------------------------------------------
-- Outcomes
------------------------------------------------------------

namespace Qanat

namespace Outbox

namespace Processing

open Transition
open Router (DeliveryDecision RouteEffect RouteMessage)
open Router.Jobs renaming Event → JobEvent,
  State → JobState, Step → JobStep

variable {Value : Type}

/- The routes of an open outbox, with their jobs. -/
def lts (config : Config) (routes : Router.Routes Value) :
    Lts (JobState State) (JobEvent Event) :=
  Router.Jobs.lts (source config) routes

def outboxEvents (trace : List (JobEvent Event)) :
    List Event :=
  Router.Jobs.sourceEvents trace

variable {config : Config} {routes : Router.Routes Value}
variable {trace : List (JobEvent Event)} {s : JobState State}

theorem outbox_reachable
    (hReach : (lts config routes).Reachable trace s) :
    (Outbox.lts config).Reachable (outboxEvents trace)
      s.source :=
  Router.Jobs.source_reachable hReach

/-
  What the store is told.  The lease of a delivery is given
  up once; by then the job of the delivery has done all that
  it does, and what becomes of the lease is the verdict on
  the record.  Where every failure is to be retried, only
  records that were processed are acknowledged.
-/
structure Outcomes
    (config : Config) (routes : Router.Routes Value)
    (trace : List (JobEvent Event)) : Prop where
  once : (storedDeliveries (outboxEvents trace)).Nodup
  verdict : ∀ earlier later call delivery made,
    trace =
        earlier ++ .source (.stored call delivery made) ::
          later →
      ∃ j leased decision now,
        JobEvent.started j
            (.stream (.yielded delivery leased)) ∈
          earlier ∧
        Router.Jobs.effects j earlier =
          (routes.work j
            (routeMessage delivery leased.record)).effects ∧
        ¬ routes.Unwinds j
          (routeMessage delivery leased.record) ∧
        routes.Verdict j
          (routeMessage delivery leased.record) decision ∧
        now ≤ config.maxTime ∧
        settleRecord config leased.key decision now = .ok made
  acknowledged :
    (∀ j, (routes.binding j).failureDecision = .retry) →
      ∀ call delivery lease,
        JobEvent.source
            (.stored call delivery (.acknowledge lease)) ∈
          trace →
        ∃ j leased,
          JobEvent.started j
              (.stream (.yielded delivery leased)) ∈ trace ∧
            leased.key = lease ∧
            routes.unresolved j
              (routeMessage delivery leased.record) = none ∧
            (routes.binding j).Succeeds
              (routeMessage delivery leased.record)

/- The job of a record comes before the call of the store. -/
theorem verdict_of_stored
    {earlier later : List (JobEvent Event)}
    (hReach : (lts config routes).Reachable trace s)
    {call : SettleId} {delivery : DeliveryId}
    {made : StoreCall}
    (hTrace :
      trace =
        earlier ++ .source (.stored call delivery made) ::
          later) :
    ∃ j leased decision now,
      JobEvent.started j
          (.stream (.yielded delivery leased)) ∈
        earlier ∧
      Router.Jobs.effects j earlier =
        (routes.work j
          (routeMessage delivery leased.record)).effects ∧
      ¬ routes.Unwinds j
        (routeMessage delivery leased.record) ∧
      routes.Verdict j
        (routeMessage delivery leased.record) decision ∧
      now ≤ config.maxTime ∧
      settleRecord config leased.key decision now =
        .ok made := by
  rcases hReach.before hTrace with ⟨r, r', hBefore, hStep⟩
  have hOutbox := outbox_reachable hBefore
  have hAfter := outbox_reachable (hBefore.step hStep)
  unfold outboxEvents at hAfter
  rw [Router.Jobs.sourceEvents_append] at hAfter
  rcases called_with_of_stored hAfter
      (List.mem_append_right _ List.mem_cons_self) with
    ⟨leased, decision, now, hOffer, hCalled, hNow, hRecord⟩
  -- both were there before the store was called
  have hOffer : (delivery, leased) ∈
      offers (outboxEvents earlier) := by
    unfold offers at hOffer
    rw [List.filterMap_append] at hOffer
    rcases List.mem_append.mp hOffer with hOld | hNew
    · exact hOld
    · cases hNew
  have hCalled : Event.settleCalled call delivery decision ∈
      outboxEvents earlier := by
    rcases List.mem_append.mp hCalled with hOld | hNew
    · exact hOld
    · cases List.mem_singleton.mp hNew
  rcases Router.Jobs.settled_by_its_job hBefore hCalled rfl
    with ⟨j, origin, message, hStarted, hOrigin, hReturns,
      hVerdict, hEffects⟩
  rcases yielded_of_role hOrigin with ⟨leased', rfl, rfl⟩
  have hYielded := offered_of_yielded hOutbox
    (Router.Jobs.mem_sourceEvents hStarted rfl)
  have hSame := List.inj_on_of_nodup_map
    (offered_once hOutbox) hOffer hYielded rfl
  cases hSame
  exact ⟨j, leased, decision, now, hStarted, hEffects,
    hReturns, hVerdict, hNow, hRecord⟩

/- A retry does not acknowledge. -/
theorem settleRecord_retry_ne
    {lease lease' : LeaseKey} {now : Time} :
    settleRecord config lease .retry now ≠
      .ok (.acknowledge lease') := by
  unfold settleRecord
  cases config.checkedAdd now config.options.retryDelay <;>
    nofun

/-
  However the stream, the renewals, the jobs and the actor
  interleave, the lease of a record is given up once, after
  its job is done, and what becomes of it is what processing
  came to.
-/
theorem records_stored_by_their_jobs
    (hReach : (lts config routes).Reachable trace s) :
    Outcomes config routes trace where
  once :=
    stored_nodup (outbox_reachable hReach)
      (Router.Jobs.settled_once hReach)
  verdict := fun _ _ _ _ _ hTrace =>
    verdict_of_stored hReach hTrace
  acknowledged := by
    intro hRetry call delivery lease hMem
    rcases List.mem_iff_append.mp hMem with
      ⟨earlier, later, hTrace⟩
    rcases verdict_of_stored hReach hTrace with
      ⟨j, leased, decision, now, hStarted, _, _, hVerdict, _,
        hRecord⟩
    refine ⟨j, leased, ?_, ?_, ?_⟩
    · rw [hTrace]
      exact List.mem_append_left _ hStarted
    · exact (settleRecord_lease hRecord).symm
    rcases hVerdict with
      ⟨hResolved, hSucceeds, _⟩ | ⟨_, rfl⟩
    · exact ⟨hResolved, hSucceeds⟩
    · rw [hRetry] at hRecord
      exact absurd hRecord settleRecord_retry_ne

/- One route, whose failures are to be retried. -/
def sampleRoutes : Router.Routes Unit where
  binding := fun _ =>
    { source := { decode := fun _ => .ok () }
      handler :=
        { consume := fun _ _ => some (.ok ())
          call := fun _ _ _ => none }
      target := none
      errorTarget := none
      failureDecision := .retry
      failureValue := fun _ => .ok () }
  unresolved := fun _ _ => none

def sampleMessage : RouteMessage :=
  routeMessage 1 (sampleLeased "a").record

/- A record is claimed twice and yielded once. -/
def startedTrace : List (JobEvent Event) :=
  [.source (.stream .polled),
    .source (.stream
      (.claimCalled (sampleConfig.claim 30_000_000_000))),
    .source (.stream
      (.claimed [sampleLeased "a", sampleLeased "b"])),
    .source (.stream (.released (sampleLeased "b")
      (releaseAfterClaimFailure sampleConfig
        (sampleLeased "b") 0))),
    .source (.registering 1 (sampleLeased "a")),
    .source (.registered 1 (sampleLeased "a").key),
    .started 0 (.stream (.yielded 1 (sampleLeased "a")))]

/- Its job acknowledges it. -/
def storedTrace : List (JobEvent Event) :=
  [.performed 0 (.handled sampleMessage),
    .settling 0 (.settleCalled 0 1 .ack)
      (.settled sampleMessage .ack),
    .source
      (.settleTaken 0 1 .ack (some (sampleLeased "a").key)),
    .source (.renewal 1 .stopped),
    .source
      (.stored 0 1 (.acknowledge (sampleLeased "a").key))]

theorem sample_reachable :
    (∃ s, (lts sampleConfig sampleRoutes).Reachable
        startedTrace s ∧ s.source.sourceOpen = true) ∧
      ∃ s, (lts sampleConfig sampleRoutes).Reachable
        (startedTrace ++ storedTrace) s := by
  have h : (lts sampleConfig sampleRoutes).Reachable []
      { source := .start, jobs := [] } :=
    .initial ⟨rfl, rfl⟩
  have h := h.step
    (JobStep.source (Outbox.Step.stream .poll) rfl)
  have h := h.step (JobStep.source (Outbox.Step.stream
    (@StreamStep.call _ 0 _ (Nat.zero_le _) rfl)) rfl)
  have h := h.step (JobStep.source (Outbox.Step.stream
    (@StreamStep.claim _ (sampleLeased "a")
      [sampleLeased "b"])) rfl)
  have h := h.step (JobStep.source (Outbox.Step.stream
    (@StreamStep.release _ _ _ _ 0 (Nat.zero_le _))) rfl)
  have h := h.step
    (JobStep.source (Outbox.Step.register rfl nofun) rfl)
  have h := h.step
    (JobStep.source (Outbox.Step.takeRegister rfl rfl) rfl)
  have h := h.step
    (JobStep.start (Outbox.Step.stream .yield) rfl)
  refine ⟨⟨_, h, rfl⟩, ?_⟩
  have h := h.step
    (@JobStep.perform _ _ _ _ _ _ 0 _ _ _ rfl rfl rfl)
  have h := h.step
    (@JobStep.settle _ _ _ _ _ _ 0 _ _ _ _ _ _ rfl rfl
      (Outbox.Step.settle 1 .ack rfl nofun) rfl)
  have h := h.step
    (JobStep.source (Outbox.Step.takeSettle rfl rfl rfl) rfl)
  have h := h.step (JobStep.source
    (@Outbox.Step.renewal _ _ 1 _ _ _ rfl (.stop rfl rfl)) rfl)
  have h := h.step (JobStep.source
    (@Outbox.Step.store _ _ _ _ _ _ 0 _ rfl
      (by rintro _ ⟨⟩; rfl) (Nat.zero_le _) rfl) rfl)
  exact ⟨_, h⟩

theorem records_stored_by_their_jobs_sample :
    ∃ s, (lts sampleConfig sampleRoutes).Reachable
        (startedTrace ++ storedTrace) s ∧
      Outcomes sampleConfig sampleRoutes
        (startedTrace ++ storedTrace) := by
  rcases sample_reachable.2 with ⟨s, hReach⟩
  exact ⟨s, hReach, records_stored_by_their_jobs hReach⟩

end Processing

end Outbox

end Qanat
