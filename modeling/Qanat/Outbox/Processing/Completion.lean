import Qanat.Library.Budgets
import Qanat.Outbox.Processing
import Qanat.Outbox.Renewal

/-
  Routes that are fed by an outbox settle every record that
  they take.

  While the outbox is open, the jobs, the actor and the
  renewals that are told to stop come to rest after a bounded
  amount of work, whatever the order.  Then what became of
  the lease of every record is the verdict on it, unless the
  handler of its route has unwound.

  Main declarations:
    * `Event.Serves`, `State.workLeft`
    * `Processing.IsWork`, `Processing.measure`
    * `Processing.Finished`
    * `Processing.started_records_are_settled`
-/

------------------------------------------------------------
-- What the Outbox Has Left to Do
------------------------------------------------------------

namespace Qanat

namespace Outbox

open Transition

/-
  What the actor does, and what a renewal does on its way to
  its end.  No renewal begins to renew.
-/
def Event.Serves : Event → Prop
| .renewal _ (.returned _) => True
| .renewal _ .stopped => True
| .renewal _ .aborted => True
| .registered _ _ => True
| .settleTaken _ _ _ _ => True
| .stored _ _ _ => True
| .deadlineFailed _ _ => True
| .replied _ _ => True
| _ => False

/- What a command will cost. -/
def SettlementCommand.cost : SettlementCommand → Nat
| .register _ _ => 2
| .settle _ _ _ => 3

/- What the actor has still to do for the call it serves. -/
def ActorPhase.due : ActorPhase → Nat
| .joining _ _ _ _ => 2
| .storing _ _ => 1
| .replying _ _ => 1
| _ => 0

/- What a renewal has still to do until its end. -/
def Renewal.due (renewal : Renewal) : Nat :=
  match renewal.phase with
  | .sleeping => 1
  | .renewing => 2
  | .finished => 0

def renewalDue : Option Renewal → Nat
| some renewal => renewal.due
| none => 0

/- What the renewals of the first deliveries have to do. -/
def renewalsDue
    (bound : Nat) (renewals : DeliveryId → Option Renewal) :
    Nat :=
  ((List.range bound).map
    (fun delivery => renewalDue (renewals delivery))).sum

def State.workLeft (s : State) : Nat :=
  (s.queue.map SettlementCommand.cost).sum + s.actor.due +
    renewalsDue s.nextDelivery s.renewals

section Updates

variable (renewals : DeliveryId → Option Renewal)

/- What changes with the renewal of one delivery. -/
theorem renewalsDue_update
    {bound : Nat} {delivery : DeliveryId}
    (hKnown : delivery < bound) (renewal : Option Renewal) :
    renewalsDue bound
          (Function.update renewals delivery renewal) +
        renewalDue (renewals delivery) =
      renewalsDue bound renewals + renewalDue renewal := by
  have hSum := (Lists.sum_map_update
    (f := fun d => renewalDue (renewals d))
    (g := fun d => renewalDue
      (Function.update renewals delivery renewal d))
    (a := delivery) (List.nodup_range (n := bound))
    (by
      intro other hNe
      rw [Function.update_of_ne hNe])).1
    (List.mem_range.mpr hKnown)
  rwa [Function.update_self] at hSum

theorem renewalsDue_update_le
    (bound : Nat) (delivery : DeliveryId)
    (renewal : Option Renewal) :
    renewalsDue bound
        (Function.update renewals delivery renewal) ≤
      renewalsDue bound renewals + renewalDue renewal := by
  by_cases hKnown : delivery < bound
  · rw [← renewalsDue_update renewals hKnown renewal]
    exact Nat.le_add_right _ _
  · have hSame :
        renewalsDue bound
            (Function.update renewals delivery renewal) =
          renewalsDue bound renewals := by
      unfold renewalsDue
      congr 1
      apply List.map_congr_left
      intro other hMem
      rw [Function.update_of_ne]
      rintro rfl
      exact hKnown (List.mem_range.mp hMem)
    rw [hSame]
    exact Nat.le_add_right _ _

/- Who is told to stop has as much to do as before. -/
theorem renewalsDue_stop
    (bound : Nat) (delivery : DeliveryId) :
    renewalsDue bound
        (Function.update renewals delivery
          ((renewals delivery).map Renewal.stop)) =
      renewalsDue bound renewals := by
  unfold renewalsDue
  congr 1
  apply List.map_congr_left
  intro other _
  by_cases hOther : other = delivery
  · subst hOther
    rw [Function.update_self]
    cases renewals other <;> rfl
  · rw [Function.update_of_ne hOther]

end Updates

variable {config : Config} {trace : List Event}
variable {s s' : State}

/- Only registered deliveries have renewals. -/
theorem lt_of_renewal
    (hReach : (lts config).Reachable trace s)
    {delivery : DeliveryId} {renewal : Renewal}
    (hRenewal : s.renewals delivery = some renewal) :
    delivery < s.nextDelivery := by
  have hRegistered := lease_of_renewal hReach hRenewal
  have hSent :
      SettlementCommand.register delivery renewal.lease ∈
        sentCommands trace := by
    rw [sentCommands_eq hReach]
    exact List.mem_append_left _
      (registered_mem_iff.mpr hRegistered)
  rcases registering_of_sent hSent with
    ⟨leased, _, hRegistering⟩
  have hId : delivery ∈ (offers trace).map Prod.fst :=
    List.mem_map.mpr ⟨(delivery, leased),
      List.mem_filterMap.mpr ⟨_, hRegistering, rfl⟩, rfl⟩
  rcases offered_ids hReach with ⟨hPositive, hIds⟩
  rw [hIds, List.mem_range'_1] at hId
  exact hId.2.trans_eq (Nat.add_sub_cancel' hPositive)

/- A renewal on its way to its end is nearer to it. -/
theorem RenewalStep.spends
    {delivery : DeliveryId} {renewal renewal' : Renewal}
    {event : RenewalEvent}
    (hServes : (Event.renewal delivery event).Serves)
    (hStep : RenewalStep config renewal event renewal') :
    renewal'.due + 1 ≤ renewal.due := by
  cases hStep with
  | skip | call => exact hServes.elim
  | «return» hPhase => simp [Renewal.due, hPhase]
  | stop hPhase => simp [Renewal.due, hPhase]
  | abort hPhase =>
      cases hOld : renewal.phase with
      | finished => exact absurd hOld hPhase
      | sleeping | renewing => simp [Renewal.due, hOld]

theorem Step.spends
    {e : Event}
    (hReach : (lts config).Reachable trace s)
    (hServes : e.Serves)
    (hStep : Step config s e s') :
    s'.workLeft + 1 ≤ s.workLeft := by
  cases hStep with
  | @renewal _ _ renewal' _ hBefore hMove =>
      have hSpent := hMove.spends hServes
      have hSum := renewalsDue_update s.renewals
        (lt_of_renewal hReach hBefore) (some renewal')
      simp only [hBefore, renewalDue] at hSum
      simp only [State.workLeft]
      omega
  | @takeRegister delivery lease _ hActor hQueue =>
      have hSum := renewalsDue_update_le s.renewals
        s.nextDelivery delivery
        (if config.Renews then
          some (spawnLeaseRenewal lease)
        else
          none)
      have hNew :
          renewalDue
            (if config.Renews then
              some (spawnLeaseRenewal lease)
            else
              none) ≤ 1 := by
        split
        · exact Nat.le_refl _
        · exact Nat.zero_le _
      simp only [State.workLeft, hQueue, List.map_cons,
        List.sum_cons, SettlementCommand.cost]
      omega
  | takeSettle hActor hQueue =>
      simp only [State.workLeft, hActor, hQueue,
        List.map_cons, List.sum_cons, ActorPhase.due,
        SettlementCommand.cost, renewalsDue_stop]
      omega
  | missSettle hActor hQueue =>
      simp only [State.workLeft, hActor, hQueue,
        List.map_cons, List.sum_cons, ActorPhase.due,
        SettlementCommand.cost]
      omega
  | store hActor =>
      simp only [State.workLeft, hActor, ActorPhase.due]
      omega
  | failDeadline hActor =>
      simp only [State.workLeft, hActor, ActorPhase.due]
      omega
  | «return» hActor =>
      simp only [State.workLeft, hActor, ActorPhase.due]
      omega
  | reply hActor =>
      simp only [State.workLeft, hActor, ActorPhase.due]
      omega
  | _ => exact hServes.elim

/- A settle call leaves the actor the cost of its command. -/
theorem Step.settles_workLeft
    {e : Event} {delivery : DeliveryId}
    {decision : Router.DeliveryDecision}
    (hRole : role e = .settles delivery decision)
    (hStep : Step config s e s') :
    s'.workLeft ≤ s.workLeft + 3 := by
  cases hStep with
  | settle =>
      simp only [State.workLeft, List.map_append,
        List.sum_append, List.map_singleton,
        List.sum_singleton, SettlementCommand.cost]
      omega
  | refuse => exact Nat.le_add_right _ _
  | @stream event => cases event <;> cases hRole
  | _ => cases hRole

/- Nobody drops the source by serving or by settling. -/
theorem Step.serves_open
    {e : Event}
    (hOpen : s.sourceOpen = true)
    (hServes : e.Serves)
    (hStep : Step config s e s') :
    s'.sourceOpen = true := by
  cases hStep <;> first | exact hOpen | cases hServes

theorem Step.settles_open
    {e : Event} {delivery : DeliveryId}
    {decision : Router.DeliveryDecision}
    (hOpen : s.sourceOpen = true)
    (hRole : role e = .settles delivery decision)
    (hStep : Step config s e s') :
    s'.sourceOpen = true := by
  cases hStep <;> first | exact hOpen | cases hRole

/-
  An actor that cannot go on has nothing to do: a renewal
  that it waits for can come to its end.
-/
theorem idle_of_stuck
    (hReach : (lts config).Reachable trace s)
    (hRunning : s.actor ≠ .stopped)
    (hStuck : ∀ e s', Step config s e s' → ¬ e.Serves) :
    s.queue = [] ∧ s.actor = .receiving := by
  cases hActor : s.actor with
  | storing =>
      exact absurd trivial
        (hStuck _ _ (@Step.return _ _ _ _ (.ok ()) hActor))
  | replying =>
      exact absurd trivial (hStuck _ _ (.reply hActor))
  | stopped => exact absurd hActor hRunning
  | joining call delivery lease decision =>
      exfalso
      by_cases hJoined : s.Joined delivery
      · cases hCall : settleRecord config lease decision 0 with
        | ok =>
            exact hStuck _ _
              (.store hActor hJoined (Nat.zero_le _) hCall)
              trivial
        | error =>
            exact hStuck _ _
              (.failDeadline hActor hJoined (Nat.zero_le _)
                hCall) trivial
      · unfold State.Joined at hJoined
        push Not at hJoined
        rcases hJoined with ⟨renewal, hRenewal, hPhase⟩
        have hStop :=
          stopRequested_of_joining hReach hActor hRenewal
        cases hIs : renewal.phase with
        | finished => exact hPhase hIs
        | sleeping =>
            exact hStuck _ _
              (.renewal hRenewal (.stop hIs hStop)) trivial
        | renewing =>
            exact hStuck _ _
              (.renewal hRenewal
                (@RenewalStep.return _ _ (.ok ()) hIs)) trivial
  | receiving =>
      refine ⟨?_, rfl⟩
      cases hQueue : s.queue with
      | nil => rfl
      | cons command rest =>
          exfalso
          cases command with
          | register =>
              exact hStuck _ _
                (.takeRegister hActor hQueue) trivial
          | settle call delivery decision =>
              cases hFound : s.pending delivery with
              | none =>
                  exact hStuck _ _
                    (.missSettle hActor hQueue hFound) trivial
              | some lease =>
                  exact hStuck _ _
                    (.takeSettle hActor hQueue hFound) trivial

end Outbox

end Qanat

------------------------------------------------------------
-- At Rest
------------------------------------------------------------

namespace Qanat

namespace Outbox

namespace Processing

open Transition
open Router (DeliveryDecision RouteEffect RouteMessage)
open Router.Jobs renaming Event → JobEvent,
  State → JobState, Step → JobStep

variable {Value : Type}

/- A job leaves its settlement to the actor for four. -/
def workLeft (s : JobState State) : Nat :=
  (s.jobs.map (fun job => 4 * job.rest.length)).sum +
    s.source.workLeft

/- What the jobs, the actor and ending renewals do. -/
def IsWork : JobEvent Event → Prop
| .source event => event.Serves
| .started _ _ => False
| .performed _ _ => True
| .settling _ _ _ => True

/- All of it comes to an end. -/
def measure
    (config : Config) (routes : Router.Routes Value) :
    (lts config routes).Measure IsWork where
  left := workLeft
  spend := by
    intro trace s e s' hReach hStep hWork
    cases hStep with
    | source hMove =>
        have hSpent := Outbox.Step.spends
          (outbox_reachable hReach) hWork hMove
        simp only [workLeft]
        omega
    | start => exact hWork.elim
    | perform hJob hRest =>
        have hLess :=
          Router.Jobs.workLeft_set 4 hJob hRest
        simp only [workLeft]
        omega
    | settle hJob hRest hMove hRole =>
        have hLess :=
          Router.Jobs.workLeft_set 4 hJob hRest
        have hSpent :=
          Outbox.Step.settles_workLeft hRole hMove
        simp only [workLeft]
        omega

variable {config : Config} {routes : Router.Routes Value}
variable {trace : List (JobEvent Event)} {s : JobState State}

/- Working does not drop the outbox. -/
theorem work_open
    {s' : JobState State} {e : JobEvent Event}
    (hOpen : s.source.sourceOpen = true)
    (hWork : IsWork e)
    (hStep : (lts config routes).step s e s') :
    s'.source.sourceOpen = true := by
  cases hStep with
  | source hMove =>
      exact Outbox.Step.serves_open hOpen hWork hMove
  | start => exact hWork.elim
  | perform => exact hOpen
  | settle _ _ hMove hRole =>
      exact Outbox.Step.settles_open hOpen hRole hMove

/-
  What has become of a record once everybody is at rest: the
  store was asked for what the verdict comes to at the time,
  if that has a deadline, or, if the handler of its route has
  unwound, for nothing.
-/
def Settled
    (config : Config) (routes : Router.Routes Value)
    (trace : List (JobEvent Event)) (j : Router.JobId)
    (delivery : DeliveryId) (leased : LeasedOutboxRecord) :
    Prop :=
  (routes.Unwinds j
        (routeMessage delivery leased.record) ∧
      delivery ∉ storedDeliveries (outboxEvents trace)) ∨
    (¬ routes.Unwinds j
        (routeMessage delivery leased.record) ∧
      ∃ call decision now,
        routes.Verdict j
          (routeMessage delivery leased.record) decision ∧
        now ≤ config.maxTime ∧
        ((∃ made,
            settleRecord config leased.key decision now =
                .ok made ∧
              storeCalls call (outboxEvents trace) = [made]) ∨
          ∃ error,
            settleRecord config leased.key decision now =
                .error error ∧
              replies call (outboxEvents trace) =
                [.error error]))

/- Every record that was taken is done with. -/
structure Finished
    (config : Config) (routes : Router.Routes Value)
    (trace : List (JobEvent Event)) (s : JobState State) :
    Prop where
  idle :
    s.source.queue = [] ∧ s.source.actor = .receiving
  done : ∀ job ∈ s.jobs, job.rest = []
  settled : ∀ j delivery leased,
    JobEvent.started j (.stream (.yielded delivery leased)) ∈
        trace →
      Settled config routes trace j delivery leased

/- Who cannot go on has finished. -/
theorem idle_of_stuck
    (hReach : (lts config routes).Reachable trace s)
    (hOpen : s.source.sourceOpen = true)
    (hStuck : (lts config routes).Stuck IsWork s) :
    (s.source.queue = [] ∧ s.source.actor = .receiving) ∧
      ∀ job ∈ s.jobs, job.rest = [] := by
  have hOutbox := outbox_reachable hReach
  have hRunning : s.source.actor ≠ .stopped := by
    intro hStopped
    have hShut := (stopped_of_reachable hOutbox hStopped).2.1
    rw [hOpen] at hShut
    cases hShut
  constructor
  · apply Outbox.idle_of_stuck hOutbox hRunning
    intro e s' hMove hServes
    refine hStuck _ _ (JobStep.source hMove ?_) hServes
    cases e <;> first | rfl | cases hServes
  · exact Router.Jobs.done_of_stuck (fun _ _ => trivial)
      (fun job _ decision =>
        ⟨_, _, Outbox.Step.settle job.delivery decision
          hOpen hRunning, rfl, fun _ _ => trivial⟩) hStuck

/-
  A settle call is served with the lease of the record: that
  was registered before the record was yielded, and nobody
  has settled it before.
-/
theorem served_of_called
    (hReach : (lts config routes).Reachable trace s)
    {j : Router.JobId} {call : SettleId}
    {delivery : DeliveryId} {leased : LeasedOutboxRecord}
    {decision : DeliveryDecision}
    (hStarted :
      JobEvent.started j
          (.stream (.yielded delivery leased)) ∈ trace)
    (hCalled :
      Event.settleCalled call delivery decision ∈
        outboxEvents trace) :
    Served config delivery decision (some leased.key)
      (storeCalls call (outboxEvents trace))
      (replies call (outboxEvents trace)) := by
  have hOutbox := outbox_reachable hReach
  rcases List.mem_iff_append.mp hCalled with
    ⟨before, after, hSplit⟩
  rcases Router.Jobs.told_first hReach hSplit rfl with
    ⟨⟨origin, hOrigin, message, hYields⟩, hFirst⟩
  rcases yielded_of_role hYields with ⟨leased', rfl, rfl⟩
  rcases List.mem_iff_append.mp hOrigin with
    ⟨front, back, hFront⟩
  have hYielded :
      outboxEvents trace =
        front ++ .stream (.yielded delivery leased') ::
          (back ++ .settleCalled call delivery decision ::
            after) := by
    rw [hSplit, hFront, List.append_assoc, List.cons_append]
  have hRegistering :=
    registering_before_yielded hOutbox hYielded
  -- what was yielded under the id is the record of the job
  have hOffer : (delivery, leased') ∈
      offers (outboxEvents trace) := by
    rw [hYielded]
    exact List.mem_filterMap.mpr
      ⟨_, List.mem_append_left _ hRegistering, rfl⟩
  have hSame := List.inj_on_of_nodup_map
    (offered_once hOutbox) hOffer
    (offered_of_yielded hOutbox
      (Router.Jobs.mem_sourceEvents hStarted rfl)) rfl
  cases hSame
  refine (account_of_called hOutbox hSplit).first leased ?_ ?_
  · rw [hFront]
    exact List.mem_append_left _ hRegistering
  · intro call' decision' hPrecedes
    -- a call for this delivery would be an earlier one
    rcases precedes_iff_split.mp hPrecedes with
      ⟨left, right, hCalls, _⟩
    apply hFirst
    rw [hCalls]
    exact List.mem_filterMap.mpr
      ⟨_, List.mem_append_right _ List.mem_cons_self, rfl⟩

theorem finished_of_stuck
    (hReach : (lts config routes).Reachable trace s)
    (hOpen : s.source.sourceOpen = true)
    (hStuck : (lts config routes).Stuck IsWork s) :
    Finished config routes trace s := by
  have hOutbox := outbox_reachable hReach
  rcases idle_of_stuck hReach hOpen hStuck with
    ⟨⟨hQueue, hActor⟩, hDone⟩
  refine ⟨⟨hQueue, hActor⟩, hDone, ?_⟩
  intro j delivery leased hStarted
  rcases Router.Jobs.settled_of_done hReach hDone hStarted rfl
    with ⟨hUnwinds, hUntold⟩ |
      ⟨hReturns, told, decision, hTold, hRole, hVerdict⟩
  · refine Or.inl ⟨hUnwinds, ?_⟩
    intro hStored
    rcases List.mem_map.mp hStored with
      ⟨⟨call, _⟩, hPair, rfl⟩
    rcases mem_stored_pairs hPair with ⟨made, hMade⟩
    rcases called_of_stored hOutbox hMade with
      ⟨decision, hCalled⟩
    exact hUntold (List.mem_filterMap.mpr ⟨_, hCalled, rfl⟩)
  · refine Or.inr ⟨hReturns, ?_⟩
    rcases called_of_role hOutbox hTold hRole with
      ⟨call, rfl⟩
    have hIdle : s.source.actor.call? = none := by
      rw [hActor]
      rfl
    rcases answered_of_called hOutbox hQueue hIdle hTold with
      ⟨result, hReplied⟩
    have hServed := served_of_called hReach hStarted hTold
    rw [hReplied] at hServed
    generalize hStore :
      storeCalls call (outboxEvents trace) = calls
      at hServed
    cases hServed with
    | @stored _ now made _ hNow hRecord =>
        exact ⟨call, decision, now, hVerdict, hNow,
          Or.inl ⟨made, hRecord, hStore⟩⟩
    | @late _ now error hNow hRecord =>
        exact ⟨call, decision, now, hVerdict, hNow,
          Or.inr ⟨error, hRecord, hReplied⟩⟩

/-
  No record is forgotten while its outbox is open.  The jobs,
  the actor and the renewals that end can go on only for as
  long as there is work left, in whatever order they do, and
  when they come to rest every record that was taken has been
  settled.
-/
theorem started_records_are_settled
    (hReach : (lts config routes).Reachable trace s)
    (hOpen : s.source.sourceOpen = true) :
    (∀ more s',
      (lts config routes).Continues IsWork s more s' →
        more.length ≤ workLeft s ∧
          ((lts config routes).Stuck IsWork s' →
            Finished config routes (trace ++ more) s')) ∧
      ∃ more s',
        (lts config routes).Continues IsWork s more s' ∧
          (lts config routes).Stuck IsWork s' := by
  constructor
  · intro more s' hMore
    have hBound :=
      (measure config routes).continues_le hReach hMore
    refine ⟨Nat.le_trans (Nat.le_add_right _ _) hBound, ?_⟩
    intro hStuck
    have hStill : s'.source.sourceOpen = true :=
      hMore.keeps (fun s e s' hWork hOpen hStep =>
        work_open hOpen hWork hStep) hOpen
    exact finished_of_stuck (hReach.continue hMore) hStill
      hStuck
  · exact (measure config routes).exists_stuck hReach

theorem started_records_are_settled_sample :
    ∃ s, (lts sampleConfig sampleRoutes).Reachable
        startedTrace s ∧
      s.source.sourceOpen = true ∧
      ∃ more s',
        (lts sampleConfig sampleRoutes).Continues IsWork
            s more s' ∧
          (lts sampleConfig sampleRoutes).Stuck IsWork s' ∧
          Finished sampleConfig sampleRoutes
            (startedTrace ++ more) s' := by
  rcases sample_reachable.1 with ⟨s, hReach, hOpen⟩
  rcases started_records_are_settled hReach hOpen with
    ⟨hAll, more, s', hMore, hStuck⟩
  exact ⟨s, hReach, hOpen, more, s', hMore, hStuck,
    (hAll more s' hMore).2 hStuck⟩

end Processing

end Outbox

end Qanat
