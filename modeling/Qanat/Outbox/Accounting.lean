import Qanat.Library.Lists
import Qanat.Library.Progress
import Qanat.Outbox.Settlement

/-
  The accounts of an outbox source: where its records have
  gone and what each settle call has come to, in the order
  in which the calls were made.

  Main declarations:
    * `found_first`, `Account`
    * `Event.Winds`, `exists_completion`
    * `outbox_accounting`
-/

------------------------------------------------------------
-- The Order of the Calls
------------------------------------------------------------

namespace Qanat

namespace Outbox

open Transition
open Router (DeliveryDecision)

variable {config : Config}

theorem sentCommands_split
    {earlier later : List Event} {e : Event}
    {command : SettlementCommand}
    (hSent : e.sent? = some command) :
    sentCommands (earlier ++ e :: later) =
      sentCommands earlier ++
        command :: sentCommands later := by
  unfold sentCommands
  rw [List.filterMap_append, List.filterMap_cons_some hSent]

theorem takenCommands_split
    {earlier later : List Event} {e : Event}
    {command : SettlementCommand}
    (hTaken : e.taken? = some command) :
    takenCommands (earlier ++ e :: later) =
      takenCommands earlier ++
        command :: takenCommands later := by
  unfold takenCommands
  rw [List.filterMap_append, List.filterMap_cons_some hTaken]

/-
  The commands taken before that of a settle call are those
  sent before it.
-/
theorem taken_eq_sent
    {trace called called' taken taken' : List Event}
    {s : State}
    (hReach : (lts config).Reachable trace s)
    {call : SettleId} {delivery delivery' : DeliveryId}
    {decision decision' : DeliveryDecision}
    {found : Option LeaseKey}
    (hCalled :
      trace =
        called ++
          .settleCalled call delivery decision :: called')
    (hTaken :
      trace =
        taken ++
          .settleTaken call delivery' decision' found ::
            taken') :
    takenCommands taken = sentCommands called ∧
      delivery' = delivery ∧ decision' = decision := by
  have hFifo := sentCommands_eq hReach
  have hOnce :
      ((sentCommands trace).filterMap
        SettlementCommand.settles?).Nodup := by
    rw [settle_ids hReach]
    exact List.nodup_range
  have hSent :
      sentCommands trace =
        sentCommands called ++
          .settle call delivery decision ::
            sentCommands called' := by
    rw [hCalled]
    exact sentCommands_split rfl
  have hTook :
      takenCommands trace =
        takenCommands taken ++
          .settle call delivery' decision' ::
            takenCommands taken' := by
    rw [hTaken]
    exact takenCommands_split rfl
  rw [hSent] at hOnce
  rw [hSent, hTook, List.append_assoc, List.cons_append]
    at hFifo
  rcases Lists.eq_of_split hOnce hFifo rfl rfl with
    ⟨hBefore, hCommand, _⟩
  cases hCommand
  exact ⟨hBefore.symm, rfl, rfl⟩

/- The registration that a command comes from. -/
theorem registering_of_sent
    {trace : List Event} {delivery : DeliveryId}
    {lease : LeaseKey}
    (hSent :
      SettlementCommand.register delivery lease ∈
        sentCommands trace) :
    ∃ leased, leased.key = lease ∧
      Event.registering delivery leased ∈ trace := by
  rcases List.mem_filterMap.mp hSent with ⟨e, hMem, hCommand⟩
  cases e with
  | registering _ leased =>
      cases hCommand
      exact ⟨leased, rfl, hMem⟩
  | _ => cases hCommand

theorem registered_mem_iff
    {trace : List Event} {delivery : DeliveryId}
    {lease : LeaseKey} :
    SettlementCommand.register delivery lease ∈
        takenCommands trace ↔
      Event.registered delivery lease ∈ trace := by
  unfold takenCommands
  rw [List.mem_filterMap]
  constructor
  · rintro ⟨e, hMem, hCommand⟩
    cases e with
    | registered =>
        cases hCommand
        exact hMem
    | _ => cases hCommand
  · intro hMem
    exact ⟨_, hMem, rfl⟩

/- Two registrations of one id are of one record. -/
theorem registering_unique
    {trace : List Event} {s : State}
    (hReach : (lts config).Reachable trace s)
    {delivery : DeliveryId}
    {leased other : LeasedOutboxRecord}
    (hLeased : Event.registering delivery leased ∈ trace)
    (hOther : Event.registering delivery other ∈ trace) :
    leased = other := by
  have hPair := List.inj_on_of_nodup_map
    (offered_once hReach)
    (List.mem_filterMap.mpr ⟨_, hLeased, rfl⟩)
    (List.mem_filterMap.mpr ⟨_, hOther, rfl⟩) rfl
  exact (Prod.mk.inj hPair).2

/- The first call after the registration finds the lease. -/
theorem found_first
    {trace called called' taken taken' : List Event}
    {s : State}
    (hReach : (lts config).Reachable trace s)
    {call : SettleId} {delivery : DeliveryId}
    {decision : DeliveryDecision} {found : Option LeaseKey}
    (hCalled :
      trace =
        called ++
          .settleCalled call delivery decision :: called')
    (hTaken :
      trace =
        taken ++
          .settleTaken call delivery decision found ::
            taken')
    {leased : LeasedOutboxRecord}
    (hRegistering :
      Event.registering delivery leased ∈ called)
    (hFirst : ∀ call' decision',
      ¬ Precedes (.registering delivery leased)
        (.settleCalled call' delivery decision') called) :
    found = some leased.key := by
  have hSame := (taken_eq_sent hReach hCalled hTaken).1
  rw [found_iff hReach hTaken]
  constructor
  · rw [← registered_mem_iff, hSame]
    exact List.mem_filterMap.mpr ⟨_, hRegistering, rfl⟩
  · intro call' decision' other hMem
    rcases List.mem_iff_append.mp hMem with
      ⟨front, back, hSplit⟩
    have hInner :
        trace =
          front ++
            .settleTaken call' delivery decision'
              (some other) ::
              (back ++
                .settleTaken call delivery decision found ::
                  taken') := by
      rw [hTaken, hSplit]
      simp
    have hRegistered :=
      ((found_iff hReach hInner other).mp rfl).1
    have hOrder :
        Precedes
          (SettlementCommand.register delivery other)
          (.settle call' delivery decision')
          (sentCommands called) := by
      rw [← hSame, hSplit, takenCommands_split rfl]
      exact precedes_iff_split.mpr ⟨_, _, rfl,
        registered_mem_iff.mpr hRegistered⟩
    rcases Precedes.of_filterMap hOrder with
      ⟨x, y, hx, hy, hBoth⟩
    cases x with
    | registering delivery' leased' =>
        cases y with
        | settleCalled call'' delivery'' decision'' =>
            cases hx
            cases hy
            have hEarlier : ∀ e ∈ called, e ∈ trace := by
              intro e hMem
              rw [hCalled]
              exact List.mem_append_left _ hMem
            have hLeased : leased' = leased :=
              registering_unique hReach
                (hEarlier _ hBoth.mem_left)
                (hEarlier _ hRegistering)
            subst hLeased
            exact hFirst _ _ hBoth
        | _ => cases hy
    | _ => cases hx

/- A call after another one finds nothing. -/
theorem found_later
    {trace called called' taken taken' : List Event}
    {s : State}
    (hReach : (lts config).Reachable trace s)
    {call call' : SettleId} {delivery : DeliveryId}
    {decision decision' : DeliveryDecision}
    {found : Option LeaseKey}
    (hCalled :
      trace =
        called ++
          .settleCalled call delivery decision :: called')
    (hTaken :
      trace =
        taken ++
          .settleTaken call delivery decision found ::
            taken')
    {leased : LeasedOutboxRecord}
    (hLater :
      Precedes (.registering delivery leased)
        (.settleCalled call' delivery decision') called) :
    found = none := by
  have hSame := (taken_eq_sent hReach hCalled hTaken).1
  have hOrder :
      Precedes
        (SettlementCommand.register delivery leased.key)
        (.settle call' delivery decision')
        (takenCommands taken) := by
    rw [hSame]
    exact hLater.filterMap rfl rfl
  rcases Precedes.of_filterMap hOrder with
    ⟨x, y, hx, hy, hBoth⟩
  cases x with
  | registered _ _ =>
      cases y with
      | settleTaken _ _ _ found' =>
          cases hx
          cases hy
          rw [Option.eq_none_iff_forall_ne_some]
          intro lease hFound
          have hNone :=
            ((found_iff hReach hTaken lease).mp hFound).2
          rcases precedes_iff_split.mp hBoth with
            ⟨front, back, hSplit, hRegistered⟩
          have hInner :
              trace =
                front ++
                  .settleTaken call' delivery decision'
                    found' ::
                    (back ++
                      .settleTaken call delivery decision
                        found :: taken') := by
            rw [hTaken, hSplit]
            simp
          -- the earlier call has found the lease itself
          have hOwn : found' = some leased.key := by
            rw [found_iff hReach hInner]
            refine ⟨hRegistered, ?_⟩
            intro call'' decision'' other hMem
            apply hNone call'' decision'' other
            rw [hSplit]
            exact List.mem_append_left _ hMem
          apply hNone call' decision' leased.key
          rw [hSplit, hOwn]
          simp
      | _ => cases hy
  | _ => cases hx

/- A call for an id that is not registered finds nothing. -/
theorem found_unknown
    {trace called called' taken taken' : List Event}
    {s : State}
    (hReach : (lts config).Reachable trace s)
    {call : SettleId} {delivery : DeliveryId}
    {decision : DeliveryDecision} {found : Option LeaseKey}
    (hCalled :
      trace =
        called ++
          .settleCalled call delivery decision :: called')
    (hTaken :
      trace =
        taken ++
          .settleTaken call delivery decision found ::
            taken')
    (hUnknown :
      ∀ leased, Event.registering delivery leased ∉ called) :
    found = none := by
  have hSame := (taken_eq_sent hReach hCalled hTaken).1
  rw [Option.eq_none_iff_forall_ne_some]
  intro lease hFound
  have hRegistered :=
    ((found_iff hReach hTaken lease).mp hFound).1
  rw [← registered_mem_iff, hSame] at hRegistered
  rcases registering_of_sent hRegistered with
    ⟨leased, _, hMem⟩
  exact hUnknown leased hMem

/-
  What a settle call that is made after `earlier` comes to:
  the first for a registered record settles its lease, a
  later one and one for an unknown id fail.
-/
structure Account
    (config : Config) (earlier trace : List Event)
    (call : SettleId) (delivery : DeliveryId)
    (decision : DeliveryDecision) : Prop where
  first : ∀ leased,
    Event.registering delivery leased ∈ earlier →
    (∀ call' decision',
      ¬ Precedes (.registering delivery leased)
        (.settleCalled call' delivery decision') earlier) →
    Served config delivery decision (some leased.key)
      (storeCalls call trace) (replies call trace)
  later : ∀ leased call' decision',
    Precedes (.registering delivery leased)
      (.settleCalled call' delivery decision') earlier →
    Served config delivery decision none
      (storeCalls call trace) (replies call trace)
  unknown :
    (∀ leased,
      Event.registering delivery leased ∉ earlier) →
    Served config delivery decision none
      (storeCalls call trace) (replies call trace)

/- A call whose command has not been taken, or what it found. -/
theorem taken_or_unserved
    {trace : List Event} {s : State}
    (hReach : (lts config).Reachable trace s)
    {called called' : List Event}
    {call : SettleId} {delivery : DeliveryId}
    {decision : DeliveryDecision}
    (hCalled :
      trace =
        called ++
          .settleCalled call delivery decision :: called') :
    (storeCalls call trace = [] ∧ replies call trace = []) ∨
      ∃ taken taken' found,
        trace =
            taken ++
              .settleTaken call delivery decision found ::
                taken' ∧
          Served config delivery decision found
            (storeCalls call trace) (replies call trace) := by
  by_cases hTaken : call ∈ takenCalls trace
  · right
    rcases List.mem_filterMap.mp hTaken with
      ⟨command, hCommand, hCall⟩
    rcases List.mem_filterMap.mp hCommand with ⟨e, hMem, hE⟩
    rcases List.mem_iff_append.mp hMem with
      ⟨taken, taken', hSplit⟩
    cases e with
    | settleTaken call' delivery' decision' found =>
        cases hE
        cases hCall
        rcases taken_eq_sent hReach hCalled hSplit with
          ⟨_, rfl, rfl⟩
        exact ⟨taken, taken', found, hSplit,
          served_of_taken hReach hMem⟩
    | registered =>
        cases hE
        cases hCall
    | _ => cases hE
  · left
    exact unserved_of_not_taken hReach hTaken

theorem account_of_called
    {trace : List Event} {s : State}
    (hReach : (lts config).Reachable trace s)
    {called called' : List Event}
    {call : SettleId} {delivery : DeliveryId}
    {decision : DeliveryDecision}
    (hCalled :
      trace =
        called ++
          .settleCalled call delivery decision :: called') :
    Account config called trace call delivery decision := by
  rcases taken_or_unserved hReach hCalled with
    ⟨hStore, hReply⟩ | ⟨taken, taken', found, hTaken, hServed⟩
  · constructor <;> intros <;> rw [hStore, hReply] <;>
      exact .unanswered
  · constructor
    · intro leased hRegistering hFirst
      rwa [found_first hReach hCalled hTaken hRegistering
        hFirst] at hServed
    · intro leased call' decision' hLater
      rwa [found_later hReach hCalled hTaken hLater]
        at hServed
    · intro hUnknown
      rwa [found_unknown hReach hCalled hTaken hUnknown]
        at hServed

end Outbox

end Qanat

------------------------------------------------------------
-- Completion
------------------------------------------------------------

namespace Qanat

namespace Outbox

open Transition
open Router (DeliveryDecision)

/-
  What the stream, the actor and the renewals do to finish
  what has been begun: no claim, no settle call and no new
  renewal of a lease.
-/
def Event.Winds : Event → Prop
| .stream (.released _ _) => True
| .stream (.yielded _ _) => True
| .renewal _ (.returned _) => True
| .renewal _ .stopped => True
| .registering _ _ => True
| .registered _ _ => True
| .settleTaken _ _ _ _ => True
| .stored _ _ _ => True
| .deadlineFailed _ _ => True
| .replied _ _ => True
| _ => False

variable {config : Config}

theorem RenewalStep.stopRequested
    {renewal renewal' : Renewal} {event : RenewalEvent}
    (hStep : RenewalStep config renewal event renewal') :
    renewal'.stopRequested = renewal.stopRequested := by
  cases hStep <;> rfl

/- The renewal the actor waits for has been told to stop. -/
theorem stopRequested_of_joining
    {trace : List Event} {s : State}
    (hReach : (lts config).Reachable trace s)
    {call : SettleId} {delivery : DeliveryId}
    {lease : LeaseKey} {decision : DeliveryDecision}
    (hActor :
      s.actor = .joining call delivery lease decision)
    {renewal : Renewal}
    (hRenewal : s.renewals delivery = some renewal) :
    renewal.stopRequested = true := by
  induction hReach generalizing renewal with
  | initial hInitial =>
      subst hInitial
      cases hActor
  | @step trace s s' e hReach hStep ih =>
      cases hStep with
      | @renewal other before after event hBefore hMove =>
          by_cases hOther : delivery = other
          · subst hOther
            simp only [Function.update_self,
              Option.some.injEq] at hRenewal
            rw [← hRenewal, hMove.stopRequested]
            exact ih hActor hBefore
          · simp only [Function.update_of_ne hOther]
              at hRenewal
            exact ih hActor hRenewal
      | takeRegister hReceiving =>
          exact absurd (hReceiving.symm.trans hActor) nofun
      | takeSettle =>
          cases hActor
          simp only [Function.update_self,
            Option.map_eq_some_iff] at hRenewal
          rcases hRenewal with ⟨_, _, rfl⟩
          rfl
      | missSettle => cases hActor
      | store => cases hActor
      | failDeadline => cases hActor
      | «return» => cases hActor
      | reply => cases hActor
      | stopActor => cases hActor
      | _ => exact ih hActor hRenewal

/- A renewal that is not over can come to sleep. -/
theorem exists_sleeping
    (config : Config)
    {s : State} {delivery : DeliveryId} {renewal : Renewal}
    (hRenewal : s.renewals delivery = some renewal)
    (hRunning : renewal.phase ≠ .finished) :
    ∃ more s', (lts config).Continues
        (fun e => e = .renewal delivery (.returned (.ok ())))
        s more s' ∧
      s'.actor = s.actor ∧ s'.queue = s.queue ∧
        s'.stream = s.stream ∧
        s'.renewals delivery =
          some { renewal with phase := .sleeping } := by
  cases hPhase : renewal.phase with
  | finished => exact absurd hPhase hRunning
  | sleeping =>
      refine ⟨[], s, .refl, rfl, rfl, rfl, ?_⟩
      rw [hRenewal, ← hPhase]
  | renewing =>
      have hReturn : (lts config).step s
          (.renewal delivery (.returned (.ok ()))) _ :=
        Step.renewal hRenewal (.return hPhase)
      exact ⟨_, _, .one hReturn rfl, rfl, rfl, rfl,
        Function.update_self _ _ _⟩

end Outbox

end Qanat

------------------------------------------------------------
-- The Accounts
------------------------------------------------------------

namespace Qanat

namespace Outbox

open Transition
open Router (DeliveryDecision)

variable {config : Config}

/- A record is yielded under the id it has been given. -/
theorem registering_before_yielded
    {trace earlier later : List Event} {s : State}
    (hReach : (lts config).Reachable trace s)
    {delivery : DeliveryId} {leased : LeasedOutboxRecord}
    (hTrace :
      trace =
        earlier ++ .stream (.yielded delivery leased) ::
          later) :
    Event.registering delivery leased ∈ earlier := by
  rcases hReach.before hTrace with ⟨r, r', hBefore, hStep⟩
  have hOffer : (delivery, leased) ∈ offers earlier := by
    rw [offers_eq hBefore, phase_of_yielded hStep]
    simp [StreamPhase.offer?]
  rcases List.mem_filterMap.mp hOffer with ⟨e, hMem, hPair⟩
  cases e with
  | registering _ _ =>
      cases hPair
      exact hMem
  | _ => cases hPair

/- The actor calls the store for settle calls only. -/
theorem called_of_stored
    {trace : List Event} {s : State}
    (hReach : (lts config).Reachable trace s)
    {call : SettleId} {delivery : DeliveryId}
    {made : StoreCall}
    (hStored : Event.stored call delivery made ∈ trace) :
    ∃ decision,
      Event.settleCalled call delivery decision ∈ trace := by
  rcases taken_of_stored hReach hStored with
    ⟨decision, hTaken⟩
  have hSent :
      SettlementCommand.settle call delivery decision ∈
        sentCommands trace := by
    rw [sentCommands_eq hReach]
    exact List.mem_append_left _
      (List.mem_filterMap.mpr ⟨_, hTaken, rfl⟩)
  rcases List.mem_filterMap.mp hSent with ⟨e, hMem, hCommand⟩
  cases e with
  | settleCalled _ _ _ =>
      cases hCommand
      exact ⟨decision, hMem⟩
  | _ => cases hCommand

/- With an empty queue and an idle actor nobody waits. -/
theorem answered_of_called
    {trace : List Event} {s : State}
    (hReach : (lts config).Reachable trace s)
    (hQueue : s.queue = [])
    (hIdle : s.actor.call? = none)
    {call : SettleId} {delivery : DeliveryId}
    {decision : DeliveryDecision}
    (hCalled :
      Event.settleCalled call delivery decision ∈ trace) :
    ∃ result, replies call trace = [result] := by
  apply answered_of_idle hReach
  · have hFifo := sentCommands_eq hReach
    rw [hQueue, List.append_nil] at hFifo
    unfold takenCalls
    rw [← hFifo]
    exact List.mem_filterMap.mpr ⟨_,
      List.mem_filterMap.mpr ⟨_, hCalled, rfl⟩, rfl⟩
  · rw [hIdle]
    nofun

/-
  The accounts of a run.  Each claimed record is yielded
  once, given back once or still with the stream; what is
  given back is given back under its own id and token; ids
  are fresh and known to the actor before the yield; each
  settle call comes to its account; the actor calls the store
  for settle calls only; what has been begun can be finished.
-/
structure Accounts
    (config : Config) (trace : List Event) (s : State) :
    Prop where
  records :
    (trace.flatMap Event.claimed).Perm
      (trace.flatMap Event.disposed ++ s.stream.inHand)
  released : ∀ leased made,
    Event.stream (.released leased made) ∈ trace →
      ∃ availableAt, made = .release leased.key availableAt
  fresh : ((yields trace).map Prod.fst).Nodup
  registered : ∀ earlier later delivery leased,
    trace =
        earlier ++
          .stream (.yielded delivery leased) :: later →
      Event.registering delivery leased ∈ earlier ∧
        Event.registered delivery leased.key ∈ earlier
  accounts : ∀ earlier later call delivery decision,
    trace =
        earlier ++
          .settleCalled call delivery decision :: later →
      Account config earlier trace call delivery decision
  stored : ∀ call delivery made,
    Event.stored call delivery made ∈ trace →
      ∃ decision,
        Event.settleCalled call delivery decision ∈ trace
  completion :
    ∃ more s',
      (lts config).Continues Event.Winds s more s' ∧
        s'.stream.inHand = [] ∧
        ∀ call delivery decision,
          Event.settleCalled call delivery decision ∈ trace →
            ∃ result,
              replies call (trace ++ more) = [result]

/- A source with renewal, for the runs below. -/
def sampleConfig : Config where
  consumerId := "orders"
  options := { renewalInterval := some 10_000_000_000 }
  maxTime := 1_000_000_000_000_000_000
  valid := by decide

/- One record, claimed under a token. -/
def sampleLeased (token : String) : LeasedOutboxRecord where
  record :=
    { id := "7"
      address := "orders.created"
      payload := []
      contentType := none
      headers := ∅
      metadata := ∅
      attempts := 0 }
  lease := { token := token }

/-
  A claim of the record under two tokens, up to its yield, and
  a claim of it under a third one.
-/
def sampleYield : List Event :=
  [.stream .polled,
    .stream (.claimCalled (sampleConfig.claim 30_000_000_000)),
    .stream (.claimed [sampleLeased "a", sampleLeased "b"]),
    .stream (.released (sampleLeased "b")
      (releaseAfterClaimFailure sampleConfig
        (sampleLeased "b") 0)),
    .registering 1 (sampleLeased "a"),
    .registered 1 (sampleLeased "a").key,
    .stream (.yielded 1 (sampleLeased "a")),
    .stream .polled,
    .stream (.claimCalled (sampleConfig.claim 30_000_000_000)),
    .stream (.claimed [sampleLeased "c"]),
    .registering 2 (sampleLeased "c"),
    .registered 2 (sampleLeased "c").key,
    .stream (.yielded 2 (sampleLeased "c"))]

/-
  Both leases are being renewed when the first delivery is
  settled, which waits for the one renewal only.
-/
def sampleSettle : List Event :=
  [.renewal 1 (.called (sampleLeased "a").key 30_000_000_000),
    .renewal 2 (.called (sampleLeased "c").key 30_000_000_000),
    .settleCalled 0 1 .ack,
    .settleCalled 1 1 .retry,
    .settleTaken 0 1 .ack (some (sampleLeased "a").key),
    .renewal 1 (.returned (.error "gone")),
    .renewal 1 .stopped,
    .stored 0 1 (.acknowledge (sampleLeased "a").key),
    .replied 0 (.ok ()),
    .settleTaken 1 1 .retry none]

theorem sample_reachable :
    ∃ s, (lts sampleConfig).Reachable
        (sampleYield ++ sampleSettle) s ∧
      s.pending 2 = some (sampleLeased "c").key := by
  have h : (lts sampleConfig).Reachable [] State.start :=
    .initial rfl
  have h := h.step (Step.stream .poll)
  have h := h.step (Step.stream
    (@StreamStep.call _ 0 _ (Nat.zero_le _) rfl))
  have h := h.step (Step.stream
    (@StreamStep.claim _ (sampleLeased "a")
      [sampleLeased "b"]))
  have h := h.step (Step.stream
    (@StreamStep.release _ _ _ _ 0 (Nat.zero_le _)))
  have h := h.step (Step.register rfl nofun)
  have h := h.step (Step.takeRegister rfl rfl)
  have h := h.step (Step.stream .yield)
  have h := h.step (Step.stream .poll)
  have h := h.step (Step.stream
    (@StreamStep.call _ 0 _ (Nat.zero_le _) rfl))
  have h := h.step (Step.stream
    (@StreamStep.claim _ (sampleLeased "c") []))
  have h := h.step (Step.register rfl nofun)
  have h := h.step (Step.takeRegister rfl rfl)
  have h := h.step (Step.stream .yield)
  have h := h.step (@Step.renewal _ _ 1 _ _ _ rfl
    (@RenewalStep.call _ _ 0 _ rfl (Nat.zero_le _) rfl))
  have h := h.step (@Step.renewal _ _ 2 _ _ _ rfl
    (@RenewalStep.call _ _ 0 _ rfl (Nat.zero_le _) rfl))
  have h := h.step (Step.settle 1 .ack rfl nofun)
  have h := h.step (Step.settle 1 .retry rfl nofun)
  have h := h.step (Step.takeSettle rfl rfl rfl)
  have h := h.step (@Step.renewal _ _ 1 _ _ _ rfl
    (@RenewalStep.return _ _ (.error "gone") rfl))
  have h := h.step
    (@Step.renewal _ _ 1 _ _ _ rfl (.stop rfl rfl))
  have h := h.step (@Step.store _ _ _ _ _ _ 0 _ rfl
    (by rintro _ ⟨⟩; rfl) (Nat.zero_le _) rfl)
  have h := h.step (@Step.return _ _ _ _ (.ok ()) rfl)
  have h := h.step (Step.missSettle rfl rfl rfl)
  exact ⟨_, h, rfl⟩

end Outbox

end Qanat
