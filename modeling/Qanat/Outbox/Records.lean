import Mathlib.Data.List.Range
import Qanat.Library.Channels
import Qanat.Outbox.Model

/-
  What becomes of the records that the store hands out: each
  is yielded once, under an id of its own, or released once.

  Main declarations:
    * `stopped_of_reachable`
    * `Event.claimed`, `Event.disposed`
    * `records_disposed`
    * `offered_ids`, `yields_fresh`
    * `message_id_of_offered`
    * `registered_before_yielded`
-/

------------------------------------------------------------
-- The End of the Actor
------------------------------------------------------------

namespace Qanat

namespace Outbox

open Transition

variable {config : Config}

theorem StreamStep.closed
    {phase phase' : StreamPhase} {event : StreamEvent}
    (hStep : StreamStep config phase event phase')
    (hClosed : phase.Closed) :
    phase'.Closed := by
  cases hStep with
  | drop => trivial
  | _ => cases hClosed

/-
  The actor stops when nobody can send to it any more, so
  neither a registration nor a settle call finds it stopped.
-/
theorem stopped_of_reachable
    {trace : List Event} {s : State}
    (hReach : (lts config).Reachable trace s)
    (hStopped : s.actor = .stopped) :
    s.queue = [] ∧ s.sourceOpen = false ∧
      s.stream.Closed := by
  revert hStopped
  apply hReach.stateInvariant
    (P := fun s => s.actor = .stopped →
      s.queue = [] ∧ s.sourceOpen = false ∧
        s.stream.Closed)
  · rintro s rfl hStopped
    cases hStopped
  · intro s e s' hOld hStep hStopped
    cases hStep with
    | stream hMove =>
        have hRest := hOld hStopped
        exact ⟨hRest.1, hRest.2.1, hMove.closed hRest.2.2⟩
    | renewal => exact hOld hStopped
    | register _ hRunning => exact absurd hStopped hRunning
    | failRegister hStream _ =>
        have hClosed := (hOld hStopped).2.2
        rw [hStream] at hClosed
        cases hClosed
    | loseRegister hStream _ =>
        have hClosed := (hOld hStopped).2.2
        rw [hStream] at hClosed
        cases hClosed
    | takeRegister hActor =>
        exact absurd (hActor.symm.trans hStopped) nofun
    | settle _ _ _ hRunning => exact absurd hStopped hRunning
    | refuse _ _ hOpen _ =>
        have hShut := (hOld hStopped).2.1
        rw [hOpen] at hShut
        cases hShut
    | takeSettle => cases hStopped
    | missSettle => cases hStopped
    | store => cases hStopped
    | failDeadline => cases hStopped
    | «return» => cases hStopped
    | reply => cases hStopped
    | dropSource hOpen =>
        have hShut := (hOld hStopped).2.1
        rw [hOpen] at hShut
        cases hShut
    | stopActor _ hQueue hShut hClosed =>
        exact ⟨hQueue, hShut, hClosed⟩

end Outbox

end Qanat

------------------------------------------------------------
-- Records
------------------------------------------------------------

namespace Qanat

namespace Outbox

open Transition

/- The records of a claim. -/
def Event.claimed : Event → List LeasedOutboxRecord
| .stream (.claimed records) => records
| _ => []

/- The record that is yielded or given back to the store. -/
def Event.disposed : Event → List LeasedOutboxRecord
| .stream (.yielded _ leased) => [leased]
| .stream (.released leased _) => [leased]
| _ => []

theorem StreamPhase.inHand_acknowledge
    (phase : StreamPhase) (delivery : DeliveryId) :
    (phase.acknowledge delivery).inHand = phase.inHand := by
  cases phase with
  | registering awaited leased =>
      by_cases hAwaited : awaited = delivery <;>
        simp [acknowledge, hAwaited, inHand]
  | _ => rfl

variable {config : Config}

theorem StreamStep.disposed
    {phase phase' : StreamPhase} {event : StreamEvent}
    (hStep : StreamStep config phase event phase') :
    (phase.inHand ++ Event.claimed (.stream event)).Perm
      (Event.disposed (.stream event) ++ phase'.inHand) := by
  cases hStep with
  | drop hPhase => rcases hPhase with rfl | rfl <;> rfl
  | @release leased other excess _ _ =>
      simpa [StreamPhase.inHand, Event.claimed,
        Event.disposed] using
        List.Perm.swap other leased excess
  | _ => rfl

theorem Step.disposed
    {s s' : State} {e : Event}
    (hStep : Step config s e s') :
    (s.stream.inHand ++ e.claimed).Perm
      (e.disposed ++ s'.stream.inHand) := by
  cases hStep with
  | stream hMove => exact hMove.disposed
  | register hStream => simp [hStream, Event.claimed,
      Event.disposed, StreamPhase.inHand]
  | failRegister hStream => simp [hStream, Event.claimed,
      Event.disposed, StreamPhase.inHand]
  | loseRegister hStream => simp [hStream, Event.claimed,
      Event.disposed, StreamPhase.inHand]
  | takeRegister => simp [StreamPhase.inHand_acknowledge,
      Event.claimed, Event.disposed]
  | _ => simp [Event.claimed, Event.disposed]

end Outbox

end Qanat

------------------------------------------------------------
-- Commands
------------------------------------------------------------

namespace Qanat

namespace Outbox

open Transition

/- The command that is sent to the actor. -/
def Event.sent? : Event → Option SettlementCommand
| .registering delivery leased =>
    some (.register delivery leased.key)
| .settleCalled call delivery decision =>
    some (.settle call delivery decision)
| _ => none

/- The command that the actor takes. -/
def Event.taken? : Event → Option SettlementCommand
| .registered delivery lease =>
    some (.register delivery lease)
| .settleTaken call delivery decision _ =>
    some (.settle call delivery decision)
| _ => none

def sentCommands (trace : List Event) :
    List SettlementCommand :=
  trace.filterMap Event.sent?

def takenCommands (trace : List Event) :
    List SettlementCommand :=
  trace.filterMap Event.taken?

variable {config : Config}

/- The actor takes the commands in the order of their sending. -/
theorem sentCommands_eq
    {trace : List Event} {s : State}
    (hReach : (lts config).Reachable trace s) :
    sentCommands trace = takenCommands trace ++ s.queue := by
  apply hReach.fifo Event.sent? Event.taken? State.queue
  · rintro s rfl
    rfl
  · intro trace s e s' hBefore hStep
    cases hStep with
    | takeRegister _ hQueue =>
        simp [hQueue, Event.sent?, Event.taken?]
    | takeSettle _ hQueue =>
        simp [hQueue, Event.sent?, Event.taken?]
    | missSettle _ hQueue =>
        simp [hQueue, Event.sent?, Event.taken?]
    | _ => simp [Event.sent?, Event.taken?]

end Outbox

end Qanat

------------------------------------------------------------
-- Deliveries
------------------------------------------------------------

namespace Qanat

namespace Outbox

open Transition

/- The record that is registered under a new id. -/
def Event.offered? :
    Event → Option (DeliveryId × LeasedOutboxRecord)
| .registering delivery leased => some (delivery, leased)
| _ => none

def Event.yielded? :
    Event → Option (DeliveryId × LeasedOutboxRecord)
| .stream (.yielded delivery leased) =>
    some (delivery, leased)
| _ => none

def offers (trace : List Event) :
    List (DeliveryId × LeasedOutboxRecord) :=
  trace.filterMap Event.offered?

/- The records that are yielded under their ids. -/
def yields (trace : List Event) :
    List (DeliveryId × LeasedOutboxRecord) :=
  trace.filterMap Event.yielded?

/-
  The record whose registration has not been followed by a
  yield.
-/
def StreamPhase.offer? :
    StreamPhase → Option (DeliveryId × LeasedOutboxRecord)
| .registering delivery leased => some (delivery, leased)
| .registered delivery leased => some (delivery, leased)
| _ => none

theorem StreamPhase.offer?_acknowledge
    (phase : StreamPhase) (delivery : DeliveryId) :
    (phase.acknowledge delivery).offer? = phase.offer? := by
  cases phase with
  | registering awaited leased =>
      by_cases hAwaited : awaited = delivery <;>
        simp [acknowledge, hAwaited, offer?]
  | _ => rfl

variable {config : Config}

theorem StreamStep.offer?
    {phase phase' : StreamPhase} {event : StreamEvent}
    (hStep : StreamStep config phase event phase') :
    phase.offer?.toList =
      (Event.yielded? (.stream event)).toList ++
        phase'.offer?.toList := by
  cases hStep with
  | drop hPhase => rcases hPhase with rfl | rfl <;> rfl
  | _ => rfl

/- The records are yielded in the order of their registration. -/
theorem offers_eq
    {trace : List Event} {s : State}
    (hReach : (lts config).Reachable trace s) :
    offers trace = yields trace ++ s.stream.offer?.toList := by
  apply hReach.fifo Event.offered? Event.yielded?
    (fun s => s.stream.offer?.toList)
  · rintro s rfl
    rfl
  · intro trace s e s' hBefore hStep
    cases hStep with
    | stream hMove =>
        simpa [Event.offered?] using hMove.offer?
    | register hStream =>
        simp [hStream, StreamPhase.offer?, Event.offered?,
          Event.yielded?]
    | failRegister hStream hStopped =>
        have hClosed :=
          (stopped_of_reachable hBefore hStopped).2.2
        rw [hStream] at hClosed
        cases hClosed
    | loseRegister hStream hStopped =>
        have hClosed :=
          (stopped_of_reachable hBefore hStopped).2.2
        rw [hStream] at hClosed
        cases hClosed
    | takeRegister =>
        simp [StreamPhase.offer?_acknowledge, Event.offered?,
          Event.yielded?]
    | _ => simp [Event.offered?, Event.yielded?]

/- The ids are handed out in order. -/
theorem offered_ids
    {trace : List Event} {s : State}
    (hReach : (lts config).Reachable trace s) :
    0 < s.nextDelivery ∧
      (offers trace).map Prod.fst =
        List.range' 1 (s.nextDelivery - 1) := by
  induction hReach with
  | initial hInitial =>
      subst hInitial
      exact ⟨Nat.one_pos, rfl⟩
  | @step trace s s' e hReach hStep ih =>
      have hKeep :
          e.offered? = none →
            offers (trace ++ [e]) = offers trace := by
        intro hNone
        simp [offers, hNone]
      cases hStep with
      | @register leased hStream hRunning =>
          refine ⟨Nat.succ_pos _, ?_⟩
          have hOffer :
              offers (trace ++
                  [.registering s.nextDelivery leased]) =
                offers trace ++ [(s.nextDelivery, leased)] := by
            simp [offers, Event.offered?]
          have hLength :
              s.nextDelivery + 1 - 1 =
                (s.nextDelivery - 1) + 1 :=
            (Nat.sub_add_cancel ih.1).symm
          have hNext :
              1 + 1 * (s.nextDelivery - 1) =
                s.nextDelivery := by
            rw [Nat.one_mul, Nat.add_comm]
            exact Nat.sub_add_cancel ih.1
          rw [hOffer, List.map_append, ih.2]
          simp only [hLength, List.range'_concat, hNext,
            List.map_cons, List.map_nil]
      | failRegister hStream hStopped =>
          have hClosed :=
            (stopped_of_reachable hReach hStopped).2.2
          rw [hStream] at hClosed
          cases hClosed
      | _ =>
          rw [hKeep rfl]
          exact ih

theorem offered_once
    {trace : List Event} {s : State}
    (hReach : (lts config).Reachable trace s) :
    ((offers trace).map Prod.fst).Nodup := by
  rw [(offered_ids hReach).2]
  exact List.nodup_range'

/- Every record is yielded under an id of its own. -/
theorem yields_fresh
    {trace : List Event} {s : State}
    (hReach : (lts config).Reachable trace s) :
    ((yields trace).map Prod.fst).Nodup := by
  have hOffered := offered_once hReach
  rw [offers_eq hReach, List.map_append,
    List.nodup_append] at hOffered
  exact hOffered.1

/- Up to `2 ^ 64` records the `u64` of a message is its id. -/
theorem message_id_of_offered
    {trace : List Event} {s : State}
    (hReach : (lts config).Reachable trace s)
    (hFew : (offers trace).length + 1 < 2 ^ 64)
    {delivery : DeliveryId} {leased : LeasedOutboxRecord}
    (hOffer : (delivery, leased) ∈ offers trace) :
    (routeMessage delivery leased.record).id.toNat =
      delivery := by
  have hIds := (offered_ids hReach).2
  have hLength : (offers trace).length = s.nextDelivery - 1 := by
    simpa using congrArg List.length hIds
  have hMem :
      delivery ∈ List.range' 1 (s.nextDelivery - 1) := by
    rw [← hIds]
    exact List.mem_map.mpr ⟨_, hOffer, rfl⟩
  have hSmall : delivery < 2 ^ 64 := by
    rw [hLength, Nat.add_comm] at hFew
    exact Nat.lt_trans (List.mem_range'_1.mp hMem).2 hFew
  exact Nat.mod_eq_of_lt hSmall

/- The lease in a command is that of the record offered. -/
theorem lease_of_sent
    {trace : List Event} {s : State}
    (hReach : (lts config).Reachable trace s)
    {delivery : DeliveryId} {leased : LeasedOutboxRecord}
    {lease : LeaseKey}
    (hOffer : (delivery, leased) ∈ offers trace)
    (hSent :
      SettlementCommand.register delivery lease ∈
        sentCommands trace) :
    lease = leased.key := by
  rcases List.mem_filterMap.mp hSent with ⟨e, hMem, hCommand⟩
  cases e with
  | registering delivery' other =>
      cases hCommand
      have hOther : (delivery, other) ∈ offers trace :=
        List.mem_filterMap.mpr ⟨_, hMem, rfl⟩
      have hSame : other = leased := by
        have hPair := List.inj_on_of_nodup_map
          (offered_once hReach) hOther hOffer rfl
        exact (Prod.mk.inj hPair).2
      rw [hSame]
  | _ => cases hCommand

theorem StreamStep.ne_registered
    {phase phase' : StreamPhase} {event : StreamEvent}
    (hStep : StreamStep config phase event phase')
    (delivery : DeliveryId) (leased : LeasedOutboxRecord) :
    phase' ≠ .registered delivery leased := by
  cases hStep <;> nofun

/- An acknowledged registration is awaited by its stream. -/
theorem StreamPhase.acknowledge_eq_registered
    {phase : StreamPhase} {taken delivery : DeliveryId}
    {leased : LeasedOutboxRecord}
    (hPhase :
      phase.acknowledge taken = .registered delivery leased) :
    phase = .registered delivery leased ∨
      (taken = delivery ∧
        phase = .registering delivery leased) := by
  cases phase with
  | registering awaited other =>
      by_cases hAwaited : awaited = taken
      · simp only [acknowledge, if_pos hAwaited,
          registered.injEq] at hPhase
        rcases hPhase with ⟨rfl, rfl⟩
        exact Or.inr ⟨hAwaited.symm, rfl⟩
      · simp [acknowledge, hAwaited] at hPhase
  | registered _ _ => exact Or.inl hPhase
  | _ => cases hPhase

/- The stream goes on only after the actor has its lease. -/
theorem registered_of_phase
    {trace : List Event} {s : State}
    (hReach : (lts config).Reachable trace s)
    {delivery : DeliveryId} {leased : LeasedOutboxRecord}
    (hPhase : s.stream = .registered delivery leased) :
    Event.registered delivery leased.key ∈ trace := by
  induction hReach with
  | initial hInitial =>
      subst hInitial
      cases hPhase
  | @step trace s s' e hReach hStep ih =>
      cases hStep with
      | stream hMove =>
          exact absurd hPhase
            (hMove.ne_registered delivery leased)
      | register _ _ => cases hPhase
      | failRegister _ _ => cases hPhase
      | loseRegister _ _ => cases hPhase
      | @takeRegister taken lease rest hActor hQueue =>
          rcases StreamPhase.acknowledge_eq_registered
              hPhase with hOld | ⟨rfl, hOld⟩
          · exact List.mem_append_left _ (ih hOld)
          · have hOffer : (taken, leased) ∈ offers trace := by
              rw [offers_eq hReach, hOld]
              simp [StreamPhase.offer?]
            have hSent :
                SettlementCommand.register taken lease ∈
                  sentCommands trace := by
              rw [sentCommands_eq hReach, hQueue]
              simp
            rw [lease_of_sent hReach hOffer hSent]
            simp
      | _ => exact List.mem_append_left _ (ih hPhase)

/- Only a record whose registration was confirmed is yielded. -/
theorem phase_of_yielded
    {s s' : State}
    {delivery : DeliveryId} {leased : LeasedOutboxRecord}
    (hStep :
      Step config s (.stream (.yielded delivery leased)) s') :
    s.stream = .registered delivery leased := by
  cases hStep with
  | stream hMove =>
      generalize s.stream = before at hMove
      cases hMove
      rfl

/- A record is yielded after its lease has been registered. -/
theorem registered_before_yielded
    {trace earlier later : List Event} {s : State}
    (hReach : (lts config).Reachable trace s)
    {delivery : DeliveryId} {leased : LeasedOutboxRecord}
    (hTrace :
      trace =
        earlier ++ .stream (.yielded delivery leased) ::
          later) :
    Event.registered delivery leased.key ∈ earlier := by
  rcases hReach.before hTrace with ⟨r, r', hBefore, hStep⟩
  exact registered_of_phase hBefore (phase_of_yielded hStep)

end Outbox

end Qanat
