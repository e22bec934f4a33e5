import Qanat.Outbox.Accounting

/-
  The renewals of the leases: the actor gives a lease up only
  after its renewal has ended, and the other renewals go on.

  Main declarations:
    * `lease_of_renewal`
    * `joined_of_stored`
    * `Renewal.Active`, `active_of_pending`
    * `renewal_excludes_settlement`
-/

------------------------------------------------------------
-- The Lease of a Renewal
------------------------------------------------------------

namespace Qanat

namespace Outbox

open Transition
open Router (DeliveryDecision)

variable {config : Config}

theorem RenewalStep.lease
    {renewal renewal' : Renewal} {event : RenewalEvent}
    (hStep : RenewalStep config renewal event renewal') :
    renewal'.lease = renewal.lease := by
  cases hStep <;> rfl

theorem RenewalStep.ne_finished
    {renewal renewal' : Renewal} {event : RenewalEvent}
    (hStep : RenewalStep config renewal event renewal') :
    renewal.phase ≠ .finished := by
  cases hStep with
  | skip hPhase => rw [hPhase]; nofun
  | call hPhase => rw [hPhase]; nofun
  | «return» hPhase => rw [hPhase]; nofun
  | stop hPhase => rw [hPhase]; nofun
  | abort hPhase => exact hPhase

/-
  What a step does to the renewal of a delivery: it starts
  one with a registration, moves it, or signals it.
-/
theorem Step.renewal_cases
    {s s' : State} {e : Event}
    (hStep : Step config s e s')
    {delivery : DeliveryId} {renewal' : Renewal}
    (hAfter : s'.renewals delivery = some renewal') :
    (∃ lease, e = .registered delivery lease ∧
        renewal' = spawnLeaseRenewal lease) ∨
      ∃ renewal, s.renewals delivery = some renewal ∧
        (renewal' = renewal ∨ renewal' = renewal.stop ∨
          renewal' = renewal.stop.abort ∨
          ∃ event, e = .renewal delivery event ∧
            RenewalStep config renewal event renewal') := by
  cases hStep with
  | @renewal other before after event hBefore hMove =>
      right
      by_cases hOther : delivery = other
      · subst hOther
        simp only [Function.update_self, Option.some.injEq]
          at hAfter
        subst hAfter
        exact ⟨before, hBefore,
          Or.inr (Or.inr (Or.inr ⟨event, rfl, hMove⟩))⟩
      · simp only [Function.update_of_ne hOther] at hAfter
        exact ⟨renewal', hAfter, Or.inl rfl⟩
  | @takeRegister taken lease rest hActor hQueue =>
      by_cases hOther : delivery = taken
      · subst hOther
        simp only [Function.update_self] at hAfter
        split at hAfter
        · cases hAfter
          exact Or.inl ⟨lease, rfl, rfl⟩
        · cases hAfter
      · simp only [Function.update_of_ne hOther] at hAfter
        exact Or.inr ⟨renewal', hAfter, Or.inl rfl⟩
  | @takeSettle call taken decision lease rest =>
      right
      by_cases hOther : delivery = taken
      · subst hOther
        simp only [Function.update_self,
          Option.map_eq_some_iff] at hAfter
        rcases hAfter with ⟨renewal, hBefore, rfl⟩
        exact ⟨renewal, hBefore, Or.inr (Or.inl rfl)⟩
      · simp only [Function.update_of_ne hOther] at hAfter
        exact ⟨renewal', hAfter, Or.inl rfl⟩
  | stopActor =>
      right
      simp only at hAfter
      split at hAfter
      · rw [Option.map_eq_some_iff] at hAfter
        rcases hAfter with ⟨renewal, hBefore, rfl⟩
        exact ⟨renewal, hBefore,
          Or.inr (Or.inr (Or.inl rfl))⟩
      · exact ⟨renewal', hAfter, Or.inl rfl⟩
  | _ => exact Or.inr ⟨renewal', hAfter, Or.inl rfl⟩

/- A renewal renews the lease its delivery was registered with. -/
theorem lease_of_renewal
    {trace : List Event} {s : State}
    (hReach : (lts config).Reachable trace s)
    {delivery : DeliveryId} {renewal : Renewal}
    (hRenewal : s.renewals delivery = some renewal) :
    Event.registered delivery renewal.lease ∈ trace := by
  induction hReach generalizing renewal with
  | initial hInitial =>
      subst hInitial
      cases hRenewal
  | @step trace s s' e hReach hStep ih =>
      rcases Step.renewal_cases hStep hRenewal with
        ⟨lease, rfl, rfl⟩ | ⟨before, hBefore, hMove⟩
      · simp [spawnLeaseRenewal]
      · have hLease : renewal.lease = before.lease := by
          rcases hMove with rfl | rfl | rfl | ⟨_, _, hMove⟩
          · rfl
          · rfl
          · rfl
          · exact hMove.lease
        rw [hLease]
        exact List.mem_append_left _ (ih hBefore)

end Outbox

end Qanat

------------------------------------------------------------
-- Renewals of Settled Leases
------------------------------------------------------------

namespace Qanat

namespace Outbox

open Transition
open Router (DeliveryDecision)

variable {config : Config}

/- A delivery is registered only once. -/
theorem not_registered_before
    {trace : List Event} {s s' : State}
    (hReach : (lts config).Reachable trace s)
    {delivery : DeliveryId} {lease other : LeaseKey}
    (hStep :
      Step config s (.registered delivery lease) s') :
    Event.registered delivery other ∉ trace := by
  intro hMem
  have hOnce := issued_once (hReach.step hStep)
  rw [List.filterMap_append, List.filterMap_append,
    List.nodup_append] at hOnce
  refine hOnce.2.2 delivery ?_ delivery (by
    simp [Event.ticket?, Tickets.Event.issue?]) rfl
  exact List.mem_filterMap.mpr
    ⟨_, List.mem_filterMap.mpr ⟨_, hMem, rfl⟩, rfl⟩

/- The lease given up is the one that was registered. -/
theorem registered_of_stored
    {trace : List Event} {s : State}
    (hReach : (lts config).Reachable trace s)
    {call : SettleId} {delivery : DeliveryId}
    {made : StoreCall}
    (hStored : Event.stored call delivery made ∈ trace) :
    Event.registered delivery made.lease ∈ trace := by
  rcases taken_of_stored hReach hStored with
    ⟨decision, hTaken⟩
  rcases List.mem_iff_append.mp hTaken with
    ⟨earlier, later, hTrace⟩
  have hRegistered :=
    ((found_iff hReach hTrace made.lease).mp rfl).1
  rw [hTrace]
  exact List.mem_append_left _ hRegistered

/-
  The renewal of a delivery whose lease has been given up
  does not run.
-/
theorem joined_of_stored
    {trace : List Event} {s : State}
    (hReach : (lts config).Reachable trace s)
    {call : SettleId} {delivery : DeliveryId}
    {made : StoreCall}
    (hStored : Event.stored call delivery made ∈ trace) :
    s.Joined delivery := by
  induction hReach with
  | initial => cases hStored
  | @step trace s s' e hReach hStep ih =>
      rcases List.mem_append.mp hStored with hOld | hNew
      · intro renewal hRenewal
        rcases Step.renewal_cases hStep hRenewal with
          ⟨lease, rfl, rfl⟩ | ⟨before, hBefore, hMove⟩
        · exact absurd (registered_of_stored hReach hOld)
            (not_registered_before hReach hStep)
        · have hEnded := ih hOld before hBefore
          rcases hMove with rfl | rfl | rfl | ⟨_, _, hMove⟩
          · exact hEnded
          · exact hEnded
          · exact hEnded
          · exact absurd hEnded hMove.ne_finished
      · rw [List.mem_singleton] at hNew
        subst hNew
        cases hStep with
        | store _ hJoined => exact hJoined

end Outbox

end Qanat

------------------------------------------------------------
-- Renewals of Pending Leases
------------------------------------------------------------

namespace Qanat

namespace Outbox

open Transition
open Router (DeliveryDecision)

variable {config : Config}

/- The renewal has not been told to end. -/
structure Renewal.Active
    (renewal : Renewal) (lease : LeaseKey) : Prop where
  lease_eq : renewal.lease = lease
  running : renewal.phase ≠ .finished
  unstopped : renewal.stopRequested = false
  unaborted : renewal.aborted = false

theorem RenewalStep.active
    {renewal renewal' : Renewal} {event : RenewalEvent}
    {lease : LeaseKey}
    (hStep : RenewalStep config renewal event renewal')
    (hActive : renewal.Active lease) :
    renewal'.Active lease := by
  rcases hActive with ⟨hLease, hRunning, hStop, hAbort⟩
  cases hStep with
  | skip => exact ⟨hLease, hRunning, hStop, hAbort⟩
  | call => exact ⟨hLease, nofun, hStop, hAbort⟩
  | «return» => exact ⟨hLease, nofun, hStop, hAbort⟩
  | stop _ hStopped =>
      rw [hStop] at hStopped
      cases hStopped
  | abort _ hAborted =>
      rw [hAbort] at hAborted
      cases hAborted

/- With renewal, every pending lease is being renewed. -/
theorem active_of_pending
    {trace : List Event} {s : State}
    (hReach : (lts config).Reachable trace s)
    (hRenews : config.Renews)
    {delivery : DeliveryId} {lease : LeaseKey}
    (hPending : s.pending delivery = some lease) :
    ∃ renewal, s.renewals delivery = some renewal ∧
      renewal.Active lease := by
  induction hReach generalizing lease with
  | initial hInitial =>
      subst hInitial
      cases hPending
  | @step trace s s' e hReach hStep ih =>
      cases hStep with
      | @renewal other before after event hBefore hMove =>
          rcases ih hPending with ⟨renewal, hOld, hActive⟩
          by_cases hOther : delivery = other
          · subst hOther
            rw [hBefore] at hOld
            cases hOld
            exact ⟨after, Function.update_self _ _ _,
              hMove.active hActive⟩
          · refine ⟨renewal, ?_, hActive⟩
            simp only [Function.update_of_ne hOther]
            exact hOld
      | @takeRegister taken other rest hActor hQueue =>
          by_cases hOther : delivery = taken
          · subst hOther
            simp only [Function.update_self,
              Option.some.injEq] at hPending
            subst hPending
            refine ⟨spawnLeaseRenewal other, ?_,
              ⟨rfl, nofun, rfl, rfl⟩⟩
            simp only [Function.update_self]
            exact if_pos hRenews
          · simp only [Function.update_of_ne hOther]
              at hPending
            rcases ih hPending with ⟨renewal, hOld, hActive⟩
            refine ⟨renewal, ?_, hActive⟩
            simp only [Function.update_of_ne hOther]
            exact hOld
      | @takeSettle call taken decision other rest =>
          by_cases hOther : delivery = taken
          · subst hOther
            simp at hPending
          · simp only [Function.update_of_ne hOther]
              at hPending
            rcases ih hPending with ⟨renewal, hOld, hActive⟩
            refine ⟨renewal, ?_, hActive⟩
            simp only [Function.update_of_ne hOther]
            exact hOld
      | stopActor => cases hPending
      | _ => exact ih hPending

/-
  An active renewal can call the store, now or after its
  return.
-/
theorem exists_renewed
    {s : State} {delivery : DeliveryId} {renewal : Renewal}
    {lease : LeaseKey} {now leaseUntil : Time}
    (hRenewal : s.renewals delivery = some renewal)
    (hActive : renewal.Active lease)
    (hNow : now ≤ config.maxTime)
    (hUntil :
      config.checkedAdd now config.options.leaseDuration =
        some leaseUntil) :
    ∃ more s', (lts config).Continues
        (fun e => ∃ event, e = .renewal delivery event)
        s more s' ∧
      Event.renewal delivery (.called lease leaseUntil) ∈
        more := by
  rcases hActive with ⟨rfl, hRunning, _, _⟩
  rcases exists_sleeping config hRenewal hRunning with
    ⟨more, r, hMore, _, _, _, hSleeping⟩
  have hCall : (lts config).step r
      (.renewal delivery
        (.called renewal.lease leaseUntil)) _ :=
    Step.renewal hSleeping (.call rfl hNow hUntil)
  have hOwn : (lts config).Continues
      (fun e => ∃ event, e = .renewal delivery event)
      s more r := hMore.mono (fun _ hLabel => ⟨_, hLabel⟩)
  exact ⟨_, _, hOwn.trans (.one hCall ⟨_, rfl⟩), by simp⟩

end Outbox

end Qanat

------------------------------------------------------------
-- Renewal and Settlement
------------------------------------------------------------

namespace Qanat

namespace Outbox

open Transition
open Router (DeliveryDecision)

variable {config : Config}

/-
  No call that renews the lease is running, and none is
  issued by the next step.
-/
def State.Unrenewed
    (config : Config) (s : State) (lease : LeaseKey) : Prop :=
  (∀ delivery renewal,
    s.renewals delivery = some renewal →
      renewal.lease = lease → renewal.phase ≠ .renewing) ∧
  ∀ delivery leaseUntil s',
    ¬ Step config s
      (.renewal delivery (.called lease leaseUntil)) s'

/-
  In every state after a call of the store for a lease: the
  renewal of its delivery does not run and makes no step; if
  no other delivery was registered with the lease, nobody
  renews it.  Every renewal is of the lease its delivery was
  registered with, and those of pending leases can go on.
-/
structure Exclusion
    (config : Config) (trace : List Event) (s : State) :
    Prop where
  joined : ∀ call delivery made,
    Event.stored call delivery made ∈ trace →
      s.Joined delivery ∧
        ∀ event s',
          ¬ Step config s (.renewal delivery event) s'
  unrenewed : ∀ call delivery made,
    Event.stored call delivery made ∈ trace →
      (∀ other, Event.registered other made.lease ∈ trace →
        other = delivery) →
      s.Unrenewed config made.lease
  own : ∀ delivery lease leaseUntil s',
    Step config s
        (.renewal delivery (.called lease leaseUntil)) s' →
      Event.registered delivery lease ∈ trace
  others : ∀ delivery lease now leaseUntil,
    s.pending delivery = some lease → config.Renews →
      now ≤ config.maxTime →
      config.checkedAdd now config.options.leaseDuration =
        some leaseUntil →
      ∃ more s', (lts config).Continues
          (fun e => ∃ event, e = .renewal delivery event)
          s more s' ∧
        Event.renewal delivery (.called lease leaseUntil) ∈
          more

theorem called_of_step
    {s s' : State} {delivery : DeliveryId}
    {event : RenewalEvent}
    (hStep : Step config s (.renewal delivery event) s') :
    ∃ renewal renewal', s.renewals delivery = some renewal ∧
      RenewalStep config renewal event renewal' := by
  cases hStep with
  | renewal hRenewal hMove => exact ⟨_, _, hRenewal, hMove⟩

theorem RenewalStep.lease_of_called
    {renewal renewal' : Renewal} {lease : LeaseKey}
    {leaseUntil : Time}
    (hStep :
      RenewalStep config renewal (.called lease leaseUntil)
        renewal') :
    renewal.lease = lease := by
  cases hStep
  rfl

/- Renewal never overlaps settlement. -/
theorem renewal_excludes_settlement
    {trace : List Event} {s : State}
    (hReach : (lts config).Reachable trace s) :
    Exclusion config trace s where
  joined := by
    intro call delivery made hStored
    have hJoined := joined_of_stored hReach hStored
    refine ⟨hJoined, ?_⟩
    intro event s' hStep
    rcases called_of_step hStep with
      ⟨renewal, renewal', hRenewal, hMove⟩
    exact hMove.ne_finished (hJoined renewal hRenewal)
  unrenewed := by
    intro call delivery made hStored hOnly
    have hJoined := joined_of_stored hReach hStored
    have hEnded (other : DeliveryId) (renewal : Renewal)
        (hRenewal : s.renewals other = some renewal)
        (hLease : renewal.lease = made.lease) :
        renewal.phase = .finished := by
      have hRegistered := lease_of_renewal hReach hRenewal
      rw [hLease] at hRegistered
      have hSame := hOnly other hRegistered
      subst hSame
      exact hJoined renewal hRenewal
    constructor
    · intro other renewal hRenewal hLease
      rw [hEnded other renewal hRenewal hLease]
      nofun
    · intro other leaseUntil s' hStep
      rcases called_of_step hStep with
        ⟨renewal, renewal', hRenewal, hMove⟩
      exact hMove.ne_finished
        (hEnded other renewal hRenewal hMove.lease_of_called)
  own := by
    intro delivery lease leaseUntil s' hStep
    rcases called_of_step hStep with
      ⟨renewal, renewal', hRenewal, hMove⟩
    rw [← hMove.lease_of_called]
    exact lease_of_renewal hReach hRenewal
  others := by
    intro delivery lease now leaseUntil hPending hRenews hNow
      hUntil
    rcases active_of_pending hReach hRenews hPending with
      ⟨renewal, hRenewal, hActive⟩
    exact exists_renewed hRenewal hActive hNow hUntil

/-
  After the settlement of one delivery its lease is renewed no
  more; that of the other delivery of the record can be.
-/
theorem sample_exclusion :
    ∃ s, (lts sampleConfig).Reachable
        (sampleYield ++ sampleSettle) s ∧
      s.Unrenewed sampleConfig (sampleLeased "a").key ∧
      ∃ more s', (lts sampleConfig).Continues
          (fun e => ∃ event, e = .renewal 2 event) s more s' ∧
        Event.renewal 2
          (.called (sampleLeased "c").key 30_000_000_000) ∈
            more := by
  rcases sample_reachable with ⟨s, hReach, hPending⟩
  have hExclusion := renewal_excludes_settlement hReach
  refine ⟨s, hReach, ?_, ?_⟩
  · apply hExclusion.unrenewed 0 1
      (.acknowledge (sampleLeased "a").key)
    · simp [sampleSettle]
    · intro other hRegistered
      have hCases :
          (other = 1 ∧
              StoreCall.lease
                  (.acknowledge (sampleLeased "a").key) =
                (sampleLeased "a").key) ∨
            (other = 2 ∧
              StoreCall.lease
                  (.acknowledge (sampleLeased "a").key) =
                (sampleLeased "c").key) := by
        simpa [sampleYield, sampleSettle] using hRegistered
      rcases hCases with ⟨hOther, _⟩ | ⟨_, hLease⟩
      · exact hOther
      · exact absurd hLease (by decide)
  · exact hExclusion.others 2 _ 0 _ hPending (by decide)
      (Nat.zero_le _) rfl

end Outbox

end Qanat
