import Mathlib.Logic.Function.Basic
import Qanat.Library.Lts
import Qanat.Headers

/-
  The durable outbox source: the stream that claims records,
  the settlement actor and the lease renewals.

  The store is outside; its calls may take any time and
  return anything.  The runs of `lts` are those in which none
  of them unwinds; `anyLts` has the others, too.  The clock
  may show any time up to the last one it can represent.
  Delivery ids are natural numbers, and up to `2 ^ 64` those
  of the code.  What a record and its lease carry that the
  source does not read is left out, as is tracing.

  Main declarations:
    * `OutboxRecord`, `LeaseKey`, `StoreCall`
    * `OutboxSourceOptions`, `validate`
    * `routeMessage`, `settleRecord`
    * `Outbox.State`, `Outbox.Event`
    * `StreamStep`, `RenewalStep`, `Step`, `Outbox.lts`
    * `Unwinding`, `Outbox.anyLts`, `returning_iff`
-/

------------------------------------------------------------
-- The Store
------------------------------------------------------------

namespace Qanat

namespace Outbox

open Router (RouteMessage DeliveryDecision)

/- `SystemTime` and `Duration`, in nanoseconds. -/
abbrev Time := Nat

structure OutboxRecord where
  id : String
  address : String
  payload : Bytes
  contentType : Option String
  headers : Headers
  metadata : Headers
  attempts : UInt32
deriving DecidableEq

structure OutboxLease where
  token : String
deriving DecidableEq

structure LeasedOutboxRecord where
  record : OutboxRecord
  lease : OutboxLease
deriving DecidableEq

structure OutboxClaim where
  consumerId : String
  limit : Nat
  leaseUntil : Time
deriving DecidableEq

/- A record id with the token of one of its leases. -/
structure LeaseKey where
  recordId : String
  leaseToken : String
deriving DecidableEq

def LeasedOutboxRecord.key
    (leased : LeasedOutboxRecord) : LeaseKey where
  recordId := leased.record.id
  leaseToken := leased.lease.token

/- The calls that give a lease up. -/
inductive StoreCall where
| acknowledge (lease : LeaseKey)
| release (lease : LeaseKey) (availableAt : Option Time)
deriving DecidableEq

def StoreCall.lease : StoreCall → LeaseKey
| .acknowledge lease => lease
| .release lease _ => lease

end Outbox

end Qanat

------------------------------------------------------------
-- The Source
------------------------------------------------------------

namespace Qanat

namespace Outbox

open Router (RouteMessage DeliveryDecision)

def defaultOutboxLeaseDuration : Time := 30_000_000_000

def defaultOutboxPollInterval : Time := 1_000_000_000

def defaultOutboxRetryDelay : Time := 1_000_000_000

structure OutboxSourceOptions where
  leaseDuration : Time := defaultOutboxLeaseDuration
  pollInterval : Time := defaultOutboxPollInterval
  retryDelay : Time := defaultOutboxRetryDelay
  renewalInterval : Option Time := none
deriving DecidableEq

def validate
    (consumerId : String) (options : OutboxSourceOptions) :
    Except BusError Unit :=
  if consumerId = "" then
    .error (.internal "outbox consumer ID cannot be empty")
  else if options.leaseDuration = 0 then
    .error (.internal
      "outbox lease duration must be nonzero")
  else if options.pollInterval = 0 then
    .error (.internal
      "outbox poll interval must be nonzero")
  else if options.renewalInterval.any (fun interval =>
      interval = 0 ∨ options.leaseDuration ≤ interval) then
    .error (.internal
      ("outbox renewal interval must be nonzero and " ++
        "shorter than the lease duration"))
  else
    .ok ()

/-
  A source that `open` has accepted, and the last time that
  `SystemTime` can represent.
-/
structure Config where
  consumerId : String
  options : OutboxSourceOptions
  maxTime : Time
  valid : validate consumerId options = .ok ()

/- The default options are accepted. -/
theorem validate_default
    {consumerId : String}
    (hConsumer : consumerId ≠ "") :
    validate consumerId {} = .ok () := by
  unfold validate
  rw [if_neg hConsumer]
  rfl

namespace Config

/- `SystemTime::checked_add`. -/
def checkedAdd
    (config : Config) (now duration : Time) :
    Option Time :=
  if now + duration ≤ config.maxTime then
    some (now + duration)
  else
    none

def claim (config : Config) (leaseUntil : Time) :
    OutboxClaim where
  consumerId := config.consumerId
  limit := 1
  leaseUntil := leaseUntil

/- With renewal every registered lease gets a task. -/
def Renews (config : Config) : Prop :=
  config.options.renewalInterval.isSome = true

instance (config : Config) : Decidable config.Renews := by
  unfold Renews
  infer_instance

end Config

abbrev DeliveryId := Nat

/- The message of a claimed record. -/
def routeMessage
    (delivery : DeliveryId) (record : OutboxRecord) :
    RouteMessage where
  address := record.address
  id := UInt64.ofNat delivery
  messageId := record.id
  headers :=
    match record.contentType with
    | some value => Headers.setContentType record.headers value
    | none => record.headers
  metadata := record.metadata
  attempts := record.attempts
  payload := record.payload

def outboxError (operation recordId text : String) :
    BusError :=
  .internal
    ("cannot " ++ operation ++ " outbox record '" ++
      recordId ++ "': " ++ text)

/-
  `settle_record` up to its call of the store, or the error
  of a deadline that cannot be represented.
-/
def settleRecord
    (config : Config) (lease : LeaseKey)
    (decision : DeliveryDecision) (now : Time) :
    Except BusError StoreCall :=
  match decision with
  | .retry =>
      match config.checkedAdd now config.options.retryDelay with
      | some availableAt =>
          .ok (.release lease (some availableAt))
      | none =>
          .error (.internal
            "cannot calculate outbox retry deadline")
  | .ack => .ok (.acknowledge lease)
  | .reject => .ok (.acknowledge lease)

/- `release_after_claim_failure`, whose result is only logged. -/
def releaseAfterClaimFailure
    (config : Config) (leased : LeasedOutboxRecord)
    (now : Time) : StoreCall :=
  .release leased.key
    (config.checkedAdd now config.options.retryDelay)

/- `settle_record` after its call of the store. -/
def settleResult
    (call : StoreCall) (result : Except String Unit) :
    Except BusError Unit :=
  match result with
  | .ok () => .ok ()
  | .error text =>
      match call with
      | .acknowledge lease =>
          .error (outboxError "acknowledge" lease.recordId text)
      | .release lease _ =>
          .error (outboxError "release" lease.recordId text)

/- The error of an id that is not in the table. -/
def notPending (delivery : DeliveryId) : BusError :=
  .internal
    ("outbox delivery " ++ toString delivery ++
      " is not pending settlement")

def actorStopped : BusError :=
  .internal "outbox settlement actor stopped"

/- Whatever is called for a lease is called with its key. -/
theorem settleRecord_lease
    {config : Config} {lease : LeaseKey}
    {decision : DeliveryDecision} {now : Time}
    {call : StoreCall}
    (hCall : settleRecord config lease decision now =
      .ok call) :
    call.lease = lease := by
  unfold settleRecord at hCall
  cases decision with
  | ack => cases hCall; rfl
  | reject => cases hCall; rfl
  | retry =>
      simp only at hCall
      split at hCall
      · cases hCall
        rfl
      · cases hCall

end Outbox

end Qanat

------------------------------------------------------------
-- States
------------------------------------------------------------

namespace Qanat

namespace Outbox

open Router (DeliveryDecision)

/- The settle calls, by their order. -/
abbrev SettleId := Nat

/-
  Where `claim_next` is.  `releasing` holds the record to
  yield and the excess that is left to release, `registering`
  awaits the actor, `abandoning` releases after a failed
  registration.
-/
inductive StreamPhase where
| resting
| claiming
| claimPending
| sleeping
| releasing
    (leased : LeasedOutboxRecord)
    (excess : List LeasedOutboxRecord)
| registering
    (delivery : DeliveryId) (leased : LeasedOutboxRecord)
| registered
    (delivery : DeliveryId) (leased : LeasedOutboxRecord)
| abandoning (leased : LeasedOutboxRecord)
| ended
| dropped
deriving DecidableEq

namespace StreamPhase

/- The claimed records that the stream still has. -/
def inHand : StreamPhase → List LeasedOutboxRecord
| .releasing leased excess => leased :: excess
| .registering _ leased => [leased]
| .registered _ leased => [leased]
| .abandoning leased => [leased]
| _ => []

/- `registered.send(())` at the actor. -/
def acknowledge (delivery : DeliveryId) :
    StreamPhase → StreamPhase
| .registering awaited leased =>
    if awaited = delivery then .registered awaited leased
    else .registering awaited leased
| phase => phase

/- The sender of the commands is gone. -/
def Closed : StreamPhase → Prop
| .ended | .dropped => True
| _ => False

instance (phase : StreamPhase) : Decidable phase.Closed := by
  cases phase <;> unfold Closed <;> infer_instance

end StreamPhase

/- `SettlementCommand`. -/
inductive SettlementCommand where
| register (delivery : DeliveryId) (lease : LeaseKey)
| settle
    (call : SettleId) (delivery : DeliveryId)
    (decision : DeliveryDecision)
deriving DecidableEq

/-
  Where the settlement actor is.  `joining` awaits the end of
  a renewal, `storing` a call of the store; `replying` has
  the result without one.
-/
inductive ActorPhase where
| receiving
| joining
    (call : SettleId) (delivery : DeliveryId)
    (lease : LeaseKey) (decision : DeliveryDecision)
| storing (call : SettleId) (made : StoreCall)
| replying (call : SettleId) (result : Except BusError Unit)
| stopped
deriving DecidableEq

inductive RenewalPhase where
| sleeping
| renewing
| finished
deriving DecidableEq

/- The task of a renewal and what it has been told. -/
structure Renewal where
  lease : LeaseKey
  phase : RenewalPhase
  stopRequested : Bool
  aborted : Bool
deriving DecidableEq

/- The task that `spawn_lease_renewal` starts. -/
def spawnLeaseRenewal (lease : LeaseKey) : Renewal where
  lease := lease
  phase := .sleeping
  stopRequested := false
  aborted := false

/- The actor drops the sender of a stop signal or uses it. -/
def Renewal.stop (renewal : Renewal) : Renewal :=
  { renewal with stopRequested := true }

def Renewal.abort (renewal : Renewal) : Renewal :=
  { renewal with aborted := true }

/-
  An open source.  `pending` and `renewals` are by delivery;
  the handles of a pending lease lead to the renewal of its
  delivery.
-/
structure State where
  nextDelivery : DeliveryId
  stream : StreamPhase
  sourceOpen : Bool
  calls : SettleId
  queue : List SettlementCommand
  actor : ActorPhase
  pending : DeliveryId → Option LeaseKey
  renewals : DeliveryId → Option Renewal

/- The state after `open`. -/
def State.start : State where
  nextDelivery := 1
  stream := .resting
  sourceOpen := true
  calls := 0
  queue := []
  actor := .receiving
  pending := fun _ => none
  renewals := fun _ => none

/- The renewal of a delivery does not run. -/
def State.Joined (s : State) (delivery : DeliveryId) :
    Prop :=
  ∀ renewal, s.renewals delivery = some renewal →
    renewal.phase = .finished

end Outbox

end Qanat

------------------------------------------------------------
-- Events
------------------------------------------------------------

namespace Qanat

namespace Outbox

open Router (DeliveryDecision)

inductive StreamEvent where
| polled
| claimSkipped (now : Time)
| claimCalled (claim : OutboxClaim)
| claimFailed (text : String)
| claimed (records : List LeasedOutboxRecord)
| woke
| released
    (leased : LeasedOutboxRecord) (made : StoreCall)
| yielded
    (delivery : DeliveryId) (leased : LeasedOutboxRecord)
| dropped
deriving DecidableEq

inductive RenewalEvent where
| skipped (now : Time)
| called (lease : LeaseKey) (leaseUntil : Time)
| returned (result : Except String Unit)
| stopped
| aborted
deriving DecidableEq

/-
  `registering` is the command sent and `registered` the
  command taken by the actor; likewise `settleCalled` and
  `settleTaken`, with the lease found.
-/
inductive Event where
| stream (event : StreamEvent)
| renewal (delivery : DeliveryId) (event : RenewalEvent)
| registering
    (delivery : DeliveryId) (leased : LeasedOutboxRecord)
| registered (delivery : DeliveryId) (lease : LeaseKey)
| registrationFailed (delivery : DeliveryId)
| settleCalled
    (call : SettleId) (delivery : DeliveryId)
    (decision : DeliveryDecision)
| settleRefused
    (call : SettleId) (delivery : DeliveryId)
    (decision : DeliveryDecision) (error : BusError)
| settleTaken
    (call : SettleId) (delivery : DeliveryId)
    (decision : DeliveryDecision) (found : Option LeaseKey)
| stored
    (call : SettleId) (delivery : DeliveryId)
    (made : StoreCall)
| deadlineFailed (call : SettleId) (now : Time)
| replied (call : SettleId) (result : Except BusError Unit)
| sourceDropped
| actorStopped
deriving DecidableEq

end Outbox

end Qanat

------------------------------------------------------------
-- Steps
------------------------------------------------------------

namespace Qanat

namespace Outbox

open Transition
open Router (DeliveryDecision)

/- The steps of `claim_next` that concern the stream alone. -/
inductive StreamStep (config : Config) :
    StreamPhase → StreamEvent → StreamPhase → Prop where
| poll :
    StreamStep config .resting .polled .claiming
| skip {now : Time} :
    now ≤ config.maxTime →
    config.checkedAdd now config.options.leaseDuration =
      none →
    StreamStep config .claiming (.claimSkipped now) .sleeping
| call {now leaseUntil : Time} :
    now ≤ config.maxTime →
    config.checkedAdd now config.options.leaseDuration =
      some leaseUntil →
    StreamStep config .claiming
      (.claimCalled (config.claim leaseUntil)) .claimPending
| fail {text : String} :
    StreamStep config .claimPending (.claimFailed text)
      .sleeping
| none :
    StreamStep config .claimPending (.claimed []) .sleeping
| claim
    {leased : LeasedOutboxRecord}
    {excess : List LeasedOutboxRecord} :
    StreamStep config .claimPending
      (.claimed (leased :: excess)) (.releasing leased excess)
| wake : StreamStep config .sleeping .woke .claiming
| release
    {leased other : LeasedOutboxRecord}
    {excess : List LeasedOutboxRecord} {now : Time} :
    now ≤ config.maxTime →
    StreamStep config (.releasing leased (other :: excess))
      (.released other
        (releaseAfterClaimFailure config other now))
      (.releasing leased excess)
| abandon {leased : LeasedOutboxRecord} {now : Time} :
    now ≤ config.maxTime →
    StreamStep config (.abandoning leased)
      (.released leased
        (releaseAfterClaimFailure config leased now))
      .ended
| «yield»
    {delivery : DeliveryId} {leased : LeasedOutboxRecord} :
    StreamStep config (.registered delivery leased)
      (.yielded delivery leased) .resting
-- the route drops its stream between two polls
| drop {phase : StreamPhase} :
    phase = .resting ∨ phase = .ended →
    StreamStep config phase .dropped .dropped

/- The steps of the task of `spawn_lease_renewal`. -/
inductive RenewalStep (config : Config) :
    Renewal → RenewalEvent → Renewal → Prop where
| skip {renewal : Renewal} {now : Time} :
    renewal.phase = .sleeping →
    now ≤ config.maxTime →
    config.checkedAdd now config.options.leaseDuration =
      none →
    RenewalStep config renewal (.skipped now) renewal
| call {renewal : Renewal} {now leaseUntil : Time} :
    renewal.phase = .sleeping →
    now ≤ config.maxTime →
    config.checkedAdd now config.options.leaseDuration =
      some leaseUntil →
    RenewalStep config renewal
      (.called renewal.lease leaseUntil)
      { renewal with phase := .renewing }
| «return»
    {renewal : Renewal} {result : Except String Unit} :
    renewal.phase = .renewing →
    RenewalStep config renewal (.returned result)
      { renewal with phase := .sleeping }
| stop {renewal : Renewal} :
    renewal.phase = .sleeping →
    renewal.stopRequested = true →
    RenewalStep config renewal .stopped
      { renewal with phase := .finished }
| abort {renewal : Renewal} :
    renewal.phase ≠ .finished →
    renewal.aborted = true →
    RenewalStep config renewal .aborted
      { renewal with phase := .finished }

/- The steps of an open source and of whoever settles at it. -/
inductive Step (config : Config) :
    State → Event → State → Prop where
| stream
    {s : State} {event : StreamEvent} {phase : StreamPhase} :
    StreamStep config s.stream event phase →
    Step config s (.stream event) { s with stream := phase }
| renewal
    {s : State} {delivery : DeliveryId}
    {renewal renewal' : Renewal} {event : RenewalEvent} :
    s.renewals delivery = some renewal →
    RenewalStep config renewal event renewal' →
    Step config s (.renewal delivery event)
      { s with
        renewals :=
          Function.update s.renewals delivery
            (some renewal') }
-- `SettlementCommand::Register` sent and taken
| register {s : State} {leased : LeasedOutboxRecord} :
    s.stream = .releasing leased [] →
    s.actor ≠ .stopped →
    Step config s (.registering s.nextDelivery leased)
      { s with
        nextDelivery := s.nextDelivery + 1
        stream := .registering s.nextDelivery leased
        queue := s.queue ++
          [.register s.nextDelivery leased.key] }
| failRegister {s : State} {leased : LeasedOutboxRecord} :
    s.stream = .releasing leased [] →
    s.actor = .stopped →
    Step config s (.registrationFailed s.nextDelivery)
      { s with
        nextDelivery := s.nextDelivery + 1
        stream := .abandoning leased }
| loseRegister
    {s : State} {delivery : DeliveryId}
    {leased : LeasedOutboxRecord} :
    s.stream = .registering delivery leased →
    s.actor = .stopped →
    Step config s (.registrationFailed delivery)
      { s with stream := .abandoning leased }
| takeRegister
    {s : State} {delivery : DeliveryId} {lease : LeaseKey}
    {rest : List SettlementCommand} :
    s.actor = .receiving →
    s.queue = .register delivery lease :: rest →
    Step config s (.registered delivery lease)
      { s with
        stream := s.stream.acknowledge delivery
        queue := rest
        pending :=
          Function.update s.pending delivery (some lease)
        renewals :=
          Function.update s.renewals delivery
            (if config.Renews then
              some (spawnLeaseRenewal lease)
            else
              none) }
-- `SettlementCommand::Settle` sent and taken
| settle
    {s : State} (delivery : DeliveryId)
    (decision : DeliveryDecision) :
    s.sourceOpen = true →
    s.actor ≠ .stopped →
    Step config s (.settleCalled s.calls delivery decision)
      { s with
        calls := s.calls + 1
        queue := s.queue ++
          [.settle s.calls delivery decision] }
| refuse
    {s : State} (delivery : DeliveryId)
    (decision : DeliveryDecision) :
    s.sourceOpen = true →
    s.actor = .stopped →
    Step config s
      (.settleRefused s.calls delivery decision actorStopped)
      { s with calls := s.calls + 1 }
| takeSettle
    {s : State} {call : SettleId} {delivery : DeliveryId}
    {decision : DeliveryDecision} {lease : LeaseKey}
    {rest : List SettlementCommand} :
    s.actor = .receiving →
    s.queue = .settle call delivery decision :: rest →
    s.pending delivery = some lease →
    Step config s
      (.settleTaken call delivery decision (some lease))
      { s with
        queue := rest
        actor := .joining call delivery lease decision
        pending := Function.update s.pending delivery none
        renewals :=
          Function.update s.renewals delivery
            ((s.renewals delivery).map Renewal.stop) }
| missSettle
    {s : State} {call : SettleId} {delivery : DeliveryId}
    {decision : DeliveryDecision}
    {rest : List SettlementCommand} :
    s.actor = .receiving →
    s.queue = .settle call delivery decision :: rest →
    s.pending delivery = none →
    Step config s
      (.settleTaken call delivery decision none)
      { s with
        queue := rest
        actor := .replying call
          (.error (notPending delivery)) }
-- `settle_record`, after `task.await`
| store
    {s : State} {call : SettleId} {delivery : DeliveryId}
    {lease : LeaseKey} {decision : DeliveryDecision}
    {now : Time} {made : StoreCall} :
    s.actor = .joining call delivery lease decision →
    s.Joined delivery →
    now ≤ config.maxTime →
    settleRecord config lease decision now = .ok made →
    Step config s (.stored call delivery made)
      { s with actor := .storing call made }
| failDeadline
    {s : State} {call : SettleId} {delivery : DeliveryId}
    {lease : LeaseKey} {decision : DeliveryDecision}
    {now : Time} {error : BusError} :
    s.actor = .joining call delivery lease decision →
    s.Joined delivery →
    now ≤ config.maxTime →
    settleRecord config lease decision now = .error error →
    Step config s (.deadlineFailed call now)
      { s with actor := .replying call (.error error) }
| «return»
    {s : State} {call : SettleId} {made : StoreCall}
    {result : Except String Unit} :
    s.actor = .storing call made →
    Step config s
      (.replied call (settleResult made result))
      { s with actor := .receiving }
| reply
    {s : State} {call : SettleId}
    {result : Except BusError Unit} :
    s.actor = .replying call result →
    Step config s (.replied call result)
      { s with actor := .receiving }
-- every sender of the commands is gone
| dropSource {s : State} :
    s.sourceOpen = true →
    Step config s .sourceDropped
      { s with sourceOpen := false }
| stopActor {s : State} :
    s.actor = .receiving →
    s.queue = [] →
    s.sourceOpen = false →
    s.stream.Closed →
    Step config s .actorStopped
      { s with
        actor := .stopped
        pending := fun _ => none
        renewals := fun delivery =>
          match s.pending delivery with
          | some _ =>
              (s.renewals delivery).map
                (fun renewal => renewal.stop.abort)
          | none => s.renewals delivery }

/- An open outbox source. -/
def lts (config : Config) : Lts State Event where
  initial s := s = State.start
  step := Step config

end Outbox

end Qanat

------------------------------------------------------------
-- Calls that Unwind
------------------------------------------------------------

namespace Qanat

namespace Outbox

open Transition

/- The call of the store that a task unwinds from. -/
inductive Unwinding where
| claim
| release (leased : LeasedOutboxRecord)
| renewal (delivery : DeliveryId)
| settlement (call : SettleId)
deriving DecidableEq

/-
  The actor is gone with its queue and its table.  The tasks
  of the renewals are told to stop, but they are not aborted.
-/
def State.abandonActor (s : State) : State :=
  { s with
    queue := []
    actor := .stopped
    pending := fun _ => none
    renewals := fun delivery =>
      match s.pending delivery with
      | some _ => (s.renewals delivery).map Renewal.stop
      | none => s.renewals delivery }

/- The steps of a source with any store. -/
inductive AnyStep (config : Config) :
    State → Event ⊕ Unwinding → State → Prop where
| step {s s' : State} {e : Event} :
    Step config s e s' →
    AnyStep config s (.inl e) s'
| claim {s : State} :
    s.stream = .claimPending →
    AnyStep config s (.inr .claim) { s with stream := .dropped }
| release
    {s : State} {leased other : LeasedOutboxRecord}
    {excess : List LeasedOutboxRecord} :
    s.stream = .releasing leased (other :: excess) →
    AnyStep config s (.inr (.release other))
      { s with stream := .dropped }
| abandon {s : State} {leased : LeasedOutboxRecord} :
    s.stream = .abandoning leased →
    AnyStep config s (.inr (.release leased))
      { s with stream := .dropped }
| renewal
    {s : State} {delivery : DeliveryId} {renewal : Renewal} :
    s.renewals delivery = some renewal →
    renewal.phase = .renewing →
    AnyStep config s (.inr (.renewal delivery))
      { s with
        renewals :=
          Function.update s.renewals delivery
            (some { renewal with phase := .finished }) }
| settlement
    {s : State} {call : SettleId} {made : StoreCall} :
    s.actor = .storing call made →
    AnyStep config s (.inr (.settlement call)) s.abandonActor

def anyLts (config : Config) :
    Lts State (Event ⊕ Unwinding) where
  initial s := s = State.start
  step := AnyStep config

/- The runs of `lts` are those in which no call unwinds. -/
theorem returning_iff
    {config : Config} {trace : List Event} {s : State} :
    (anyLts config).Reachable (trace.map .inl) s ↔
      (lts config).Reachable trace s := by
  apply Lts.reachable_map_iff
  · exact fun _ => Iff.rfl
  · intro s e s'
    constructor
    · rintro ⟨hStep⟩
      exact hStep
    · exact AnyStep.step

end Outbox

end Qanat
