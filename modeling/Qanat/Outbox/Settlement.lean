import Qanat.Library.Tickets
import Qanat.Outbox.Records

/-
  What becomes of the settle calls: the first that the actor
  takes for a registered lease gives that lease up at the
  store, every other one fails without asking the store.

  Main declarations:
    * `found_iff`
    * `CallState`, `CallStep`, `settlement_of_call`
    * `Served`, `answered_of_idle`
-/

------------------------------------------------------------
-- What a Settle Call Finds
------------------------------------------------------------

namespace Qanat

namespace Outbox

open Transition
open Router (DeliveryDecision)

/- A registered lease is a ticket for its delivery. -/
def Event.ticket? :
    Event → Option (Tickets.Event DeliveryId LeaseKey)
| .registered delivery lease =>
    some (.issued delivery lease)
| .settleTaken _ delivery _ found =>
    some (.redeemed delivery found)
| _ => none

variable {config : Config}

/- While the actor runs, the pending leases are the tickets. -/
theorem tickets_of_reachable
    {trace : List Event} {s : State}
    (hReach : (lts config).Reachable trace s) :
    ∃ table, (Tickets.lts DeliveryId LeaseKey).Reachable
      (trace.filterMap Event.ticket?) table := by
  have hRun := hReach.simulate
    (N := Tickets.lts DeliveryId LeaseKey) Event.ticket?
    (fun _ s table =>
      s.actor ≠ .stopped → table = s.pending)
    ?initial ?step
  case initial =>
    rintro s rfl
    exact ⟨fun _ => none, rfl, fun _ => rfl⟩
  case step =>
    intro trace s e s' table hBefore hTable hStep
    cases hStep with
    | @takeRegister delivery lease rest hActor hQueue =>
        have hSame := hTable (by rw [hActor]; nofun)
        subst hSame
        exact ⟨_, fun _ => rfl, .issue delivery lease⟩
    | @takeSettle _ delivery _ lease rest hActor hQueue
        hFound =>
        have hSame := hTable (by rw [hActor]; nofun)
        subst hSame
        exact ⟨_, fun _ => rfl, Tickets.step_redeem _ hFound⟩
    | @missSettle _ delivery _ rest hActor hQueue hFound =>
        have hSame := hTable (by rw [hActor]; nofun)
        subst hSame
        exact ⟨s.pending, fun _ => rfl,
          Tickets.step_miss _ hFound⟩
    | store hActor =>
        exact ⟨table, fun _ => hTable (by rw [hActor]; nofun),
          rfl⟩
    | failDeadline hActor =>
        exact ⟨table, fun _ => hTable (by rw [hActor]; nofun),
          rfl⟩
    | «return» hActor =>
        exact ⟨table, fun _ => hTable (by rw [hActor]; nofun),
          rfl⟩
    | reply hActor =>
        exact ⟨table, fun _ => hTable (by rw [hActor]; nofun),
          rfl⟩
    | stopActor => exact ⟨table, nofun, rfl⟩
    | _ => exact ⟨table, hTable, rfl⟩
  rcases hRun with ⟨table, hTickets, _⟩
  exact ⟨table, hTickets⟩

def SettlementCommand.registers? :
    SettlementCommand → Option DeliveryId
| .register delivery _ => some delivery
| .settle _ _ _ => none

def SettlementCommand.settles? :
    SettlementCommand → Option SettleId
| .register _ _ => none
| .settle call _ _ => some call

theorem sent_registrations (trace : List Event) :
    (sentCommands trace).filterMap
        SettlementCommand.registers? =
      (offers trace).map Prod.fst := by
  unfold sentCommands offers
  rw [List.filterMap_filterMap, List.map_filterMap]
  congr 1
  funext e
  cases e <;> rfl

/- No lease is registered twice. -/
theorem issued_once
    {trace : List Event} {s : State}
    (hReach : (lts config).Reachable trace s) :
    ((trace.filterMap Event.ticket?).filterMap
      Tickets.Event.issue?).Nodup := by
  have hTaken :
      (trace.filterMap Event.ticket?).filterMap
          Tickets.Event.issue? =
        (takenCommands trace).filterMap
          SettlementCommand.registers? := by
    unfold takenCommands
    rw [List.filterMap_filterMap, List.filterMap_filterMap]
    congr 1
    funext e
    cases e <;> rfl
  have hOffered := offered_once hReach
  rw [← sent_registrations, sentCommands_eq hReach,
    List.filterMap_append, List.nodup_append] at hOffered
  rw [hTaken]
  exact hOffered.1

/-
  A settle call finds the lease of its delivery if that has
  been registered and no earlier call has found it.
-/
theorem found_iff
    {trace earlier later : List Event} {s : State}
    (hReach : (lts config).Reachable trace s)
    {call : SettleId} {delivery : DeliveryId}
    {decision : DeliveryDecision} {found : Option LeaseKey}
    (hTrace :
      trace =
        earlier ++
          .settleTaken call delivery decision found :: later)
    (lease : LeaseKey) :
    found = some lease ↔
      Event.registered delivery lease ∈ earlier ∧
        ∀ call' decision' other,
          Event.settleTaken call' delivery decision'
            (some other) ∉ earlier := by
  rcases tickets_of_reachable hReach with ⟨table, hTickets⟩
  have hSplit :
      trace.filterMap Event.ticket? =
        earlier.filterMap Event.ticket? ++
          .redeemed delivery found ::
            later.filterMap Event.ticket? := by
    rw [hTrace, List.filterMap_append]
    rfl
  rw [Tickets.redeemed_iff_of_once hTickets
    (issued_once hReach) hSplit]
  have hIssued :
      Tickets.Event.issued delivery lease ∈
          earlier.filterMap Event.ticket? ↔
        Event.registered delivery lease ∈ earlier := by
    rw [List.mem_filterMap]
    constructor
    · rintro ⟨e, hMem, hTicket⟩
      cases e with
      | registered => cases hTicket; exact hMem
      | _ => cases hTicket
    · intro hMem
      exact ⟨_, hMem, rfl⟩
  have hRedeemed (other : LeaseKey) :
      Tickets.Event.redeemed delivery (some other) ∈
          earlier.filterMap Event.ticket? ↔
        ∃ call' decision',
          Event.settleTaken call' delivery decision'
            (some other) ∈ earlier := by
    rw [List.mem_filterMap]
    constructor
    · rintro ⟨e, hMem, hTicket⟩
      cases e with
      | settleTaken call' _ decision' _ =>
          cases hTicket
          exact ⟨call', decision', hMem⟩
      | _ => cases hTicket
    · rintro ⟨call', decision', hMem⟩
      exact ⟨_, hMem, rfl⟩
  rw [hIssued]
  apply and_congr_right
  intro _
  constructor
  · intro hNone call' decision' other hMem
    exact hNone other
      ((hRedeemed other).mpr ⟨call', decision', hMem⟩)
  · intro hNone other hMem
    rcases (hRedeemed other).mp hMem with
      ⟨call', decision', hTaken⟩
    exact hNone call' decision' other hTaken

end Outbox

end Qanat

------------------------------------------------------------
-- The Life of a Settle Call
------------------------------------------------------------

namespace Qanat

namespace Outbox

open Transition
open Router (DeliveryDecision)

/-
  A settle call by itself: `waiting` until the actor takes
  its command, `answered` when it has its reply.
-/
inductive CallState where
| waiting
| joining
    (delivery : DeliveryId) (lease : LeaseKey)
    (decision : DeliveryDecision)
| storing (made : StoreCall)
| replying (result : Except BusError Unit)
| answered
deriving DecidableEq

/- What the actor does for one settle call. -/
inductive CallStep (config : Config) (call : SettleId) :
    CallState → Event → CallState → Prop where
| take
    {delivery : DeliveryId} {decision : DeliveryDecision}
    {lease : LeaseKey} :
    CallStep config call .waiting
      (.settleTaken call delivery decision (some lease))
      (.joining delivery lease decision)
| miss
    {delivery : DeliveryId} {decision : DeliveryDecision} :
    CallStep config call .waiting
      (.settleTaken call delivery decision none)
      (.replying (.error (notPending delivery)))
| store
    {delivery : DeliveryId} {decision : DeliveryDecision}
    {lease : LeaseKey} {now : Time} {made : StoreCall} :
    now ≤ config.maxTime →
    settleRecord config lease decision now = .ok made →
    CallStep config call (.joining delivery lease decision)
      (.stored call delivery made) (.storing made)
| failDeadline
    {delivery : DeliveryId} {decision : DeliveryDecision}
    {lease : LeaseKey} {now : Time} {error : BusError} :
    now ≤ config.maxTime →
    settleRecord config lease decision now = .error error →
    CallStep config call (.joining delivery lease decision)
      (.deadlineFailed call now) (.replying (.error error))
| «return»
    {made : StoreCall} {result : Except String Unit} :
    CallStep config call (.storing made)
      (.replied call (settleResult made result)) .answered
| reply {result : Except BusError Unit} :
    CallStep config call (.replying result)
      (.replied call result) .answered

def callLts (config : Config) (call : SettleId) :
    Lts CallState Event where
  initial s := s = .waiting
  step := CallStep config call

/- The settle call for which the actor does something. -/
def Event.serves? : Event → Option SettleId
| .settleTaken call _ _ _ => some call
| .stored call _ _ => some call
| .deadlineFailed call _ => some call
| .replied call _ => some call
| _ => none

/- The event, if it is done for the call. -/
def Event.ofCall (call : SettleId) (e : Event) :
    Option Event :=
  if e.serves? = some call then some e else none

/- The call the actor is busy with. -/
def ActorPhase.call? : ActorPhase → Option SettleId
| .receiving => none
| .joining call _ _ _ => some call
| .storing call _ => some call
| .replying call _ => some call
| .stopped => none

def ActorPhase.callState : ActorPhase → CallState
| .receiving => .waiting
| .joining _ delivery lease decision =>
    .joining delivery lease decision
| .storing _ made => .storing made
| .replying _ result => .replying result
| .stopped => .waiting

/- The calls whose commands the actor has taken. -/
def takenCalls (trace : List Event) : List SettleId :=
  (takenCommands trace).filterMap
    SettlementCommand.settles?

variable {config : Config}

/- The ids of the settle calls are those of their commands. -/
theorem settle_ids
    {trace : List Event} {s : State}
    (hReach : (lts config).Reachable trace s) :
    (sentCommands trace).filterMap
        SettlementCommand.settles? =
      List.range s.calls := by
  induction hReach with
  | initial hInitial =>
      subst hInitial
      rfl
  | @step trace s s' e hReach hStep ih =>
      have hSent :
          sentCommands (trace ++ [e]) =
            sentCommands trace ++ e.sent?.toList := by
        unfold sentCommands
        rw [List.filterMap_append,
          Lists.filterMap_singleton]
      rw [hSent, List.filterMap_append, ih]
      cases hStep with
      | settle =>
          rw [List.range_succ]
          rfl
      | refuse _ _ hOpen hStopped =>
          have hShut := (stopped_of_reachable hReach hStopped).2.1
          rw [hOpen] at hShut
          cases hShut
      | _ => exact List.append_nil _

/- No command of a settle call is taken twice. -/
theorem taken_once
    {trace : List Event} {s : State}
    (hReach : (lts config).Reachable trace s) :
    (takenCalls trace ++
      s.queue.filterMap SettlementCommand.settles?).Nodup := by
  have hRange := settle_ids hReach
  rw [sentCommands_eq hReach, List.filterMap_append] at hRange
  unfold takenCalls
  rw [hRange]
  exact List.nodup_range

theorem takenCalls_append (trace : List Event) (e : Event) :
    takenCalls (trace ++ [e]) =
      takenCalls trace ++
        (e.taken?.bind SettlementCommand.settles?).toList := by
  unfold takenCalls takenCommands
  cases h : e.taken? with
  | none => simp [h]
  | some command =>
      cases hSettles : command.settles? <;>
        simp [h, hSettles]

/- The call the actor is busy with has been taken. -/
theorem taken_of_busy
    {trace : List Event} {s : State}
    (hReach : (lts config).Reachable trace s)
    {call : SettleId}
    (hBusy : s.actor.call? = some call) :
    call ∈ takenCalls trace := by
  induction hReach with
  | initial hInitial =>
      subst hInitial
      cases hBusy
  | @step trace s s' e hReach hStep ih =>
      rw [takenCalls_append]
      cases hStep with
      | takeSettle =>
          cases hBusy
          exact List.mem_append_right _
            (List.mem_singleton.mpr rfl)
      | missSettle =>
          cases hBusy
          exact List.mem_append_right _
            (List.mem_singleton.mpr rfl)
      | store hActor =>
          exact List.mem_append_left _
            (ih (by rw [hActor]; exact hBusy))
      | failDeadline hActor =>
          exact List.mem_append_left _
            (ih (by rw [hActor]; exact hBusy))
      | «return» => cases hBusy
      | reply => cases hBusy
      | stopActor => cases hBusy
      | _ => exact List.mem_append_left _ (ih hBusy)

end Outbox

end Qanat

------------------------------------------------------------
-- Every Call Lives This Life
------------------------------------------------------------

namespace Qanat

namespace Outbox

open Transition
open Router (DeliveryDecision)

/- Where a settle call is after a run. -/
def stateOfCall
    (call : SettleId) (trace : List Event)
    (actor : ActorPhase) : CallState :=
  if actor.call? = some call then
    actor.callState
  else if call ∈ takenCalls trace then
    .answered
  else
    .waiting

theorem stateOfCall_busy
    {call : SettleId} {trace : List Event}
    {actor : ActorPhase}
    (hBusy : actor.call? = some call) :
    stateOfCall call trace actor = actor.callState :=
  if_pos hBusy

theorem stateOfCall_idle
    {call : SettleId} {trace : List Event}
    {actor : ActorPhase}
    (hIdle : actor.call? ≠ some call) :
    stateOfCall call trace actor =
      if call ∈ takenCalls trace then .answered
      else .waiting :=
  if_neg hIdle

/- What is done for another call does not move this one. -/
theorem stateOfCall_other
    {call other : SettleId} {trace : List Event} {e : Event}
    {actor actor' : ActorPhase}
    (hOther : other ≠ call)
    (hTaken :
      e.taken?.bind SettlementCommand.settles? = none ∨
        e.taken?.bind SettlementCommand.settles? = some other)
    (hBefore : actor.call? = none ∨ actor.call? = some other)
    (hAfter :
      actor'.call? = none ∨ actor'.call? = some other) :
    stateOfCall call (trace ++ [e]) actor' =
      stateOfCall call trace actor := by
  have hIdle (phase : ActorPhase)
      (hPhase : phase.call? = none ∨
        phase.call? = some other) :
      phase.call? ≠ some call := by
    rcases hPhase with hPhase | hPhase <;> rw [hPhase]
    · nofun
    · simpa using hOther
  have hSame :
      call ∈ takenCalls (trace ++ [e]) ↔
        call ∈ takenCalls trace := by
    rw [takenCalls_append]
    rcases hTaken with hTaken | hTaken <;> rw [hTaken]
    · simp
    · simp [Ne.symm hOther]
  rw [stateOfCall_idle (hIdle actor hBefore),
    stateOfCall_idle (hIdle actor' hAfter)]
  simp only [hSame]

theorem stateOfCall_append
    {call : SettleId} {trace : List Event} {e : Event}
    {actor : ActorPhase}
    (hTaken :
      e.taken?.bind SettlementCommand.settles? = none) :
    stateOfCall call (trace ++ [e]) actor =
      stateOfCall call trace actor := by
  unfold stateOfCall
  rw [takenCalls_append, hTaken]
  simp

theorem stateOfCall_answered
    {call : SettleId} {trace : List Event}
    {actor : ActorPhase}
    (hTaken : call ∈ takenCalls trace)
    (hIdle : actor.call? ≠ some call) :
    stateOfCall call trace actor = .answered := by
  rw [stateOfCall_idle hIdle, if_pos hTaken]

theorem stateOfCall_waiting
    {call : SettleId} {trace : List Event}
    {actor : ActorPhase}
    (hFresh : call ∉ takenCalls trace)
    (hIdle : actor.call? ≠ some call) :
    stateOfCall call trace actor = .waiting := by
  rw [stateOfCall_idle hIdle, if_neg hFresh]

theorem Event.ofCall_self
    {call : SettleId} {e : Event}
    (hServes : e.serves? = some call) :
    e.ofCall call = some e :=
  if_pos hServes

theorem Event.ofCall_other
    {call other : SettleId} {e : Event}
    (hServes : e.serves? = some other)
    (hOther : other ≠ call) :
    e.ofCall call = none := by
  apply if_neg
  rw [hServes]
  simpa using hOther

variable {config : Config}

/- A command in the queue has not been taken. -/
theorem fresh_of_queued
    {trace : List Event} {s : State}
    (hReach : (lts config).Reachable trace s)
    {call : SettleId} {delivery : DeliveryId}
    {decision : DeliveryDecision}
    {rest : List SettlementCommand}
    (hQueue :
      s.queue = .settle call delivery decision :: rest) :
    call ∉ takenCalls trace := by
  intro hMem
  have hOnce := taken_once hReach
  rw [hQueue, List.nodup_append] at hOnce
  exact hOnce.2.2 call hMem call
    (by simp [SettlementCommand.settles?]) rfl

/- The call that is answered next has been taken. -/
theorem stateOfCall_replied
    {trace : List Event} {s : State}
    (hReach : (lts config).Reachable trace s)
    {call : SettleId} {result : Except BusError Unit}
    (hBusy : s.actor.call? = some call) :
    stateOfCall call (trace ++ [.replied call result])
      .receiving = .answered := by
  refine stateOfCall_answered ?_
    (by simp [ActorPhase.call?])
  rw [takenCalls_append]
  exact List.mem_append_left _ (taken_of_busy hReach hBusy)

/- Each settle call by itself goes through the life of a call. -/
theorem settlement_of_call
    {trace : List Event} {s : State}
    (hReach : (lts config).Reachable trace s)
    (call : SettleId) :
    (callLts config call).Reachable
      (trace.filterMap (Event.ofCall call))
      (stateOfCall call trace s.actor) := by
  have hRun := hReach.simulate (N := callLts config call)
    (Event.ofCall call)
    (fun trace s t => t = stateOfCall call trace s.actor)
    ?initial ?step
  case initial =>
    rintro s rfl
    exact ⟨.waiting, rfl, rfl⟩
  case step =>
    rintro trace s e s' t hBefore rfl hStep
    refine ⟨_, rfl, ?_⟩
    cases hStep with
    | @takeSettle c delivery decision lease rest hActor hQueue
        hFound =>
        have hIdle : s.actor.call? = none := by
          rw [hActor]
          rfl
        by_cases hCall : c = call
        · subst hCall
          rw [Event.ofCall_self rfl,
            stateOfCall_waiting (fresh_of_queued hBefore hQueue)
              (by rw [hIdle]; nofun),
            stateOfCall_busy rfl]
          exact CallStep.take
        · rw [Event.ofCall_other rfl hCall]
          exact stateOfCall_other hCall (Or.inr rfl)
            (Or.inl hIdle) (Or.inr rfl)
    | @missSettle c delivery decision rest hActor hQueue
        hFound =>
        have hIdle : s.actor.call? = none := by
          rw [hActor]
          rfl
        by_cases hCall : c = call
        · subst hCall
          rw [Event.ofCall_self rfl,
            stateOfCall_waiting (fresh_of_queued hBefore hQueue)
              (by rw [hIdle]; nofun),
            stateOfCall_busy rfl]
          exact CallStep.miss
        · rw [Event.ofCall_other rfl hCall]
          exact stateOfCall_other hCall (Or.inr rfl)
            (Or.inl hIdle) (Or.inr rfl)
    | @store c delivery lease decision now made hActor _ hNow
        hMade =>
        by_cases hCall : c = call
        · subst hCall
          rw [Event.ofCall_self rfl, hActor,
            stateOfCall_busy rfl, stateOfCall_busy rfl]
          exact CallStep.store hNow hMade
        · rw [Event.ofCall_other rfl hCall, hActor]
          exact stateOfCall_other hCall (Or.inl rfl)
            (Or.inr rfl) (Or.inr rfl)
    | @failDeadline c delivery lease decision now error hActor
        _ hNow hFailed =>
        by_cases hCall : c = call
        · subst hCall
          rw [Event.ofCall_self rfl, hActor,
            stateOfCall_busy rfl, stateOfCall_busy rfl]
          exact CallStep.failDeadline hNow hFailed
        · rw [Event.ofCall_other rfl hCall, hActor]
          exact stateOfCall_other hCall (Or.inl rfl)
            (Or.inr rfl) (Or.inr rfl)
    | @«return» c made result hActor =>
        have hBusy : s.actor.call? = some c := by
          rw [hActor]
          rfl
        by_cases hCall : c = call
        · subst hCall
          rw [Event.ofCall_self rfl, stateOfCall_busy hBusy,
            stateOfCall_replied hBefore hBusy, hActor]
          exact CallStep.return
        · rw [Event.ofCall_other rfl hCall]
          exact stateOfCall_other hCall (Or.inl rfl)
            (Or.inr hBusy) (Or.inl rfl)
    | @reply c result hActor =>
        have hBusy : s.actor.call? = some c := by
          rw [hActor]
          rfl
        by_cases hCall : c = call
        · subst hCall
          rw [Event.ofCall_self rfl, stateOfCall_busy hBusy,
            stateOfCall_replied hBefore hBusy, hActor]
          exact CallStep.reply
        · rw [Event.ofCall_other rfl hCall]
          exact stateOfCall_other hCall (Or.inl rfl)
            (Or.inr hBusy) (Or.inl rfl)
    | stopActor hActor =>
        rw [hActor]
        exact stateOfCall_append rfl
    | _ => exact stateOfCall_append rfl
  rcases hRun with ⟨t, hCall, rfl⟩
  exact hCall

end Outbox

end Qanat

------------------------------------------------------------
-- What a Settle Call Has Done
------------------------------------------------------------

namespace Qanat

namespace Outbox

open Transition
open Router (DeliveryDecision)

/- The calls of the store that a settle call has made. -/
def Event.storeCall? (call : SettleId) :
    Event → Option StoreCall
| .stored call' _ made =>
    if call' = call then some made else none
| _ => none

/- The replies to a settle call. -/
def Event.reply? (call : SettleId) :
    Event → Option (Except BusError Unit)
| .replied call' result =>
    if call' = call then some result else none
| .settleRefused call' _ _ error =>
    if call' = call then some (.error error) else none
| _ => none

def storeCalls (call : SettleId) (trace : List Event) :
    List StoreCall :=
  trace.filterMap (Event.storeCall? call)

def replies (call : SettleId) (trace : List Event) :
    List (Except BusError Unit) :=
  trace.filterMap (Event.reply? call)

@[simp]
theorem storeCalls_cons
    (call : SettleId) (e : Event) (trace : List Event) :
    storeCalls call (e :: trace) =
      (e.storeCall? call).toList ++ storeCalls call trace := by
  cases h : e.storeCall? call <;> simp [storeCalls, h]

@[simp]
theorem replies_cons
    (call : SettleId) (e : Event) (trace : List Event) :
    replies call (e :: trace) =
      (e.reply? call).toList ++ replies call trace := by
  cases h : e.reply? call <;> simp [replies, h]

@[simp]
theorem storeCalls_nil (call : SettleId) :
    storeCalls call [] = [] :=
  rfl

@[simp]
theorem replies_nil (call : SettleId) :
    replies call [] = [] :=
  rfl

/-
  The calls of the store and the replies of a settle call
  that finds `found`.
-/
inductive Served
    (config : Config) (delivery : DeliveryId)
    (decision : DeliveryDecision) :
    Option LeaseKey → List StoreCall →
      List (Except BusError Unit) → Prop where
| unanswered {found : Option LeaseKey} :
    Served config delivery decision found [] []
| missed :
    Served config delivery decision none []
      [.error (notPending delivery)]
| storing
    {lease : LeaseKey} {now : Time} {made : StoreCall} :
    now ≤ config.maxTime →
    settleRecord config lease decision now = .ok made →
    Served config delivery decision (some lease) [made] []
| stored
    {lease : LeaseKey} {now : Time} {made : StoreCall}
    {result : Except String Unit} :
    now ≤ config.maxTime →
    settleRecord config lease decision now = .ok made →
    Served config delivery decision (some lease) [made]
      [settleResult made result]
| late
    {lease : LeaseKey} {now : Time} {error : BusError} :
    now ≤ config.maxTime →
    settleRecord config lease decision now = .error error →
    Served config delivery decision (some lease) []
      [.error error]

/- The traces of one settle call, by where it is. -/
inductive CallLife (config : Config) (call : SettleId) :
    CallState → List Event → Prop where
| waiting : CallLife config call .waiting []
| joining
    {delivery : DeliveryId} {decision : DeliveryDecision}
    {lease : LeaseKey} :
    CallLife config call (.joining delivery lease decision)
      [.settleTaken call delivery decision (some lease)]
| missing
    {delivery : DeliveryId} {decision : DeliveryDecision} :
    CallLife config call
      (.replying (.error (notPending delivery)))
      [.settleTaken call delivery decision none]
| missed
    {delivery : DeliveryId} {decision : DeliveryDecision} :
    CallLife config call .answered
      [.settleTaken call delivery decision none,
        .replied call (.error (notPending delivery))]
| storing
    {delivery : DeliveryId} {decision : DeliveryDecision}
    {lease : LeaseKey} {now : Time} {made : StoreCall} :
    now ≤ config.maxTime →
    settleRecord config lease decision now = .ok made →
    CallLife config call (.storing made)
      [.settleTaken call delivery decision (some lease),
        .stored call delivery made]
| stored
    {delivery : DeliveryId} {decision : DeliveryDecision}
    {lease : LeaseKey} {now : Time} {made : StoreCall}
    {result : Except String Unit} :
    now ≤ config.maxTime →
    settleRecord config lease decision now = .ok made →
    CallLife config call .answered
      [.settleTaken call delivery decision (some lease),
        .stored call delivery made,
        .replied call (settleResult made result)]
| failing
    {delivery : DeliveryId} {decision : DeliveryDecision}
    {lease : LeaseKey} {now : Time} {error : BusError} :
    now ≤ config.maxTime →
    settleRecord config lease decision now = .error error →
    CallLife config call (.replying (.error error))
      [.settleTaken call delivery decision (some lease),
        .deadlineFailed call now]
| failed
    {delivery : DeliveryId} {decision : DeliveryDecision}
    {lease : LeaseKey} {now : Time} {error : BusError} :
    now ≤ config.maxTime →
    settleRecord config lease decision now = .error error →
    CallLife config call .answered
      [.settleTaken call delivery decision (some lease),
        .deadlineFailed call now,
        .replied call (.error error)]

variable {config : Config}

theorem life_of_call
    {call : SettleId} {trace : List Event} {t : CallState}
    (hReach : (callLts config call).Reachable trace t) :
    CallLife config call t trace := by
  induction hReach with
  | initial hInitial =>
      subst hInitial
      exact .waiting
  | @step trace t t' e hReach hStep ih =>
      cases hStep with
      | take =>
          cases ih
          exact .joining
      | miss =>
          cases ih
          exact .missing
      | store hNow hMade =>
          cases ih
          exact .storing hNow hMade
      | failDeadline hNow hFailed =>
          cases ih
          exact .failing hNow hFailed
      | «return» =>
          cases ih with
          | storing hNow hMade => exact .stored hNow hMade
      | reply =>
          cases ih with
          | missing => exact .missed
          | failing hNow hFailed => exact .failed hNow hFailed

theorem storeCalls_ofCall
    (call : SettleId) (trace : List Event) :
    storeCalls call
        (trace.filterMap (Event.ofCall call)) =
      storeCalls call trace := by
  unfold storeCalls
  rw [List.filterMap_filterMap]
  congr 1
  funext e
  cases e with
  | stored call' _ _ =>
      by_cases hCall : call' = call <;>
        simp [Event.ofCall, Event.serves?, Event.storeCall?,
          hCall]
  | _ =>
      unfold Event.ofCall
      split <;> rfl

/- No settle call finds the actor stopped. -/
theorem not_refused
    {trace : List Event} {s : State}
    (hReach : (lts config).Reachable trace s)
    (call : SettleId) (delivery : DeliveryId)
    (decision : DeliveryDecision) (error : BusError) :
    Event.settleRefused call delivery decision error ∉
      trace := by
  intro hMem
  rcases hReach.step_of_mem hMem with
    ⟨_, _, r, r', _, hBefore, hStep⟩
  cases hStep with
  | refuse _ _ hOpen hStopped =>
      have hShut := (stopped_of_reachable hBefore hStopped).2.1
      rw [hOpen] at hShut
      cases hShut

theorem replies_ofCall
    {trace : List Event} {s : State}
    (hReach : (lts config).Reachable trace s)
    (call : SettleId) :
    replies call (trace.filterMap (Event.ofCall call)) =
      replies call trace := by
  unfold replies
  rw [List.filterMap_filterMap]
  apply List.filterMap_congr
  intro e hMem
  cases e with
  | replied call' _ =>
      by_cases hCall : call' = call <;>
        simp [Event.ofCall, Event.serves?, Event.reply?,
          hCall]
  | settleRefused _ _ _ _ =>
      exact absurd hMem (not_refused hReach _ _ _ _)
  | _ =>
      unfold Event.ofCall
      split <;> rfl

/-
  A call whose command is taken is served as it finds its
  lease.
-/
theorem served_of_taken
    {trace : List Event} {s : State}
    (hReach : (lts config).Reachable trace s)
    {call : SettleId} {delivery : DeliveryId}
    {decision : DeliveryDecision} {found : Option LeaseKey}
    (hTaken :
      Event.settleTaken call delivery decision found ∈
        trace) :
    Served config delivery decision found
      (storeCalls call trace) (replies call trace) := by
  have hLife := life_of_call (settlement_of_call hReach call)
  rw [← storeCalls_ofCall, ← replies_ofCall hReach]
  have hMem :
      Event.settleTaken call delivery decision found ∈
        trace.filterMap (Event.ofCall call) :=
    List.mem_filterMap.mpr
      ⟨_, hTaken, Event.ofCall_self rfl⟩
  generalize trace.filterMap (Event.ofCall call) = history
    at hLife hMem
  generalize stateOfCall call trace s.actor = t at hLife
  cases hLife with
  | waiting => cases hMem
  | joining =>
      simp only [List.mem_cons, Event.settleTaken.injEq,
        true_and, List.not_mem_nil, or_false] at hMem
      rcases hMem with ⟨rfl, rfl, rfl⟩
      exact .unanswered
  | missing =>
      simp only [List.mem_cons, Event.settleTaken.injEq,
        true_and, List.not_mem_nil, or_false] at hMem
      rcases hMem with ⟨rfl, rfl, rfl⟩
      exact .unanswered
  | missed =>
      simp only [List.mem_cons, Event.settleTaken.injEq,
        true_and, reduceCtorEq, List.not_mem_nil,
        or_false] at hMem
      rcases hMem with ⟨rfl, rfl, rfl⟩
      simpa [Event.storeCall?, Event.reply?] using Served.missed
  | storing hNow hMade =>
      simp only [List.mem_cons, Event.settleTaken.injEq,
        true_and, reduceCtorEq, List.not_mem_nil,
        or_false] at hMem
      rcases hMem with ⟨rfl, rfl, rfl⟩
      simpa [Event.storeCall?, Event.reply?] using
        Served.storing hNow hMade
  | stored hNow hMade =>
      simp only [List.mem_cons, Event.settleTaken.injEq,
        true_and, reduceCtorEq, List.not_mem_nil,
        or_false] at hMem
      rcases hMem with ⟨rfl, rfl, rfl⟩
      simpa [Event.storeCall?, Event.reply?] using
        Served.stored hNow hMade
  | failing hNow hFailed =>
      simp only [List.mem_cons, Event.settleTaken.injEq,
        true_and, reduceCtorEq, List.not_mem_nil,
        or_false] at hMem
      rcases hMem with ⟨rfl, rfl, rfl⟩
      exact .unanswered
  | failed hNow hFailed =>
      simp only [List.mem_cons, Event.settleTaken.injEq,
        true_and, reduceCtorEq, List.not_mem_nil,
        or_false] at hMem
      rcases hMem with ⟨rfl, rfl, rfl⟩
      simpa [Event.storeCall?, Event.reply?] using
        Served.late hNow hFailed

/- A call of the store follows the find of its lease. -/
theorem taken_of_stored
    {trace : List Event} {s : State}
    (hReach : (lts config).Reachable trace s)
    {call : SettleId} {delivery : DeliveryId}
    {made : StoreCall}
    (hStored : Event.stored call delivery made ∈ trace) :
    ∃ decision,
      Event.settleTaken call delivery decision
        (some made.lease) ∈ trace := by
  have hLife := life_of_call (settlement_of_call hReach call)
  have hMem :
      Event.stored call delivery made ∈
        trace.filterMap (Event.ofCall call) :=
    List.mem_filterMap.mpr
      ⟨_, hStored, Event.ofCall_self rfl⟩
  have hBack (e : Event)
      (hIn : e ∈ trace.filterMap (Event.ofCall call)) :
      e ∈ trace := by
    rcases List.mem_filterMap.mp hIn with ⟨e', hTrace, hSame⟩
    unfold Event.ofCall at hSame
    split at hSame
    · cases hSame
      exact hTrace
    · cases hSame
  generalize trace.filterMap (Event.ofCall call) = history
    at hLife hMem hBack
  generalize stateOfCall call trace s.actor = t at hLife
  cases hLife with
  | @storing _ decision _ _ _ _ hMade =>
      simp only [List.mem_cons, reduceCtorEq,
        Event.stored.injEq, true_and, List.not_mem_nil,
        or_false, false_or] at hMem
      rcases hMem with ⟨rfl, rfl⟩
      rw [settleRecord_lease hMade]
      exact ⟨decision, hBack _ (by simp)⟩
  | @stored _ decision _ _ _ _ _ hMade =>
      simp only [List.mem_cons, reduceCtorEq,
        Event.stored.injEq, true_and, List.not_mem_nil,
        or_false, false_or] at hMem
      rcases hMem with ⟨rfl, rfl⟩
      rw [settleRecord_lease hMade]
      exact ⟨decision, hBack _ (by simp)⟩
  | _ => simp at hMem

/- Nothing is done for a call before its command is taken. -/
theorem unserved_of_not_taken
    {trace : List Event} {s : State}
    (hReach : (lts config).Reachable trace s)
    {call : SettleId}
    (hTaken : call ∉ takenCalls trace) :
    storeCalls call trace = [] ∧ replies call trace = [] := by
  have hLife := life_of_call (settlement_of_call hReach call)
  have hIdle : s.actor.call? ≠ some call := by
    intro hBusy
    exact hTaken (taken_of_busy hReach hBusy)
  rw [stateOfCall_waiting hTaken hIdle] at hLife
  rw [← storeCalls_ofCall, ← replies_ofCall hReach]
  generalize trace.filterMap (Event.ofCall call) = history
    at hLife
  cases hLife
  exact ⟨rfl, rfl⟩

/- A call that the actor has done with has one reply. -/
theorem answered_of_idle
    {trace : List Event} {s : State}
    (hReach : (lts config).Reachable trace s)
    {call : SettleId}
    (hTaken : call ∈ takenCalls trace)
    (hIdle : s.actor.call? ≠ some call) :
    ∃ result, replies call trace = [result] := by
  have hLife := life_of_call (settlement_of_call hReach call)
  rw [stateOfCall_answered hTaken hIdle] at hLife
  rw [← replies_ofCall hReach]
  generalize trace.filterMap (Event.ofCall call) = history
    at hLife
  cases hLife with
  | missed => simp [Event.reply?]
  | stored => simp [Event.reply?]
  | failed => simp [Event.reply?]

end Outbox

end Qanat
