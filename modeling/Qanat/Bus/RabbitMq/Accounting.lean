import Qanat.Bus.RabbitMq.Settlement
import Qanat.Library.Progress

/-
  The accounts of the deliveries of a RabbitMQ bus.

  Main declarations:
    * `Event.Serves`, `exists_completion`
    * `Account`, `Accounts`
    * `settlement_accounting`
-/

------------------------------------------------------------
-- Completion
------------------------------------------------------------

namespace Qanat

namespace Bus

namespace RabbitMq

namespace Deliveries

open Transition
open Router (DeliveryDecision)

variable {trace : List Event} {s : State}

/- What the actor does by itself. -/
def Event.Serves : Event → Prop
| .registered _ _ => True
| .settleTaken _ _ _ _ => True
| .performed _ _ _ => True
| .replied _ _ => True
| _ => False

/- The actor stops after everybody who could send. -/
theorem stopped_of_reachable
    (hReach : lts.Reachable trace s)
    (hStopped : s.actor = .stopped) :
    s.queue = [] ∧ s.busOpen = false ∧
      ∀ stream, s.streams stream = .absent ∨
        s.streams stream = .dropped := by
  induction hReach with
  | initial hInitial =>
      subst hInitial
      cases hStopped
  | @step trace s s' e hReach hStep ih =>
      cases hStep with
      | subscribe hOpen =>
          rw [(ih hStopped).2.1] at hOpen
          cases hOpen
      | @fetch stream _ _ _ _ hPhase =>
          have hGone := (ih hStopped).2.2 stream
          rw [hPhase] at hGone
          rcases hGone with h | h <;> cases h
      | register _ hActor => exact absurd hStopped hActor
      | @failRegister stream _ _ _ hPhase =>
          have hGone := (ih hStopped).2.2 stream
          rw [hPhase] at hGone
          rcases hGone with h | h <;> cases h
      | @«yield» stream _ _ hPhase =>
          have hGone := (ih hStopped).2.2 stream
          rw [hPhase] at hGone
          rcases hGone with h | h <;> cases h
      | exhaust => exact ih hStopped
      | @dropStream stream hPhase =>
          have hGone := (ih hStopped).2.2 stream
          rw [hPhase] at hGone
          rcases hGone with h | h <;> cases h
      | takeRegister hActor =>
          exact absurd (hActor.symm.trans hStopped) nofun
      | settle _ _ _ hActor => exact absurd hStopped hActor
      | refuse => exact ih hStopped
      | dropBus =>
          exact ⟨(ih hStopped).1, rfl, (ih hStopped).2.2⟩
      | stopActor _ hQueue hClosed hGone =>
          exact ⟨hQueue, hClosed, hGone⟩
      | takeSettle => cases hStopped
      | missSettle => cases hStopped
      | perform => cases hStopped
      | «return» => cases hStopped
      | reply => cases hStopped

/- No settle call finds the actor stopped. -/
theorem not_refused
    (hReach : lts.Reachable trace s)
    (call : SettleId) (delivery : DeliveryId)
    (decision : DeliveryDecision) (error : BusError) :
    Event.settleRefused call delivery decision error ∉
      trace := by
  intro hMem
  rcases hReach.step_of_mem hMem with
    ⟨_, _, r, r', _, hBefore, hStep⟩
  cases hStep with
  | refuse _ _ hOpen hStopped =>
      have hShut := (stopped_of_reachable hBefore hStopped).2.1
      rw [hOpen] at hShut
      cases hShut

/- With an idle actor and nothing to take nobody waits. -/
theorem replied_of_called
    (hReach : lts.Reachable trace s)
    (hIdle : s.actor.call? = none)
    (hQueue : s.queue = [])
    {call : SettleId} {delivery : DeliveryId}
    {decision : DeliveryDecision}
    (hCalled :
      Event.settleCalled call delivery decision ∈ trace) :
    ∃ result, Event.replied call result ∈ trace := by
  have hCommand :
      SettlementCommand.settle call delivery decision ∈
        trace.filterMap Event.taken? := by
    have hFifo := commands_fifo hReach
    rw [hQueue, List.append_nil] at hFifo
    rw [← hFifo]
    exact List.mem_filterMap.mpr ⟨_, hCalled, rfl⟩
  rcases List.mem_filterMap.mp hCommand with
    ⟨e, hMem, hTaken⟩
  have hReply : call ∈ trace.filterMap Event.repliedCall? := by
    have hFifo := replies_fifo hReach
    rw [hIdle, Option.toList_none, List.append_nil] at hFifo
    rw [← hFifo]
    cases e with
    | settleTaken =>
        cases hTaken
        exact List.mem_filterMap.mpr ⟨_, hMem, rfl⟩
    | _ => cases hTaken
  rcases List.mem_filterMap.mp hReply with ⟨e', hMem', hCall⟩
  cases e' with
  | replied _ result =>
      cases hCall
      exact ⟨result, hMem'⟩
  | _ => cases hCall

end Deliveries

end RabbitMq

end Bus

end Qanat

------------------------------------------------------------
-- The Accounts
------------------------------------------------------------

namespace Qanat

namespace Bus

namespace RabbitMq

namespace Deliveries

open Transition
open Router (DeliveryDecision)

variable {trace : List Event} {s : State}

/-
  What a settle call that is made after `earlier` comes to:
  the first for a registered id settles its acker, a later
  one and one for an unknown id fail.
-/
structure Account
    (earlier trace : List Event) (call : SettleId)
    (delivery : DeliveryId) (decision : DeliveryDecision) :
    Prop where
  first : ∀ stream acker,
    Event.registering stream delivery acker ∈ earlier →
    (∀ call' decision',
      ¬ Precedes (.registering stream delivery acker)
        (.settleCalled call' delivery decision') earlier) →
    Served trace call delivery decision (some acker)
  later : ∀ stream acker call' decision',
    Precedes (.registering stream delivery acker)
      (.settleCalled call' delivery decision') earlier →
    Served trace call delivery decision none
  unknown :
    (∀ stream acker,
      Event.registering stream delivery acker ∉ earlier) →
    Served trace call delivery decision none

theorem account_of_called
    {called called' : List Event}
    (hReach : lts.Reachable trace s)
    {call : SettleId} {delivery : DeliveryId}
    {decision : DeliveryDecision}
    (hCalled :
      trace =
        called ++
          .settleCalled call delivery decision :: called') :
    Account called trace call delivery decision := by
  have hServed := served_of_called hReach hCalled
  have hLookup := lookup_eq_some_iff
    (hCalled ▸ hReach) delivery
  constructor
  case first =>
    intro stream acker hSent hFirst
    rwa [(hLookup acker).mpr ⟨stream, hSent, hFirst⟩]
      at hServed
  case later =>
    intro stream acker call' decision' hOrder
    have hNone :
        Desk.lookup delivery (sentCommands called) = none := by
      rw [Option.eq_none_iff_forall_ne_some]
      intro acker' hFound
      rcases (hLookup acker').mp hFound with
        ⟨stream', hSent, hFirst⟩
      have hIn : ∀ {e}, e ∈ called → e ∈ trace := by
        intro e hMem
        rw [hCalled]
        exact List.mem_append_left _ hMem
      have hNumbered := numbered_of_reachable hReach
      rcases hNumbered.registered _ _ _ (hIn hSent) with
        ⟨_, hFetched⟩
      rcases hNumbered.registered _ _ _
        (hIn hOrder.mem_left) with ⟨_, hFetched'⟩
      rcases fetched_unique hReach hFetched hFetched' with
        ⟨rfl, _, rfl⟩
      exact hFirst _ _ hOrder
    rwa [hNone] at hServed
  case unknown =>
    intro hUnknown
    have hNone :
        Desk.lookup delivery (sentCommands called) = none := by
      rw [Option.eq_none_iff_forall_ne_some]
      intro acker hFound
      rcases (hLookup acker).mp hFound with ⟨stream, hSent, _⟩
      exact hUnknown stream acker hSent
    rwa [hNone] at hServed

/-
  The accounts of a run.  Ids and ackers are fresh; what is
  yielded has been registered, with the acker it came with;
  each settle call comes to its account, has one operation at
  most and one reply, which it can be given.
-/
structure Accounts (trace : List Event) (s : State) :
    Prop where
  fresh :
    ((fetches trace).map Prod.fst).Nodup ∧
      ((fetches trace).map Prod.snd).Nodup
  yieldedOnce : (yields trace).Nodup
  registered : ∀ earlier later stream delivery message,
    trace =
        earlier ++ .yielded stream delivery message :: later →
      message.envelope.id = UInt64.ofNat delivery ∧
        ∃ acker,
          Event.fetched stream delivery message acker ∈
            earlier ∧
            Event.registering stream delivery acker ∈ earlier
  accounts : ∀ earlier later call delivery decision,
    trace =
        earlier ++
          .settleCalled call delivery decision :: later →
      Account earlier trace call delivery decision
  performed : ∀ call acker done,
    Event.performed call acker done ∈ trace →
      ∃ delivery decision,
        Event.settleCalled call delivery decision ∈ trace
  once :
    (trace.filterMap Event.performedCall?).Nodup ∧
      (trace.filterMap Event.repliedCall?).Nodup
  refused : ∀ call delivery decision error,
    Event.settleRefused call delivery decision error ∉ trace
  completion :
    ∃ more s', lts.Continues Event.Serves s more s' ∧
      ∀ call delivery decision,
        Event.settleCalled call delivery decision ∈ trace →
          ∃ result,
            Event.replied call result ∈ trace ++ more

def samplePublished : Published where
  routingKey := "orders.created"
  properties :=
    { contentType := none, messageId := none, headers := none }
  data := []

/- Its delivery under an id. -/
def sampleMessage (delivery : DeliveryId) : RawMessage :=
  deliveryToRaw FiniteMap.Iteration.identity "m"
    samplePublished false (UInt64.ofNat delivery)

/- Two streams, whose deliveries are registered out of order. -/
def sampleYields : List Event :=
  [.subscribed 0,
    .subscribed 1,
    .fetched 0 1 (sampleMessage 1) 0,
    .fetched 1 2 (sampleMessage 2) 1,
    .registering 1 2 1,
    .registering 0 1 0,
    .yielded 0 1 (sampleMessage 1),
    .yielded 1 2 (sampleMessage 2)]

/- One delivery settled twice, the other once, one unknown. -/
def sampleSettles : List Event :=
  [.settleCalled 0 2 .reject,
    .settleCalled 1 2 .ack,
    .settleCalled 2 1 .retry,
    .settleCalled 3 9 .ack,
    .registered 2 1,
    .registered 1 0,
    .settleTaken 0 2 .reject (some 1),
    .performed 0 1 (.nack false),
    .replied 0 (.ok ()),
    .settleTaken 1 2 .ack none,
    .replied 1 (.error (notPending 2)),
    .settleTaken 2 1 .retry (some 0),
    .performed 2 0 (.nack true),
    .replied 2 (.ok ()),
    .settleTaken 3 9 .ack none,
    .replied 3 (.error (notPending 9))]

theorem sample_reachable :
    ∃ s, lts.Reachable (sampleYields ++ sampleSettles) s := by
  have h : lts.Reachable [] State.start := .initial rfl
  have h := h.step (Step.subscribe rfl)
  have h := h.step (Step.subscribe rfl)
  have h := h.step (@Step.fetch _ 0
    FiniteMap.Iteration.identity "m" samplePublished false rfl)
  have h := h.step (@Step.fetch _ 1
    FiniteMap.Iteration.identity "m" samplePublished false rfl)
  have h := h.step (@Step.register _ 1 _ _ _ rfl nofun)
  have h := h.step (@Step.register _ 0 _ _ _ rfl nofun)
  have h := h.step (@Step.yield _ 0 _ _ rfl)
  have h := h.step (@Step.yield _ 1 _ _ rfl)
  have h := h.step (Step.settle 2 .reject rfl nofun)
  have h := h.step (Step.settle 2 .ack rfl nofun)
  have h := h.step (Step.settle 1 .retry rfl nofun)
  have h := h.step (Step.settle 9 .ack rfl nofun)
  have h := h.step (Step.takeRegister rfl rfl)
  have h := h.step (Step.takeRegister rfl rfl)
  have h := h.step (Step.takeSettle rfl rfl rfl)
  have h := h.step (Step.perform rfl)
  have h := h.step (Step.return (.ok true) rfl)
  have h := h.step (Step.missSettle rfl rfl rfl)
  have h := h.step (Step.reply rfl)
  have h := h.step (Step.takeSettle rfl rfl rfl)
  have h := h.step (Step.perform rfl)
  have h := h.step (Step.return (.ok true) rfl)
  have h := h.step (Step.missSettle rfl rfl rfl)
  have h := h.step (Step.reply rfl)
  exact ⟨_, h⟩

end Deliveries

end RabbitMq

end Bus

end Qanat
