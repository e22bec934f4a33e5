import Qanat.Bus.RabbitMq.Registration
import Qanat.Library.Desk

/-
  The settle calls of a RabbitMQ bus: what each of them finds
  follows from the order in which the commands are sent, and
  what is done for it from what it finds.

  Main declarations:
    * `desk_of_reachable`, `found_eq_lookup`
    * `lookup_eq_some_iff`
    * `Served`, `served_of_called`
-/

------------------------------------------------------------
-- What a Settle Call Finds
------------------------------------------------------------

namespace Qanat

namespace Bus

namespace RabbitMq

namespace Deliveries

open Transition
open Router (DeliveryDecision)

variable {trace : List Event} {s : State}

abbrev DeskCommand := Desk.Command SettleId DeliveryId Acker

/- Ackers are left under their ids and asked for by settling. -/
def SettlementCommand.desk : SettlementCommand → DeskCommand
| .register delivery acker => .register delivery acker
| .settle call delivery _ => .ask call delivery

def Event.desk? :
    Event → Option (Desk.Event SettleId DeliveryId Acker)
| .registering _ delivery acker =>
    some (.sent (.register delivery acker))
| .settleCalled call delivery _ =>
    some (.sent (.ask call delivery))
| .registered delivery acker =>
    some (.registered delivery acker)
| .settleTaken call delivery _ found =>
    some (.asked call delivery found)
| _ => none

/- While the actor runs, its table is that of a desk. -/
theorem desk_of_reachable
    (hReach : lts.Reachable trace s) :
    ∃ t, (Desk.lts SettleId DeliveryId Acker).Reachable
        (trace.filterMap Event.desk?) t ∧
      t.queue = s.queue.map SettlementCommand.desk ∧
        (s.actor ≠ .stopped → t.table = s.ackers) := by
  have hRun := hReach.simulate
    (N := Desk.lts SettleId DeliveryId Acker) Event.desk?
    (fun _ s (t : Desk.State SettleId DeliveryId Acker) =>
      t.queue = s.queue.map SettlementCommand.desk ∧
        (s.actor ≠ .stopped → t.table = s.ackers))
    ?initial ?step
  case initial =>
    rintro s rfl
    exact ⟨_, rfl, rfl, fun _ => rfl⟩
  case step =>
    rintro trace s e s' ⟨queue, table⟩ _ ⟨hQueue, hTable⟩
      hStep
    simp only at hQueue hTable
    subst hQueue
    cases hStep with
    | @register stream delivery message acker =>
        refine ⟨_, ?_, .send (.register delivery acker)⟩
        exact ⟨by simp [State.setStream,
          SettlementCommand.desk], hTable⟩
    | settle delivery decision =>
        refine ⟨_, ?_, .send (.ask s.calls delivery)⟩
        exact ⟨by simp [SettlementCommand.desk], hTable⟩
    | takeRegister hActor hTaken =>
        have hSame := hTable (by simp [hActor])
        subst hSame
        exact ⟨_, ⟨rfl, fun _ => rfl⟩,
          .register (by rw [hTaken]; rfl)⟩
    | @takeSettle call _ _ _ rest hActor hTaken hFound =>
        have hSame := hTable (by simp [hActor])
        subst hSame
        rw [hTaken]
        exact ⟨_, ⟨rfl, fun _ => rfl⟩,
          Desk.step_ask call _ hFound⟩
    | @missSettle call _ _ rest hActor hTaken hFound =>
        have hSame := hTable (by simp [hActor])
        subst hSame
        rw [hTaken]
        exact ⟨_, ⟨rfl, fun _ => rfl⟩,
          Desk.step_miss call _ hFound⟩
    | perform hActor =>
        exact ⟨_, ⟨rfl, fun _ =>
          hTable (by simp [hActor])⟩, rfl⟩
    | «return» _ hActor =>
        exact ⟨_, ⟨rfl, fun _ =>
          hTable (by simp [hActor])⟩, rfl⟩
    | reply hActor =>
        exact ⟨_, ⟨rfl, fun _ =>
          hTable (by simp [hActor])⟩, rfl⟩
    | stopActor =>
        exact ⟨_, ⟨rfl, fun hNot => absurd rfl hNot⟩, rfl⟩
    | _ =>
        refine ⟨_, ?_, rfl⟩
        exact ⟨rfl, hTable⟩
  exact hRun

def Event.sent? : Event → Option SettlementCommand
| .registering _ delivery acker =>
    some (.register delivery acker)
| .settleCalled call delivery decision =>
    some (.settle call delivery decision)
| _ => none

def Event.taken? : Event → Option SettlementCommand
| .registered delivery acker =>
    some (.register delivery acker)
| .settleTaken call delivery decision _ =>
    some (.settle call delivery decision)
| _ => none

/- The actor takes the commands in their order. -/
theorem commands_fifo
    (hReach : lts.Reachable trace s) :
    trace.filterMap Event.sent? =
      trace.filterMap Event.taken? ++ s.queue := by
  apply hReach.fifo Event.sent? Event.taken? State.queue
  · rintro s rfl
    rfl
  · intro trace s e s' _ hStep
    cases hStep with
    | takeRegister _ hQueue =>
        simp [hQueue, Event.sent?, Event.taken?]
    | takeSettle _ hQueue =>
        simp [hQueue, Event.sent?, Event.taken?]
    | missSettle _ hQueue =>
        simp [hQueue, Event.sent?, Event.taken?]
    | _ => simp [Event.sent?, Event.taken?, State.setStream]

/- The commands that have been sent, as the desk sees them. -/
def Event.deskSent? (e : Event) : Option DeskCommand :=
  e.sent?.map SettlementCommand.desk

def sentCommands (trace : List Event) : List DeskCommand :=
  trace.filterMap Event.deskSent?

theorem desk_sent (trace : List Event) :
    (trace.filterMap Event.desk?).filterMap
        Desk.Event.sent? =
      sentCommands trace := by
  unfold sentCommands
  rw [List.filterMap_filterMap]
  congr 1
  funext e
  cases e <;> rfl

theorem registers_sent (trace : List Event) :
    (sentCommands trace).filterMap Desk.Command.registers? =
      registrations trace := by
  unfold sentCommands registrations
  rw [List.filterMap_filterMap]
  congr 1
  funext e
  cases e <;> rfl

theorem register_mem_iff
    {delivery : DeliveryId} {acker : Acker} :
    Desk.Command.register delivery acker ∈
        sentCommands trace ↔
      ∃ stream,
        Event.registering stream delivery acker ∈ trace := by
  unfold sentCommands
  rw [List.mem_filterMap]
  constructor
  · rintro ⟨e, hMem, hSent⟩
    cases e with
    | registering stream _ _ =>
        cases hSent
        exact ⟨stream, hMem⟩
    | _ => cases hSent
  · rintro ⟨stream, hMem⟩
    exact ⟨_, hMem, rfl⟩

/- The settle calls whose commands have been sent. -/
def Event.called? : Event → Option SettleId
| .settleCalled call _ _ => some call
| _ => none

theorem clients_sent (trace : List Event) :
    (sentCommands trace).filterMap Desk.Command.client? =
      trace.filterMap Event.called? := by
  unfold sentCommands
  rw [List.filterMap_filterMap]
  congr 1
  funext e
  cases e <;> rfl

/- Settle calls are numbered in their order. -/
theorem called_once
    (hReach : lts.Reachable trace s) :
    (trace.filterMap Event.called?).Nodup ∧
      ∀ call ∈ trace.filterMap Event.called?,
        call < s.calls := by
  induction hReach with
  | initial => exact ⟨List.nodup_nil, nofun⟩
  | @step trace s s' e hReach hStep ih =>
      rw [List.filterMap_append, Lists.filterMap_singleton]
      -- most steps neither call nor count calls
      have hKept (r : State) (hSame : r.calls = s.calls) :
          (trace.filterMap Event.called? ++ []).Nodup ∧
            ∀ call ∈ trace.filterMap Event.called? ++ [],
              call < r.calls := by
        rw [List.append_nil, hSame]
        exact ih
      cases hStep with
      | settle =>
          have hFresh :
              s.calls ∉ trace.filterMap Event.called? :=
            fun hMem => Nat.lt_irrefl _ (ih.2 _ hMem)
          have hOnce := (List.nodup_concat _ s.calls).mpr
            ⟨hFresh, ih.1⟩
          refine ⟨by simpa [Event.called?] using hOnce, ?_⟩
          intro call hMem
          rcases List.mem_append.mp hMem with hOld | hNew
          · exact Nat.lt_succ_of_lt (ih.2 _ hOld)
          · rw [List.mem_singleton.mp hNew]
            exact Nat.lt_succ_self _
      | refuse =>
          refine ⟨by simpa [Event.called?] using ih.1, ?_⟩
          intro call hMem
          have hOld :
              call ∈ trace.filterMap Event.called? := by
            simpa [Event.called?] using hMem
          exact Nat.lt_succ_of_lt (ih.2 _ hOld)
      | _ => exact hKept _ rfl

/- A settle call is made for one id with one decision. -/
theorem called_unique
    (hReach : lts.Reachable trace s)
    {call : SettleId} {delivery delivery' : DeliveryId}
    {decision decision' : DeliveryDecision}
    (hCalled :
      Event.settleCalled call delivery decision ∈ trace)
    (hCalled' :
      Event.settleCalled call delivery' decision' ∈ trace) :
    delivery = delivery' ∧ decision = decision' := by
  rcases List.mem_iff_append.mp hCalled with
    ⟨before, after, hTrace⟩
  rcases List.mem_iff_append.mp hCalled' with
    ⟨before', after', hTrace'⟩
  have hOnce := (called_once hReach).1
  rw [hTrace] at hOnce
  have hSplit := hTrace.symm.trans hTrace'
  rcases Lists.eq_of_split hOnce hSplit rfl rfl with
    ⟨_, hSame, _⟩
  cases hSame
  exact ⟨rfl, rfl⟩

/- What the actor takes has been sent. -/
theorem called_of_taken
    (hReach : lts.Reachable trace s)
    {call : SettleId} {delivery : DeliveryId}
    {decision : DeliveryDecision} {found : Option Acker}
    (hTaken :
      Event.settleTaken call delivery decision found ∈
        trace) :
    Event.settleCalled call delivery decision ∈ trace := by
  have hSent :
      SettlementCommand.settle call delivery decision ∈
        trace.filterMap Event.sent? := by
    rw [commands_fifo hReach]
    exact List.mem_append_left _
      (List.mem_filterMap.mpr ⟨_, hTaken, rfl⟩)
  rcases List.mem_filterMap.mp hSent with ⟨e, hMem, hCommand⟩
  cases e with
  | settleCalled =>
      cases hCommand
      exact hMem
  | _ => cases hCommand

/-
  What a settle call finds is what the commands sent before
  it have left under the id.
-/
theorem found_eq_lookup
    {called called' : List Event}
    (hReach : lts.Reachable trace s)
    {call : SettleId} {delivery delivery' : DeliveryId}
    {decision decision' : DeliveryDecision}
    {found : Option Acker}
    (hCalled :
      trace =
        called ++
          .settleCalled call delivery decision :: called')
    (hTaken :
      Event.settleTaken call delivery' decision' found ∈
        trace) :
    delivery' = delivery ∧ decision' = decision ∧
      found = Desk.lookup delivery (sentCommands called) := by
  rcases desk_of_reachable hReach with ⟨t, hDesk, _⟩
  rcases List.mem_iff_append.mp hTaken with
    ⟨taken, taken', hSplit⟩
  have hClients :
      (((trace.filterMap Event.desk?).filterMap
        Desk.Event.sent?).filterMap
          Desk.Command.client?).Nodup := by
    rw [desk_sent, clients_sent]
    exact (called_once hReach).1
  have hSent :
      trace.filterMap Event.desk? =
        called.filterMap Event.desk? ++
          .sent (.ask call delivery) ::
            called'.filterMap Event.desk? := by
    rw [hCalled, List.filterMap_append]
    rfl
  have hAsked :
      trace.filterMap Event.desk? =
        taken.filterMap Event.desk? ++
          .asked call delivery' found ::
            taken'.filterMap Event.desk? := by
    rw [hSplit, List.filterMap_append]
    rfl
  rcases Desk.found_eq_lookup hDesk hClients hSent hAsked with
    ⟨hDelivery, hFound⟩
  have hMem :
      Event.settleCalled call delivery decision ∈ trace := by
    rw [hCalled]
    simp
  have hDecision := (called_unique hReach
    (called_of_taken hReach hTaken) hMem).2
  rw [desk_sent] at hFound
  exact ⟨hDelivery, hDecision, hFound⟩

/-
  The acker that is left under an id: that of the delivery,
  from its registration to the next settle call for the id.
-/
theorem lookup_eq_some_iff
    {later : List Event}
    (hReach : lts.Reachable (trace ++ later) s)
    (delivery : DeliveryId) (acker : Acker) :
    Desk.lookup delivery (sentCommands trace) = some acker ↔
      ∃ stream,
        Event.registering stream delivery acker ∈ trace ∧
          ∀ call decision,
            ¬ Precedes (.registering stream delivery acker)
              (.settleCalled call delivery decision)
              trace := by
  have hOnce :
      ((sentCommands trace).filterMap
        Desk.Command.registers?).Nodup := by
    have hAll := (numbered_of_reachable hReach).registeredOnce
    unfold registrations at hAll
    rw [List.filterMap_append] at hAll
    rw [registers_sent]
    exact hAll.of_append_left
  rw [Desk.lookup_eq_some_iff hOnce, register_mem_iff]
  constructor
  · rintro ⟨⟨stream, hSent⟩, hUnasked⟩
    refine ⟨stream, hSent, ?_⟩
    intro call decision hOrder
    exact hUnasked call (hOrder.filterMap rfl rfl)
  · rintro ⟨stream, hSent, hUnasked⟩
    refine ⟨⟨stream, hSent⟩, ?_⟩
    intro call hOrder
    rcases Precedes.of_filterMap hOrder with
      ⟨x, y, hx, hy, hBoth⟩
    cases x with
    | registering stream' _ _ =>
        cases y with
        | settleCalled _ _ decision =>
            cases hx
            cases hy
            have hNumbered := numbered_of_reachable hReach
            have hIn : ∀ {e}, e ∈ trace →
                e ∈ trace ++ later :=
              fun hMem => List.mem_append_left _ hMem
            rcases hNumbered.registered _ _ _ (hIn hSent) with
              ⟨_, hFetched⟩
            rcases hNumbered.registered _ _ _
              (hIn hBoth.mem_left) with ⟨_, hFetched'⟩
            have hSame :=
              (fetched_unique hReach hFetched' hFetched).1
            subst hSame
            exact hUnasked call decision hBoth
        | _ => cases hy
    | _ => cases hx

end Deliveries

end RabbitMq

end Bus

end Qanat

------------------------------------------------------------
-- What Is Done for a Settle Call
------------------------------------------------------------

namespace Qanat

namespace Bus

namespace RabbitMq

namespace Deliveries

open Transition
open Router (DeliveryDecision)

variable {trace : List Event} {s : State}

/-
  What is done for a settle call that finds `found`: the
  operation of its decision on that acker, and a reply with
  its result; or no operation, and the error of the id.
-/
structure Served
    (trace : List Event) (call : SettleId)
    (delivery : DeliveryId) (decision : DeliveryDecision)
    (found : Option Acker) : Prop where
  performed : ∀ acker done,
    Event.performed call acker done ∈ trace →
      found = some acker ∧ done = operation decision
  replied : ∀ result,
    Event.replied call result ∈ trace →
      (found = none ∧
        result = .error (notPending delivery)) ∨
      ∃ acker outcome,
        found = some acker ∧
          Event.performed call acker (operation decision) ∈
            trace ∧
            result = settleResult outcome

/- What the actor is doing follows from what it has taken. -/
def ActorPhase.Follows (trace : List Event) :
    ActorPhase → Prop
| .settling call acker decision =>
    ∃ delivery,
      Event.settleTaken call delivery decision (some acker) ∈
        trace
| .awaiting call =>
    ∃ delivery decision acker,
      Event.settleTaken call delivery decision (some acker) ∈
        trace ∧
        Event.performed call acker (operation decision) ∈ trace
| .replying call delivery =>
    ∃ decision,
      Event.settleTaken call delivery decision none ∈ trace
| _ => True

/- An operation by the command that it is performed for. -/
def Performs
    (trace : List Event) (call : SettleId) (acker : Acker)
    (done : Operation) : Prop :=
  ∃ delivery decision,
    Event.settleTaken call delivery decision (some acker) ∈
      trace ∧ done = operation decision

/- A reply by the command that it answers. -/
def Answers
    (trace : List Event) (call : SettleId)
    (result : Except BusError Unit) : Prop :=
  (∃ delivery decision,
    Event.settleTaken call delivery decision none ∈ trace ∧
      result = .error (notPending delivery)) ∨
  ∃ delivery decision acker outcome,
    Event.settleTaken call delivery decision (some acker) ∈
      trace ∧
      Event.performed call acker (operation decision) ∈ trace ∧
        result = settleResult outcome

/- Whatever the actor has done follows from it as well. -/
structure Handled (trace : List Event) (s : State) : Prop where
  actor : s.actor.Follows trace
  performed : ∀ call acker done,
    Event.performed call acker done ∈ trace →
      Performs trace call acker done
  replied : ∀ call result,
    Event.replied call result ∈ trace →
      Answers trace call result

theorem ActorPhase.Follows.append
    {phase : ActorPhase}
    (hFollows : phase.Follows trace) (e : Event) :
    phase.Follows (trace ++ [e]) := by
  cases phase with
  | settling =>
      rcases hFollows with ⟨delivery, hTaken⟩
      exact ⟨delivery, List.mem_append_left _ hTaken⟩
  | awaiting =>
      rcases hFollows with
        ⟨delivery, decision, acker, hTaken, hDone⟩
      exact ⟨delivery, decision, acker,
        List.mem_append_left _ hTaken,
        List.mem_append_left _ hDone⟩
  | replying =>
      rcases hFollows with ⟨decision, hTaken⟩
      exact ⟨decision, List.mem_append_left _ hTaken⟩
  | _ => trivial

theorem Performs.append
    {call : SettleId} {acker : Acker} {done : Operation}
    (hPerforms : Performs trace call acker done) (e : Event) :
    Performs (trace ++ [e]) call acker done := by
  rcases hPerforms with ⟨delivery, decision, hTaken, hDone⟩
  exact ⟨delivery, decision, List.mem_append_left _ hTaken,
    hDone⟩

theorem Answers.append
    {call : SettleId} {result : Except BusError Unit}
    (hAnswers : Answers trace call result) (e : Event) :
    Answers (trace ++ [e]) call result := by
  rcases hAnswers with
    ⟨delivery, decision, hTaken, hResult⟩ |
      ⟨delivery, decision, acker, outcome, hTaken, hDone,
        hResult⟩
  · exact Or.inl ⟨delivery, decision,
      List.mem_append_left _ hTaken, hResult⟩
  · exact Or.inr ⟨delivery, decision, acker, outcome,
      List.mem_append_left _ hTaken,
      List.mem_append_left _ hDone, hResult⟩

/- What has been done stays explained. -/
theorem Handled.append
    (hHandled : Handled trace s) {s' : State} {e : Event}
    (hActor : s'.actor.Follows (trace ++ [e]))
    (hPerformed : ∀ call acker done,
      e = .performed call acker done →
        Performs trace call acker done)
    (hReplied : ∀ call result,
      e = .replied call result →
        Answers trace call result) :
    Handled (trace ++ [e]) s' where
  actor := hActor
  performed := by
    intro call acker done hMem
    rcases List.mem_append.mp hMem with hOld | hNew
    · exact (hHandled.performed _ _ _ hOld).append e
    · exact (hPerformed _ _ _
        (List.mem_singleton.mp hNew).symm).append e
  replied := by
    intro call result hMem
    rcases List.mem_append.mp hMem with hOld | hNew
    · exact (hHandled.replied _ _ hOld).append e
    · exact (hReplied _ _
        (List.mem_singleton.mp hNew).symm).append e

theorem handled_step
    {s' : State} {e : Event}
    (hHandled : Handled trace s)
    (hStep : Step s e s') :
    Handled (trace ++ [e]) s' := by
  have hActor := hHandled.actor
  cases hStep with
  | @takeSettle call delivery decision acker =>
      refine hHandled.append ?_ nofun nofun
      exact ⟨delivery,
        List.mem_append_right _ List.mem_cons_self⟩
  | @missSettle call delivery decision =>
      refine hHandled.append ?_ nofun nofun
      exact ⟨decision,
        List.mem_append_right _ List.mem_cons_self⟩
  | @perform call acker decision hPhase =>
      rw [hPhase] at hActor
      rcases hActor with ⟨delivery, hTaken⟩
      refine hHandled.append ?_ ?_ nofun
      · exact ⟨delivery, decision, acker,
          List.mem_append_left _ hTaken,
          List.mem_append_right _ List.mem_cons_self⟩
      · rintro _ _ _ ⟨⟩
        exact ⟨delivery, decision, hTaken, rfl⟩
  | @«return» call result hPhase =>
      rw [hPhase] at hActor
      rcases hActor with
        ⟨delivery, decision, acker, hTaken, hDone⟩
      refine hHandled.append trivial nofun ?_
      rintro _ _ ⟨⟩
      exact Or.inr ⟨delivery, decision, acker, result, hTaken,
        hDone, rfl⟩
  | @reply call delivery hPhase =>
      rw [hPhase] at hActor
      rcases hActor with ⟨decision, hTaken⟩
      refine hHandled.append trivial nofun ?_
      rintro _ _ ⟨⟩
      exact Or.inl ⟨delivery, decision, hTaken, rfl⟩
  | stopActor => exact hHandled.append trivial nofun nofun
  | _ =>
      refine hHandled.append (hActor.append _) ?_ ?_
      · rintro _ _ _ ⟨⟩
      · rintro _ _ ⟨⟩

theorem handled_of_reachable
    (hReach : lts.Reachable trace s) :
    Handled trace s := by
  induction hReach with
  | initial hInitial =>
      subst hInitial
      exact ⟨trivial, nofun, nofun⟩
  | step _ hStep ih => exact handled_step ih hStep

/- What is done for a settle call, by what it finds. -/
theorem served_of_called
    {called called' : List Event}
    (hReach : lts.Reachable trace s)
    {call : SettleId} {delivery : DeliveryId}
    {decision : DeliveryDecision}
    (hCalled :
      trace =
        called ++
          .settleCalled call delivery decision :: called') :
    Served trace call delivery decision
      (Desk.lookup delivery (sentCommands called)) where
  performed := by
    intro acker done hMem
    rcases (handled_of_reachable hReach).performed _ _ _ hMem
      with ⟨delivery', decision', hTaken, rfl⟩
    rcases found_eq_lookup hReach hCalled hTaken with
      ⟨rfl, rfl, hFound⟩
    exact ⟨hFound.symm, rfl⟩
  replied := by
    intro result hMem
    rcases (handled_of_reachable hReach).replied _ _ hMem with
      ⟨delivery', decision', hTaken, rfl⟩ |
        ⟨delivery', decision', acker, outcome, hTaken, hDone,
          rfl⟩
    · rcases found_eq_lookup hReach hCalled hTaken with
        ⟨rfl, rfl, hFound⟩
      exact Or.inl ⟨hFound.symm, rfl⟩
    · rcases found_eq_lookup hReach hCalled hTaken with
        ⟨rfl, rfl, hFound⟩
      exact Or.inr ⟨acker, outcome, hFound.symm, hDone, rfl⟩

/- The settle calls whose commands have been taken. -/
def Event.takenCall? : Event → Option SettleId
| .settleTaken call _ _ _ => some call
| _ => none

/- Those of them that have found an acker. -/
def Event.foundCall? : Event → Option SettleId
| .settleTaken call _ _ (some _) => some call
| _ => none

def Event.performedCall? : Event → Option SettleId
| .performed call _ _ => some call
| _ => none

def Event.repliedCall? : Event → Option SettleId
| .replied call _ => some call
| _ => none

/- The call the actor is busy with. -/
def ActorPhase.call? : ActorPhase → Option SettleId
| .settling call _ _ => some call
| .awaiting call => some call
| .replying call _ => some call
| _ => none

/- The call that the actor has yet to call an acker for. -/
def ActorPhase.duty? : ActorPhase → Option SettleId
| .settling call _ _ => some call
| _ => none

/- The actor answers the calls in their order. -/
theorem replies_fifo
    (hReach : lts.Reachable trace s) :
    trace.filterMap Event.takenCall? =
      trace.filterMap Event.repliedCall? ++
        s.actor.call?.toList := by
  apply hReach.fifo Event.takenCall? Event.repliedCall?
    (fun s => s.actor.call?.toList)
  · rintro s rfl
    rfl
  · intro trace s e s' _ hStep
    cases hStep with
    | takeSettle hActor => rw [hActor]; rfl
    | missSettle hActor => rw [hActor]; rfl
    | perform hActor => rw [hActor]; rfl
    | «return» _ hActor => rw [hActor]; rfl
    | reply hActor => rw [hActor]; rfl
    | takeRegister hActor => rw [hActor]; rfl
    | stopActor hActor => rw [hActor]; rfl
    | _ => exact List.append_nil _

theorem performs_fifo
    (hReach : lts.Reachable trace s) :
    trace.filterMap Event.foundCall? =
      trace.filterMap Event.performedCall? ++
        s.actor.duty?.toList := by
  apply hReach.fifo Event.foundCall? Event.performedCall?
    (fun s => s.actor.duty?.toList)
  · rintro s rfl
    rfl
  · intro trace s e s' _ hStep
    cases hStep with
    | takeSettle hActor => rw [hActor]; rfl
    | missSettle hActor => rw [hActor]; rfl
    | perform hActor => rw [hActor]; rfl
    | «return» _ hActor => rw [hActor]; rfl
    | reply hActor => rw [hActor]; rfl
    | takeRegister hActor => rw [hActor]; rfl
    | stopActor hActor => rw [hActor]; rfl
    | _ => exact List.append_nil _

/- No command of a settle call is taken twice. -/
theorem taken_once
    (hReach : lts.Reachable trace s) :
    (trace.filterMap Event.takenCall?).Nodup := by
  have hSent :
      (trace.filterMap Event.desk?).filterMap
          Desk.Event.sent? =
        (trace.filterMap Event.desk?).filterMap
            Desk.Event.taken? ++
          s.queue.map SettlementCommand.desk := by
    rcases desk_of_reachable hReach with ⟨t, hDesk, hQueue, _⟩
    rw [← hQueue]
    exact Desk.sent_eq hDesk
  have hTaken :
      ((trace.filterMap Event.desk?).filterMap
          Desk.Event.taken?).filterMap
            Desk.Command.client? =
        trace.filterMap Event.takenCall? := by
    rw [List.filterMap_filterMap, List.filterMap_filterMap]
    congr 1
    funext e
    cases e <;> rfl
  have hOnce := (called_once hReach).1
  rw [← clients_sent, ← desk_sent, hSent,
    List.filterMap_append, hTaken] at hOnce
  exact hOnce.of_append_left

/- A settle call has one operation and one reply at most. -/
theorem handled_once
    (hReach : lts.Reachable trace s) :
    (trace.filterMap Event.performedCall?).Nodup ∧
      (trace.filterMap Event.repliedCall?).Nodup := by
  have hOnce := taken_once hReach
  constructor
  · have hFound := hOnce.sublist
      (Lists.filterMap_sublist (f := Event.foundCall?)
        (by
          intro e call hFound
          cases e with
          | settleTaken _ _ _ found =>
              cases found with
              | none => cases hFound
              | some => exact hFound
          | _ => cases hFound) trace)
    rw [performs_fifo hReach] at hFound
    exact hFound.of_append_left
  · rw [replies_fifo hReach] at hOnce
    exact hOnce.of_append_left

/-
  An operation is performed for a settle call that was made
  after the registration of its acker.
-/
theorem registered_of_performed
    (hReach : lts.Reachable trace s)
    {call : SettleId} {acker : Acker} {done : Operation}
    (hPerformed :
      Event.performed call acker done ∈ trace) :
    ∃ called called' stream delivery decision,
      trace =
          called ++
            .settleCalled call delivery decision :: called' ∧
        Event.registering stream delivery acker ∈ called := by
  rcases (handled_of_reachable hReach).performed _ _ _
    hPerformed with ⟨delivery, decision, hTaken, _⟩
  rcases List.mem_iff_append.mp
      (called_of_taken hReach hTaken) with
    ⟨called, called', hSplit⟩
  have hFound :=
    (found_eq_lookup hReach hSplit hTaken).2.2
  rcases (lookup_eq_some_iff (hSplit ▸ hReach) delivery
    acker).mp hFound.symm with ⟨stream, hSent, _⟩
  exact ⟨called, called', stream, delivery, decision, hSplit,
    hSent⟩

end Deliveries

end RabbitMq

end Bus

end Qanat
