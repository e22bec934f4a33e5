import Qanat.Bus.RabbitMq.Deliveries
import Qanat.Library.Lists

/-
  The ids of the deliveries of a RabbitMQ bus, which its
  streams take from one counter and register each for itself.

  Main declarations:
    * `fetches_eq`, `fetched_unique`
    * `Numbered`, `numbered_of_reachable`
-/

------------------------------------------------------------
-- Ids
------------------------------------------------------------

namespace Qanat

namespace Bus

namespace RabbitMq

namespace Deliveries

open Transition
open Router (DeliveryDecision)

variable {trace : List Event} {s : State}

/- The ids and ackers of the deliveries, in their order. -/
def Event.fetch? : Event → Option (DeliveryId × Acker)
| .fetched _ delivery _ acker => some (delivery, acker)
| _ => none

def fetches (trace : List Event) :
    List (DeliveryId × Acker) :=
  trace.filterMap Event.fetch?

/- The ids are numbers from one, and so are the ackers. -/
theorem fetches_eq
    (hReach : lts.Reachable trace s) :
    fetches trace =
      (List.range s.delivered).map (fun n => (n + 1, n)) ∧
    s.nextId = s.delivered + 1 := by
  induction hReach with
  | initial hInitial =>
      subst hInitial
      exact ⟨rfl, rfl⟩
  | @step trace s s' e hReach hStep ih =>
      have hFetches :
          fetches (trace ++ [e]) =
            fetches trace ++ e.fetch?.toList := by
        unfold fetches
        rw [List.filterMap_append,
          Lists.filterMap_singleton]
      rw [hFetches]
      cases hStep with
      | fetch =>
          simp [ih.1, ih.2, Event.fetch?, List.range_succ,
            State.setStream]
      | _ => simpa [Event.fetch?, State.setStream] using ih

theorem fetches_nodup
    (hReach : lts.Reachable trace s) :
    ((fetches trace).map Prod.fst).Nodup ∧
      ((fetches trace).map Prod.snd).Nodup := by
  rw [(fetches_eq hReach).1, List.map_map, List.map_map]
  constructor
  · apply List.nodup_range.map
    intro m n hSame
    exact Nat.succ.inj hSame
  · apply List.nodup_range.map
    intro m n hSame
    exact hSame

/- A fetched id is below the counter. -/
theorem fetched_lt
    (hReach : lts.Reachable trace s)
    {stream : StreamId} {delivery : DeliveryId}
    {message : RawMessage} {acker : Acker}
    (hFetched :
      Event.fetched stream delivery message acker ∈ trace) :
    delivery < s.nextId := by
  have hMem : (delivery, acker) ∈ fetches trace :=
    List.mem_filterMap.mpr ⟨_, hFetched, rfl⟩
  rw [(fetches_eq hReach).1, List.mem_map] at hMem
  rcases hMem with ⟨n, hRange, hPair⟩
  rw [List.mem_range] at hRange
  rw [(fetches_eq hReach).2]
  cases hPair
  exact Nat.succ_lt_succ hRange

/- A stream is there after it has been opened. -/
theorem absent_of_le
    (hReach : lts.Reachable trace s)
    {stream : StreamId}
    (hNew : s.nextStream ≤ stream) :
    s.streams stream = .absent := by
  induction hReach with
  | initial hInitial =>
      subst hInitial
      rfl
  | @step trace s s' e hReach hStep ih =>
      -- a stream that moves is not one of the new ones
      have hOther : ∀ other phase,
          s.streams other ≠ .absent → s.nextStream ≤ stream →
          (s.setStream other phase).streams stream =
            .absent := by
        intro other phase hThere hLe
        have hNe : stream ≠ other := by
          rintro rfl
          exact hThere (ih hLe)
        rw [State.setStream_of_ne _ _ hNe, ih hLe]
      cases hStep with
      | subscribe =>
          have hNe : stream ≠ s.nextStream :=
            Nat.ne_of_gt hNew
          rw [State.setStream_of_ne _ _ hNe]
          exact ih (Nat.le_of_succ_le hNew)
      | fetch _ _ _ _ hPhase =>
          exact hOther _ _ (by simp [hPhase]) hNew
      | register hPhase =>
          exact hOther _ _ (by simp [hPhase]) hNew
      | failRegister hPhase =>
          exact hOther _ _ (by simp [hPhase]) hNew
      | «yield» hPhase =>
          exact hOther _ _ (by simp [hPhase]) hNew
      | dropStream hPhase =>
          exact hOther _ _ (by simp [hPhase]) hNew
      | _ => exact ih hNew

theorem stream_lt_of_fetched
    (hReach : lts.Reachable trace s)
    {stream : StreamId} {delivery : DeliveryId}
    {message : RawMessage} {acker : Acker}
    (hFetched :
      Event.fetched stream delivery message acker ∈ trace) :
    stream < s.nextStream := by
  induction hReach with
  | initial => cases hFetched
  | @step trace s s' e hReach hStep ih =>
      have hMono : s.nextStream ≤ s'.nextStream := by
        cases hStep with
        | subscribe => exact Nat.le_succ _
        | _ => exact Nat.le_refl _
      apply Nat.lt_of_lt_of_le _ hMono
      rcases List.mem_append.mp hFetched with hOld | hNew
      · exact ih hOld
      · rw [List.mem_singleton] at hNew
        subst hNew
        cases hStep with
        | fetch _ _ _ _ hPhase =>
            by_contra hNot
            rw [absent_of_le hReach (Nat.le_of_not_lt hNot)]
              at hPhase
            cases hPhase

/- An id is fetched once. -/
theorem fetched_unique
    (hReach : lts.Reachable trace s)
    {stream stream' : StreamId} {delivery : DeliveryId}
    {message message' : RawMessage} {acker acker' : Acker}
    (hFetched :
      Event.fetched stream delivery message acker ∈ trace)
    (hFetched' :
      Event.fetched stream' delivery message' acker' ∈
        trace) :
    stream = stream' ∧ message = message' ∧
      acker = acker' := by
  induction hReach with
  | initial => cases hFetched
  | @step trace s s' e hReach hStep ih =>
      rcases List.mem_append.mp hFetched with hOld | hNew
      · rcases List.mem_append.mp hFetched' with hOld' | hNew'
        · exact ih hOld hOld'
        · rw [List.mem_singleton] at hNew'
          subst hNew'
          cases hStep
          exact absurd (fetched_lt hReach hOld)
            (Nat.lt_irrefl _)
      · rw [List.mem_singleton] at hNew
        subst hNew
        rcases List.mem_append.mp hFetched' with hOld' | hNew'
        · cases hStep
          exact absurd (fetched_lt hReach hOld')
            (Nat.lt_irrefl _)
        · rw [List.mem_singleton] at hNew'
          cases hNew'
          exact ⟨rfl, rfl, rfl⟩

end Deliveries

end RabbitMq

end Bus

end Qanat

------------------------------------------------------------
-- Registration
------------------------------------------------------------

namespace Qanat

namespace Bus

namespace RabbitMq

namespace Deliveries

open Transition
open Router (DeliveryDecision)

variable {trace : List Event} {s : State}

def Event.registering? : Event → Option DeliveryId
| .registering _ delivery _ => some delivery
| _ => none

def Event.yielded? : Event → Option DeliveryId
| .yielded _ delivery _ => some delivery
| _ => none

/- The ids whose registrations have been sent. -/
def registrations (trace : List Event) : List DeliveryId :=
  trace.filterMap Event.registering?

/- The ids of the messages that the streams have yielded. -/
def yields (trace : List Event) : List DeliveryId :=
  trace.filterMap Event.yielded?

/- What a stream has in hand, and what it has done with it. -/
def StreamPhase.Holds
    (trace : List Event) (stream : StreamId) :
    StreamPhase → Prop
| .fetched delivery message acker =>
    Event.fetched stream delivery message acker ∈ trace ∧
      delivery ∉ registrations trace ∧
        delivery ∉ yields trace
| .ready delivery message =>
    (∃ acker,
      Event.fetched stream delivery message acker ∈ trace ∧
        Event.registering stream delivery acker ∈ trace) ∧
      delivery ∉ yields trace
| _ => True

/-
  Ids are registered and yielded once, and by the stream that
  has fetched them.
-/
structure Numbered (trace : List Event) (s : State) : Prop where
  holds : ∀ stream, (s.streams stream).Holds trace stream
  registered : ∀ stream delivery acker,
    Event.registering stream delivery acker ∈ trace →
      ∃ message,
        Event.fetched stream delivery message acker ∈ trace
  yielded : ∀ stream delivery message,
    Event.yielded stream delivery message ∈ trace →
      ∃ acker,
        Event.fetched stream delivery message acker ∈ trace
  registeredOnce : (registrations trace).Nodup
  yieldedOnce : (yields trace).Nodup

theorem mem_registrations_iff {delivery : DeliveryId} :
    delivery ∈ registrations trace ↔
      ∃ stream acker,
        Event.registering stream delivery acker ∈ trace := by
  unfold registrations
  rw [List.mem_filterMap]
  constructor
  · rintro ⟨e, hMem, hId⟩
    cases e with
    | registering stream _ acker =>
        cases hId
        exact ⟨stream, acker, hMem⟩
    | _ => cases hId
  · rintro ⟨stream, acker, hMem⟩
    exact ⟨_, hMem, rfl⟩

theorem mem_yields_iff {delivery : DeliveryId} :
    delivery ∈ yields trace ↔
      ∃ stream message,
        Event.yielded stream delivery message ∈ trace := by
  unfold yields
  rw [List.mem_filterMap]
  constructor
  · rintro ⟨e, hMem, hId⟩
    cases e with
    | yielded stream _ message =>
        cases hId
        exact ⟨stream, message, hMem⟩
    | _ => cases hId
  · rintro ⟨stream, message, hMem⟩
    exact ⟨_, hMem, rfl⟩

theorem registrations_append (e : Event) :
    registrations (trace ++ [e]) =
      registrations trace ++ e.registering?.toList := by
  unfold registrations
  rw [List.filterMap_append, Lists.filterMap_singleton]

theorem yields_append (e : Event) :
    yields (trace ++ [e]) =
      yields trace ++ e.yielded?.toList := by
  unfold yields
  rw [List.filterMap_append, Lists.filterMap_singleton]

/- The id of the delivery that a stream has in hand. -/
def StreamPhase.delivery? : StreamPhase → Option DeliveryId
| .fetched delivery _ _ => some delivery
| .ready delivery _ => some delivery
| _ => none

/- What a stream holds is not changed by the others. -/
theorem StreamPhase.Holds.append
    {stream : StreamId} {phase : StreamPhase} {e : Event}
    (hHolds : phase.Holds trace stream)
    (hOther : ∀ delivery,
      phase.delivery? = some delivery →
        e.registering? ≠ some delivery ∧
          e.yielded? ≠ some delivery) :
    phase.Holds (trace ++ [e]) stream := by
  cases phase with
  | fetched delivery message acker =>
      rcases hHolds with ⟨hFetched, hSent, hShown⟩
      rcases hOther _ rfl with ⟨hRegister, hYield⟩
      refine ⟨List.mem_append_left _ hFetched, ?_, ?_⟩
      · rw [registrations_append]
        simpa [hSent] using hRegister
      · rw [yields_append]
        simpa [hShown] using hYield
  | ready delivery message =>
      rcases hHolds with ⟨⟨acker, hFetched, hSent⟩, hShown⟩
      refine ⟨⟨acker, List.mem_append_left _ hFetched,
        List.mem_append_left _ hSent⟩, ?_⟩
      rw [yields_append]
      simpa [hShown] using (hOther _ rfl).2
  | _ => trivial

theorem StreamPhase.Holds.fetched
    {stream : StreamId} {phase : StreamPhase}
    {delivery : DeliveryId}
    (hHolds : phase.Holds trace stream)
    (hHand : phase.delivery? = some delivery) :
    ∃ message acker,
      Event.fetched stream delivery message acker ∈ trace := by
  cases phase with
  | fetched =>
      cases hHand
      exact ⟨_, _, hHolds.1⟩
  | ready =>
      cases hHand
      rcases hHolds.1 with ⟨acker, hFetched, _⟩
      exact ⟨_, acker, hFetched⟩
  | _ => cases hHand

/- Streams have different deliveries in hand. -/
theorem Numbered.distinct
    (hNumbered : Numbered trace s)
    (hReach : lts.Reachable trace s)
    {stream other : StreamId} {delivery : DeliveryId}
    (hHand : (s.streams stream).delivery? = some delivery)
    (hOther : (s.streams other).delivery? = some delivery) :
    stream = other := by
  rcases (hNumbered.holds stream).fetched hHand with
    ⟨_, _, hFetched⟩
  rcases (hNumbered.holds other).fetched hOther with
    ⟨_, _, hFetched'⟩
  exact (fetched_unique hReach hFetched hFetched').1

/- A stream registers and yields what it has in hand. -/
theorem Numbered.holds_setStream
    (hNumbered : Numbered trace s)
    (hReach : lts.Reachable trace s)
    {stream : StreamId} {phase : StreamPhase} {e : Event}
    (hRegisters : ∀ delivery,
      e.registering? = some delivery →
        (s.streams stream).delivery? = some delivery)
    (hYields : ∀ delivery,
      e.yielded? = some delivery →
        (s.streams stream).delivery? = some delivery)
    (hNew : phase.Holds (trace ++ [e]) stream)
    (other : StreamId) :
    ((s.setStream stream phase).streams other).Holds
      (trace ++ [e]) other := by
  by_cases hSame : other = stream
  · subst hSame
    rw [State.setStream_self]
    exact hNew
  · rw [State.setStream_of_ne _ _ hSame]
    apply (hNumbered.holds other).append
    intro delivery hHand
    constructor
    · intro hRegister
      exact hSame (hNumbered.distinct hReach hHand
        (hRegisters _ hRegister))
    · intro hYield
      exact hSame (hNumbered.distinct hReach hHand
        (hYields _ hYield))

/-
  An event may register or yield a delivery that was fetched,
  if this has not been done before.
-/
theorem Numbered.extend
    (hNumbered : Numbered trace s) {s' : State} {e : Event}
    (hHolds : ∀ stream,
      (s'.streams stream).Holds (trace ++ [e]) stream)
    (hRegister : ∀ stream delivery acker,
      e = .registering stream delivery acker →
        (∃ message,
          Event.fetched stream delivery message acker ∈
            trace) ∧
          delivery ∉ registrations trace)
    (hYield : ∀ stream delivery message,
      e = .yielded stream delivery message →
        (∃ acker,
          Event.fetched stream delivery message acker ∈
            trace) ∧
          delivery ∉ yields trace) :
    Numbered (trace ++ [e]) s' where
  holds := hHolds
  registered := by
    intro stream delivery acker hMem
    rcases List.mem_append.mp hMem with hOld | hNew
    · rcases hNumbered.registered _ _ _ hOld with
        ⟨message, hFetched⟩
      exact ⟨message, List.mem_append_left _ hFetched⟩
    · rcases (hRegister _ _ _
        (List.mem_singleton.mp hNew).symm).1 with
        ⟨message, hFetched⟩
      exact ⟨message, List.mem_append_left _ hFetched⟩
  yielded := by
    intro stream delivery message hMem
    rcases List.mem_append.mp hMem with hOld | hNew
    · rcases hNumbered.yielded _ _ _ hOld with
        ⟨acker, hFetched⟩
      exact ⟨acker, List.mem_append_left _ hFetched⟩
    · rcases (hYield _ _ _
        (List.mem_singleton.mp hNew).symm).1 with
        ⟨acker, hFetched⟩
      exact ⟨acker, List.mem_append_left _ hFetched⟩
  registeredOnce := by
    rw [registrations_append]
    cases hEvent : e.registering? with
    | none => simpa using hNumbered.registeredOnce
    | some delivery =>
        have hNew : delivery ∉ registrations trace := by
          cases e with
          | registering stream _ acker =>
              cases hEvent
              exact (hRegister _ _ _ rfl).2
          | _ => cases hEvent
        have hOnce := (List.nodup_concat _ delivery).mpr
          ⟨hNew, hNumbered.registeredOnce⟩
        simpa using hOnce
  yieldedOnce := by
    rw [yields_append]
    cases hEvent : e.yielded? with
    | none => simpa using hNumbered.yieldedOnce
    | some delivery =>
        have hNew : delivery ∉ yields trace := by
          cases e with
          | yielded stream _ message =>
              cases hEvent
              exact (hYield _ _ _ rfl).2
          | _ => cases hEvent
        have hOnce := (List.nodup_concat _ delivery).mpr
          ⟨hNew, hNumbered.yieldedOnce⟩
        simpa using hOnce

/- An event that neither registers nor yields anything. -/
theorem Numbered.append
    (hNumbered : Numbered trace s) {s' : State} {e : Event}
    (hHolds : ∀ stream,
      (s'.streams stream).Holds (trace ++ [e]) stream)
    (hRegister : e.registering? = none)
    (hYield : e.yielded? = none) :
    Numbered (trace ++ [e]) s' := by
  apply hNumbered.extend hHolds
  · rintro stream delivery acker rfl
    cases hRegister
  · rintro stream delivery message rfl
    cases hYield

/- The next id has been neither registered nor yielded. -/
theorem Numbered.fresh
    (hNumbered : Numbered trace s)
    (hReach : lts.Reachable trace s) :
    s.nextId ∉ registrations trace ∧
      s.nextId ∉ yields trace := by
  constructor
  · intro hMem
    rcases mem_registrations_iff.mp hMem with
      ⟨_, _, hSent⟩
    rcases hNumbered.registered _ _ _ hSent with
      ⟨_, hFetched⟩
    exact Nat.lt_irrefl _ (fetched_lt hReach hFetched)
  · intro hMem
    rcases mem_yields_iff.mp hMem with ⟨_, _, hShown⟩
    rcases hNumbered.yielded _ _ _ hShown with
      ⟨_, hFetched⟩
    exact Nat.lt_irrefl _ (fetched_lt hReach hFetched)

theorem numbered_step
    {s' : State} {e : Event}
    (hReach : lts.Reachable trace s)
    (hNumbered : Numbered trace s)
    (hStep : Step s e s') :
    Numbered (trace ++ [e]) s' := by
  cases hStep with
  | subscribe =>
      apply hNumbered.append _ rfl rfl
      exact hNumbered.holds_setStream hReach nofun nofun
        trivial
  | fetch =>
      apply hNumbered.append _ rfl rfl
      rcases hNumbered.fresh hReach with ⟨hSent, hShown⟩
      apply hNumbered.holds_setStream hReach
      · nofun
      · nofun
      · refine ⟨List.mem_append_right _ List.mem_cons_self,
          ?_, ?_⟩
        · rw [registrations_append]
          simpa [Event.registering?] using hSent
        · rw [yields_append]
          simpa [Event.yielded?] using hShown
  | @register stream delivery message acker hPhase =>
      have hHand := hNumbered.holds stream
      rw [hPhase] at hHand
      rcases hHand with ⟨hFetched, hSent, hShown⟩
      refine hNumbered.extend ?_ ?_ nofun
      · apply hNumbered.holds_setStream hReach
        · intro delivery' hRegister
          cases hRegister
          rw [hPhase]
          rfl
        · nofun
        · refine ⟨⟨acker, List.mem_append_left _ hFetched,
            List.mem_append_right _ List.mem_cons_self⟩, ?_⟩
          rw [yields_append]
          simpa [Event.yielded?] using hShown
      · rintro stream' delivery' acker' ⟨⟩
        exact ⟨⟨message, hFetched⟩, hSent⟩
  | failRegister =>
      apply hNumbered.append _ rfl rfl
      exact hNumbered.holds_setStream hReach nofun nofun
        trivial
  | @«yield» stream delivery message hPhase =>
      have hHand := hNumbered.holds stream
      rw [hPhase] at hHand
      rcases hHand with ⟨⟨acker, hFetched, hSent⟩, hShown⟩
      refine hNumbered.extend ?_ nofun ?_
      · apply hNumbered.holds_setStream hReach
        · nofun
        · intro delivery' hYield
          cases hYield
          rw [hPhase]
          rfl
        · trivial
      · rintro stream' delivery' message' ⟨⟩
        exact ⟨⟨acker, hFetched⟩, hShown⟩
  | dropStream =>
      apply hNumbered.append _ rfl rfl
      exact hNumbered.holds_setStream hReach nofun nofun
        trivial
  | _ =>
      apply hNumbered.append _ rfl rfl
      intro stream
      exact (hNumbered.holds stream).append
        (fun _ _ => ⟨nofun, nofun⟩)

theorem numbered_of_reachable
    (hReach : lts.Reachable trace s) :
    Numbered trace s := by
  induction hReach with
  | initial hInitial =>
      subst hInitial
      constructor
      case holds => exact fun _ => trivial
      case registered => nofun
      case yielded => nofun
      case registeredOnce => exact List.nodup_nil
      case yieldedOnce => exact List.nodup_nil
  | step hReach hStep ih =>
      exact numbered_step hReach ih hStep

/- What is yielded has been registered with its own acker. -/
theorem registered_before_yielded
    {earlier later : List Event}
    (hReach : lts.Reachable trace s)
    {stream : StreamId} {delivery : DeliveryId}
    {message : RawMessage}
    (hTrace :
      trace =
        earlier ++ .yielded stream delivery message :: later) :
    ∃ acker,
      Event.fetched stream delivery message acker ∈ earlier ∧
        Event.registering stream delivery acker ∈ earlier := by
  rcases hReach.before hTrace with ⟨r, r', hBefore, hStep⟩
  cases hStep with
  | «yield» hPhase =>
      have hHolds :=
        (numbered_of_reachable hBefore).holds stream
      rw [hPhase] at hHolds
      exact hHolds.1

end Deliveries

end RabbitMq

end Bus

end Qanat
