import Mathlib.Logic.Function.Basic
import Qanat.Bus.ReceiveLoop

/-
  The Redis buses of several processes on one channel.

  Redis gives every bus every frame that is published, once
  and in their order.  How far it has come with a bus is the
  number of frames that the bus has received.

  Main declarations:
    * `RedisChannel.State`, `RedisChannel.Step`
    * `RedisChannel.lts`
    * `RedisChannel.loop_reachable`
    * `RedisChannel.Synced`
    * `RedisChannel.synced_of_reachable`
-/

------------------------------------------------------------
-- Buses on a Channel
------------------------------------------------------------

namespace Qanat

namespace Bus

namespace RedisChannel

open LocalRouter (ChannelId Channel)

/- One bus: what it has received, and its receive loop. -/
structure Instance where
  received : Nat
  loop : ReceiveLoop.State

/- The buses are named by the type `ι`. -/
structure State (ι : Type) where
  published : List Bytes
  instances : ι → Instance

variable {ι : Type} [DecidableEq ι]

def State.start : State ι where
  published := []
  instances _ :=
    { received := 0, loop := ReceiveLoop.State.start }

def State.set
    (s : State ι) (i : ι) (new : Instance) : State ι :=
  { s with instances := Function.update s.instances i new }

@[simp] theorem set_published
    (s : State ι) (i : ι) (new : Instance) :
    (s.set i new).published = s.published := rfl

@[simp] theorem set_self
    (s : State ι) (i : ι) (new : Instance) :
    (s.set i new).instances i = new := by
  simp [State.set]

theorem set_of_ne
    (s : State ι) {i j : ι} (new : Instance) (hNe : j ≠ i) :
    (s.set i new).instances j = s.instances j := by
  simp [State.set, hNe]

theorem set_set
    (s : State ι) (i : ι) (old new : Instance) :
    (s.set i old).set i new = s.set i new := by
  simp [State.set]

/- The message is at the end of an open queue. -/
def appended
    (message : RawMessage)
    (before after : Channel RawMessage) : Bool :=
  before.isOpen &&
    decide (after =
      { before with queue := before.queue ++ [message] })

/- The streams that a message was sent to between states. -/
def sentTo
    (message : RawMessage)
    (before after : LocalRouter.State RawMessage) :
    List ChannelId :=
  (List.range before.channels.length).filter (fun channel =>
    match before.channels[channel]?,
        after.channels[channel]? with
    | some old, some new => appended message old new
    | _, _ => false)

theorem mem_sentTo_iff
    {message : RawMessage}
    {before after : LocalRouter.State RawMessage}
    {channel : ChannelId} :
    channel ∈ sentTo message before after ↔
      ∃ queue,
        before.channels[channel]? = some ⟨true, queue⟩ ∧
          after.channels[channel]? =
            some ⟨true, queue ++ [message]⟩ := by
  unfold sentTo
  rw [List.mem_filter, List.mem_range]
  constructor
  · rintro ⟨_, hSent⟩
    cases hBefore : before.channels[channel]? with
    | none => simp [hBefore] at hSent
    | some old =>
        cases hAfter : after.channels[channel]? with
        | none => simp [hBefore, hAfter] at hSent
        | some new =>
            rcases old with ⟨isOpen, queue⟩
            simp only [hBefore, hAfter, appended,
              Bool.and_eq_true, decide_eq_true_eq] at hSent
            rcases hSent with ⟨rfl, rfl⟩
            exact ⟨queue, rfl, rfl⟩
  · rintro ⟨queue, hBefore, hAfter⟩
    refine ⟨(List.getElem?_eq_some_iff.mp hBefore).1, ?_⟩
    simp [hBefore, hAfter, appended]

end RedisChannel

end Bus

end Qanat

------------------------------------------------------------
-- Steps
------------------------------------------------------------

namespace Qanat

namespace Bus

namespace RedisChannel

open Transition
open LocalRouter (ChannelId)

/-
  `routed` names the position of the frame among those that
  were published, and the streams that were sent the message.
-/
inductive Event (ι : Type) where
| published (i : ι) (bytes : Bytes)
| received (i : ι) (bytes : Bytes)
| routed
    (i : ι) (position : Nat) (message : RawMessage)
    (result : Except BusError Unit) (sent : List ChannelId)
| client (i : ι) (event : LocalRouter.Event RawMessage)

variable {ι : Type} [DecidableEq ι]

inductive Step : State ι → Event ι → State ι → Prop where
| publish
    {s : State ι} {i : ι} {order : HeaderIteration}
    {subject : String} {payload : Bytes}
    {headers : Option Headers} :
    Step s
      (.published i
        (Redis.publishBytes order subject payload headers))
      { s with
        published := s.published ++
          [Redis.publishBytes order subject payload headers] }
| receive
    {s : State ι} {i : ι} {bytes : Bytes}
    {loop : ReceiveLoop.State} :
    s.published[(s.instances i).received]? = some bytes →
    ReceiveLoop.Step .redis (s.instances i).loop
      (.arrived bytes) loop →
    Step s (.received i bytes)
      (s.set i
        { received := (s.instances i).received + 1
          loop := loop })
| route
    {s : State ι} {i : ι} {position : Nat}
    {message : RawMessage} {result : Except BusError Unit}
    {loop : ReceiveLoop.State} :
    (s.instances i).received = position + 1 →
    ReceiveLoop.Step .redis (s.instances i).loop
      (.routed message result) loop →
    Step s
      (.routed i position message result
        (sentTo message (s.instances i).loop.router
          loop.router))
      (s.set i { s.instances i with loop := loop })
| client
    {s : State ι} {i : ι}
    {event : LocalRouter.Event RawMessage}
    {loop : ReceiveLoop.State} :
    ReceiveLoop.Step .redis (s.instances i).loop
      (.client event) loop →
    Step s (.client i event)
      (s.set i { s.instances i with loop := loop })

/- The buses that are connected to a channel. -/
def lts (ι : Type) [DecidableEq ι] :
    Lts (State ι) (Event ι) where
  initial s := s = State.start
  step := Step

/- What the receive loop of one bus sees of an event. -/
def Event.at? (i : ι) : Event ι → Option ReceiveLoop.Event
| .published _ _ => none
| .received j bytes =>
    if j = i then some (.arrived bytes) else none
| .routed j _ message result _ =>
    if j = i then some (.routed message result) else none
| .client j event =>
    if j = i then some (.client event) else none

/- When a bus moves, the others stay as they are. -/
theorem moves_alone
    {s : State ι} {j : ι} {new : Instance}
    {event : ReceiveLoop.Event}
    (hLoop :
      ReceiveLoop.Step .redis (s.instances j).loop event
        new.loop)
    (i : ι) :
    (if j = i then some event else none).elim
      (((s.set j new).instances i).loop =
        (s.instances i).loop)
      (fun event =>
        ReceiveLoop.Step .redis (s.instances i).loop event
          ((s.set j new).instances i).loop) := by
  by_cases hSame : j = i
  · subst hSame
    rw [if_pos rfl, set_self]
    exact hLoop
  · rw [if_neg hSame, set_of_ne _ _ (Ne.symm hSame)]
    rfl

/- An event of one bus is a step of its own loop only. -/
theorem Step.loop
    {s s' : State ι} {e : Event ι}
    (hStep : Step s e s')
    (i : ι) :
    (e.at? i).elim
      ((s'.instances i).loop = (s.instances i).loop)
      (fun event =>
        ReceiveLoop.Step .redis (s.instances i).loop event
          (s'.instances i).loop) := by
  cases hStep with
  | publish => rfl
  | receive _ hLoop => exact moves_alone hLoop i
  | route _ hLoop => exact moves_alone hLoop i
  | client hLoop => exact moves_alone hLoop i

/- Runs of the channel are runs of the loop of each bus. -/
theorem loop_reachable
    {trace : List (Event ι)} {s : State ι}
    (hReach : (lts ι).Reachable trace s)
    (i : ι) :
    (ReceiveLoop.lts .redis).Reachable
      (trace.filterMap (Event.at? i)) (s.instances i).loop := by
  apply hReach.component (fun s => (s.instances i).loop)
    (Event.at? i)
  · rintro s rfl
    rfl
  · intro s e s' hStep
    exact hStep.loop i

end RedisChannel

end Bus

end Qanat

------------------------------------------------------------
-- Frames of the Channel
------------------------------------------------------------

namespace Qanat

namespace Bus

namespace RedisChannel

open Transition
open LocalRouter (ChannelId)
open ReceiveLoop (decoded? IsMessageOf)

variable {ι : Type}

/- The bus and the position of a frame that is routed. -/
def Event.routedAt? : Event ι → Option (ι × Nat)
| .routed i position _ _ _ => some (i, position)
| _ => none

/- The frame at a position of the channel. -/
def State.frame?
    (s : State ι) (position : Nat) :
    Option Wire.DecodedFrame :=
  s.published[position]?.bind decoded?

/- What the bus has received, it has routed or routes now. -/
def State.Passed (s : State ι) (i : ι) (position : Nat) : Prop :=
  position < (s.instances i).received ∧
    (position + 1 = (s.instances i).received →
      (s.instances i).loop.routing = none)

/-
  The buses route the frames of the channel, each of them
  once, and leave none out.
-/
structure Synced
    (trace : List (Event ι)) (s : State ι) : Prop where
  received_le :
    ∀ i, (s.instances i).received ≤ s.published.length
  routing :
    ∀ i message, (s.instances i).loop.routing = some message →
      ∃ position frame,
        (s.instances i).received = position + 1 ∧
          s.frame? position = some frame ∧
          IsMessageOf frame message
  routed :
    ∀ i position message result sent,
      Event.routed i position message result sent ∈ trace →
        s.Passed i position ∧
          ∃ frame, s.frame? position = some frame ∧
            IsMessageOf frame message
  complete :
    ∀ i position frame, s.Passed i position →
      s.frame? position = some frame →
        (i, position) ∈ trace.filterMap Event.routedAt?
  once : (trace.filterMap Event.routedAt?).Nodup

theorem Synced.start : Synced [] (State.start : State ι) := by
  constructor
  case received_le => exact fun _ => Nat.le_refl 0
  case routing =>
    intro i message hRouting
    cases hRouting
  case routed =>
    intro i position message result sent hMem
    cases hMem
  case complete =>
    intro i position frame hPassed
    exact absurd hPassed.1 (Nat.not_lt_zero _)
  case once => exact List.nodup_nil

/- Frames that are published stay where they are. -/
theorem frame?_append
    {s : State ι} {position : Nat}
    (hBound : position < s.published.length)
    (bytes : List Bytes) :
    State.frame? { s with published := s.published ++ bytes }
        position =
      s.frame? position := by
  unfold State.frame?
  rw [List.getElem?_append_left hBound]

theorem lt_of_frame?
    {s : State ι} {position : Nat} {frame : Wire.DecodedFrame}
    (hFrame : s.frame? position = some frame) :
    position < s.published.length := by
  unfold State.frame? at hFrame
  rcases Option.bind_eq_some_iff.mp hFrame with
    ⟨bytes, hBytes, _⟩
  exact (List.getElem?_eq_some_iff.mp hBytes).1

/- Nothing that the buses have in hand is touched. -/
theorem Synced.keep
    {trace : List (Event ι)} {s s' : State ι} {e : Event ι}
    (hSynced : Synced trace s)
    (hEvent : e.routedAt? = none)
    (hLength : s.published.length ≤ s'.published.length)
    (hFrame :
      ∀ position < s.published.length,
        s'.frame? position = s.frame? position)
    (hReceived :
      ∀ i, (s'.instances i).received =
        (s.instances i).received)
    (hRouting :
      ∀ i, (s'.instances i).loop.routing =
        (s.instances i).loop.routing) :
    Synced (trace ++ [e]) s' := by
  have hPassed :
      ∀ i position, s'.Passed i position ↔
        s.Passed i position := by
    intro i position
    unfold State.Passed
    rw [hReceived, hRouting]
  constructor
  case received_le =>
    intro i
    rw [hReceived]
    exact (hSynced.received_le i).trans hLength
  case routing =>
    intro i message hSome
    rw [hRouting] at hSome
    rcases hSynced.routing i message hSome with
      ⟨position, frame, hPosition, hFound, hMessage⟩
    refine ⟨position, frame, (hReceived i).trans hPosition,
      ?_, hMessage⟩
    rw [hFrame position (lt_of_frame? hFound), hFound]
  case routed =>
    intro i position message result sent hMem
    rcases List.mem_append.mp hMem with hOld | hNew
    · rcases hSynced.routed i position message result sent
        hOld with ⟨hBefore, frame, hFound, hMessage⟩
      refine ⟨(hPassed i position).mpr hBefore, frame, ?_,
        hMessage⟩
      rw [hFrame position (lt_of_frame? hFound), hFound]
    · rw [← List.mem_singleton.mp hNew] at hEvent
      cases hEvent
  case complete =>
    intro i position frame hAfter hFound
    have hBefore := (hPassed i position).mp hAfter
    rw [hFrame position (Nat.lt_of_lt_of_le hBefore.1
      (hSynced.received_le i))] at hFound
    rw [List.filterMap_append, Lists.filterMap_singleton]
    exact List.mem_append_left _
      (hSynced.complete i position frame hBefore hFound)
  case once =>
    rw [List.filterMap_append, Lists.filterMap_singleton, hEvent,
      Option.toList_none, List.append_nil]
    exact hSynced.once

variable [DecidableEq ι]

/- A bus receives the next frame. -/
theorem Synced.receive
    {trace : List (Event ι)} {s : State ι} {i : ι}
    {bytes : Bytes} {loop : ReceiveLoop.State}
    (hSynced : Synced trace s)
    (hNext :
      s.published[(s.instances i).received]? = some bytes)
    (hLoop :
      ReceiveLoop.Step .redis (s.instances i).loop
        (.arrived bytes) loop) :
    Synced (trace ++ [.received i bytes])
      (s.set i
        { received := (s.instances i).received + 1
          loop := loop }) := by
  rcases hLoop.of_arrived with ⟨hIdle, hRouting⟩
  have hHere :
      s.frame? (s.instances i).received = decoded? bytes := by
    unfold State.frame?
    rw [hNext]
    rfl
  constructor
  case received_le =>
    intro j
    by_cases hSame : j = i
    · subst hSame
      rw [set_self, set_published]
      exact (List.getElem?_eq_some_iff.mp hNext).1
    · rw [set_of_ne _ _ hSame]
      exact hSynced.received_le j
  case routing =>
    intro j message hSome
    by_cases hSame : j = i
    · subst hSame
      rw [set_self] at hSome ⊢
      rcases hRouting.1 message hSome with
        ⟨frame, hDecoded, hMessage⟩
      exact ⟨_, frame, rfl, hHere.trans hDecoded, hMessage⟩
    · rw [set_of_ne _ _ hSame] at hSome ⊢
      exact hSynced.routing j message hSome
  case routed =>
    intro j position message result sent hMem
    rcases List.mem_append.mp hMem with hOld | hNew
    · rcases hSynced.routed j position message result sent
        hOld with ⟨hBefore, hFound⟩
      refine ⟨?_, hFound⟩
      by_cases hSame : j = i
      · subst hSame
        unfold State.Passed
        rw [set_self]
        refine ⟨Nat.lt_succ_of_lt hBefore.1, ?_⟩
        intro hLast
        exact absurd hBefore.1
          (Nat.not_lt.mpr (Nat.succ.inj hLast).ge)
      · unfold State.Passed
        rw [set_of_ne _ _ hSame]
        exact hBefore
    · cases List.mem_singleton.mp hNew
  case complete =>
    intro j position frame hAfter hFound
    rw [List.filterMap_append, Lists.filterMap_singleton]
    refine List.mem_append_left _
      (hSynced.complete j position frame ?_ hFound)
    by_cases hSame : j = i
    · subst hSame
      unfold State.Passed at hAfter
      rw [set_self] at hAfter
      rcases Nat.lt_succ_iff_lt_or_eq.mp hAfter.1 with
        hBefore | rfl
      · exact ⟨hBefore, fun _ => hIdle⟩
      · have hDecoded := hHere.symm.trans hFound
        exact absurd (hAfter.2 rfl) (hRouting.2 frame hDecoded)
    · unfold State.Passed at hAfter
      rw [set_of_ne _ _ hSame] at hAfter
      exact hAfter
  case once =>
    rw [List.filterMap_append, Lists.filterMap_singleton]
    simpa [Event.routedAt?] using hSynced.once

/- A bus routes the frame that it has received last. -/
theorem Synced.route
    {trace : List (Event ι)} {s : State ι} {i : ι}
    {position : Nat} {message : RawMessage}
    {result : Except BusError Unit} {sent : List ChannelId}
    {loop : ReceiveLoop.State}
    (hSynced : Synced trace s)
    (hPosition : (s.instances i).received = position + 1)
    (hLoop :
      ReceiveLoop.Step .redis (s.instances i).loop
        (.routed message result) loop) :
    Synced
      (trace ++ [.routed i position message result sent])
      (s.set i { s.instances i with loop := loop }) := by
  rcases hLoop.of_routed with ⟨hRouting, _, rfl⟩
  have hDone :
      ((s.instances i).loop.route message).routing = none :=
    rfl
  have hBefore : ∀ j q, j ≠ i ∨ q ≠ position →
      (State.Passed (s.set i
          { s.instances i with
            loop := (s.instances i).loop.route message }) j q ↔
        s.Passed j q) := by
    intro j q hOther
    unfold State.Passed
    by_cases hSame : j = i
    · subst hSame
      rw [set_self, hPosition]
      have hNe : q ≠ position := by
        rcases hOther with hFalse | hNe
        · exact absurd rfl hFalse
        · exact hNe
      simp [hNe]
    · rw [set_of_ne _ _ hSame]
  constructor
  case received_le =>
    intro j
    by_cases hSame : j = i
    · subst hSame
      rw [set_self]
      exact hSynced.received_le j
    · rw [set_of_ne _ _ hSame]
      exact hSynced.received_le j
  case routing =>
    intro j other hSome
    by_cases hSame : j = i
    · subst hSame
      rw [set_self] at hSome
      rw [hDone] at hSome
      cases hSome
    · rw [set_of_ne _ _ hSame] at hSome ⊢
      exact hSynced.routing j other hSome
  case routed =>
    intro j q other result' sent' hMem
    rcases List.mem_append.mp hMem with hOld | hNew
    · rcases hSynced.routed j q other result' sent' hOld with
        ⟨hPassed, hFound⟩
      refine ⟨(hBefore j q ?_).mpr hPassed, hFound⟩
      by_contra hNot
      rw [not_or, not_ne_iff, not_ne_iff] at hNot
      rcases hNot with ⟨rfl, rfl⟩
      have hIdle := hPassed.2 hPosition.symm
      rw [hRouting] at hIdle
      cases hIdle
    · cases List.mem_singleton.mp hNew
      rcases hSynced.routing i message hRouting with
        ⟨position', frame, hSame, hFound⟩
      rw [hPosition] at hSame
      cases hSame
      refine ⟨⟨?_, fun _ => ?_⟩, frame, hFound⟩
      · rw [set_self, hPosition]
        exact Nat.lt_succ_self _
      · rw [set_self]
        exact hDone
  case complete =>
    intro j q frame hAfter hFound
    rw [List.filterMap_append, Lists.filterMap_singleton]
    by_cases hSame : j = i ∧ q = position
    · rcases hSame with ⟨rfl, rfl⟩
      exact List.mem_append_right _ (List.mem_singleton_self _)
    · refine List.mem_append_left _
        (hSynced.complete j q frame ?_ hFound)
      exact (hBefore j q (not_and_or.mp hSame)).mp hAfter
  case once =>
    rw [List.filterMap_append, Lists.filterMap_singleton]
    refine List.nodup_append.mpr
      ⟨hSynced.once, List.nodup_singleton _, ?_⟩
    intro x hOld y hNew hEq
    cases List.mem_singleton.mp hNew
    cases hEq
    rcases List.mem_filterMap.mp hOld with ⟨e, hMem, hEvent⟩
    cases e with
    | routed j q other result' sent' =>
        cases hEvent
        have hIdle := (hSynced.routed _ _ _ _ _ hMem).1.2
          hPosition.symm
        rw [hRouting] at hIdle
        cases hIdle
    | _ => cases hEvent

theorem Synced.step
    {trace : List (Event ι)} {s s' : State ι} {e : Event ι}
    (hSynced : Synced trace s)
    (hStep : Step s e s') :
    Synced (trace ++ [e]) s' := by
  cases hStep with
  | publish =>
      refine hSynced.keep rfl (by simp) ?_ (fun _ => rfl)
        (fun _ => rfl)
      intro position hBound
      exact frame?_append hBound _
  | receive hNext hLoop => exact hSynced.receive hNext hLoop
  | route hPosition hLoop =>
      exact hSynced.route hPosition hLoop
  | @client i event loop hLoop =>
      refine hSynced.keep rfl (Nat.le_refl _) (fun _ _ => rfl)
        ?_ ?_
      · intro j
        by_cases hSame : j = i
        · subst hSame
          rw [set_self]
        · rw [set_of_ne _ _ hSame]
      · intro j
        by_cases hSame : j = i
        · subst hSame
          rw [set_self]
          exact hLoop.of_client
        · rw [set_of_ne _ _ hSame]

theorem synced_of_reachable
    {trace : List (Event ι)} {s : State ι}
    (hReach : (lts ι).Reachable trace s) :
    Synced trace s := by
  apply hReach.invariant
  · rintro s rfl
    exact Synced.start
  · intro trace s e s' _ hSynced hStep
    exact hSynced.step hStep

end RedisChannel

end Bus

end Qanat
