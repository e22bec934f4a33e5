import Qanat.Http.Adapter
import Qanat.Library.Channels
import Qanat.Library.Lts

/-
  An HTTP source: the requests that the server hands to it,
  the bounded channel they share and the stream at its other
  end.

  Every request is a task of its own, so bodies are read,
  numbers are taken and messages are sent in any order, and
  a client may go away at any time.  The server and the
  clients are outside.

  Main declarations:
    * `HttpSource`, `HttpSource.withCapacity`
    * `Source.State`, `Source.Step`, `Source.lts`
    * `Source.accepted_iff_queued`
    * `Source.Accounts`, `Source.source_accounts_for_requests`
-/

------------------------------------------------------------
-- Sources and Their Requests
------------------------------------------------------------

namespace Qanat

namespace Http

open Router (RouteMessage)

/- The channel of a source and its limit for bodies. -/
structure HttpSource where
  capacity : Nat
  bodyLimit : Nat
  capacity_pos : 0 < capacity

def defaultHttpSourceCapacity : Nat := 64

def defaultHttpBodyLimit : Nat := 2 * 1024 * 1024

namespace HttpSource

/-
  A capacity of zero becomes one.  Above the limit of tokio's
  channels there is no source: `mpsc::channel` panics.
-/
def withCapacity (capacity : Nat) : HttpSource where
  capacity := max capacity 1
  bodyLimit := defaultHttpBodyLimit
  capacity_pos := by omega

def new : HttpSource :=
  withCapacity defaultHttpSourceCapacity

def withBodyLimit
    (source : HttpSource) (bodyLimit : Nat) : HttpSource :=
  { source with bodyLimit := bodyLimit }

end HttpSource

inductive StatusCode where
| accepted
| payloadTooLarge
| serviceUnavailable
deriving DecidableEq, Repr

def StatusCode.code : StatusCode → Nat
| .accepted => 202
| .payloadTooLarge => 413
| .serviceUnavailable => 503

namespace Source

/- A request the server has handed to the source. -/
abbrev RequestId := Nat

/-
  Where `enqueue_request` is: it reads the body, or waits for
  room in the channel.  The response is there when it ends,
  unless the client has gone away first.
-/
inductive RequestPhase where
| reading
| sending (message : RouteMessage)
| answered (status : StatusCode)
| disconnected

/- The future of `enqueue_request` still exists. -/
def RequestPhase.IsPending : RequestPhase → Prop
| .reading => True
| .sending _ => True
| _ => False

/- The message of a request that waits for room. -/
def RequestPhase.message? : RequestPhase → Option RouteMessage
| .sending message => some message
| _ => none

/- The response of a request, once there is one. -/
def RequestPhase.status? : RequestPhase → Option StatusCode
| .answered status => some status
| _ => none

structure Request where
  incoming : IncomingRequest
  phase : RequestPhase

/- The receiver of the channel, which `open` takes. -/
inductive Receiver where
| held
| streaming
| dropped
deriving DecidableEq, Repr

/-
  `nextRequestId` is the counter that all HTTP sources of a
  process share.
-/
structure State where
  requests : List Request
  buffer : List RouteMessage
  receiver : Receiver
  nextRequestId : UInt64

def State.setPhase
    (s : State) (r : RequestId) (request : Request)
    (phase : RequestPhase) : State :=
  { s with
    requests :=
      s.requests.set r { request with phase := phase } }

/- `NEXT_HTTP_REQUEST_ID.fetch_add(1, ..)`. -/
def State.takeNumber (s : State) : State :=
  { s with nextRequestId := s.nextRequestId + 1 }

def alreadyOpened : BusError :=
  .internal "HTTP source already opened"

/-
  `disconnected` and `dropped` have the messages that go with
  a request and with the receiver.
-/
inductive Event where
| arrived (r : RequestId) (incoming : IncomingRequest)
| tooLarge (r : RequestId)
| numbered (r : RequestId) (message : RouteMessage)
| numberedElsewhere (number : UInt64)
| queued (r : RequestId) (message : RouteMessage)
| refused (r : RequestId) (message : RouteMessage)
| disconnected
    (r : RequestId) (message : Option RouteMessage)
| opened
| openFailed (error : BusError)
| yielded (message : RouteMessage)
| dropped (lost : List RouteMessage)

end Source

end Http

end Qanat

------------------------------------------------------------
-- Steps
------------------------------------------------------------

namespace Qanat

namespace Http

namespace Source

open Transition
open Router (RouteMessage)
open Bus (HeaderIteration)

/- The steps of all requests of a source and of its stream. -/
inductive Step (source : HttpSource) :
    State → Event → State → Prop where
| arrive {s : State} (incoming : IncomingRequest) :
    Step source s (.arrived s.requests.length incoming)
      { s with
        requests := s.requests ++ [⟨incoming, .reading⟩] }
-- `to_bytes` fails
| reject
    {s : State} {r : RequestId} {request : Request}
    {iteration : HeaderIteration} {fresh : String} :
    s.requests[r]? = some request →
    request.phase = .reading →
    enqueueRequest iteration fresh s.nextRequestId
        source.bodyLimit request.incoming = none →
    Step source s (.tooLarge r)
      (s.setPhase r request (.answered .payloadTooLarge))
| number
    {s : State} {r : RequestId} {request : Request}
    {iteration : HeaderIteration} {fresh : String}
    {message : RouteMessage} :
    s.requests[r]? = some request →
    request.phase = .reading →
    enqueueRequest iteration fresh s.nextRequestId
        source.bodyLimit request.incoming = some message →
    Step source s (.numbered r message)
      (s.setPhase r request (.sending message)).takeNumber
| elsewhere {s : State} :
    Step source s (.numberedElsewhere s.nextRequestId)
      s.takeNumber
-- `sender.send(message)`
| queue
    {s : State} {r : RequestId} {request : Request}
    {message : RouteMessage} :
    s.requests[r]? = some request →
    request.phase = .sending message →
    s.receiver ≠ .dropped →
    s.buffer.length < source.capacity →
    Step source s (.queued r message)
      { s.setPhase r request (.answered .accepted) with
        buffer := s.buffer ++ [message] }
| refuse
    {s : State} {r : RequestId} {request : Request}
    {message : RouteMessage} :
    s.requests[r]? = some request →
    request.phase = .sending message →
    s.receiver = .dropped →
    Step source s (.refused r message)
      (s.setPhase r request (.answered .serviceUnavailable))
| disconnect
    {s : State} {r : RequestId} {request : Request} :
    s.requests[r]? = some request →
    request.phase.IsPending →
    Step source s
      (.disconnected r request.phase.message?)
      (s.setPhase r request .disconnected)
-- `open`
| «open» {s : State} :
    s.receiver = .held →
    Step source s .opened { s with receiver := .streaming }
| openFail {s : State} :
    s.receiver ≠ .held →
    Step source s (.openFailed alreadyOpened) s
-- the stream
| «yield»
    {s : State} {message : RouteMessage}
    {rest : List RouteMessage} :
    s.receiver = .streaming →
    s.buffer = message :: rest →
    Step source s (.yielded message)
      { s with buffer := rest }
| drop {s : State} :
    s.receiver ≠ .dropped →
    Step source s (.dropped s.buffer)
      { s with buffer := [], receiver := .dropped }

/- The counter may have been used before. -/
def lts (source : HttpSource) : Lts State Event where
  initial s :=
    s.requests = [] ∧ s.buffer = [] ∧ s.receiver = .held
  step := Step source

end Source

end Http

end Qanat

------------------------------------------------------------
-- What a Run Shows
------------------------------------------------------------

namespace Qanat

namespace Http

namespace Source

open Transition
open Router (RouteMessage)
open Bus (HeaderIteration)

variable {source : HttpSource}

/- The response a request gets with an event. -/
def Event.answer? (r : RequestId) :
    Event → Option StatusCode
| .tooLarge q => if q = r then some .payloadTooLarge else none
| .queued q _ => if q = r then some .accepted else none
| .refused q _ =>
    if q = r then some .serviceUnavailable else none
| _ => none

def Event.queued? : Event → Option RouteMessage
| .queued _ message => some message
| _ => none

def Event.yielded? : Event → Option RouteMessage
| .yielded message => some message
| _ => none

def Event.lost : Event → List RouteMessage
| .dropped lost => lost
| _ => []

/- The number taken from the counter with an event. -/
def Event.number? : Event → Option UInt64
| .numbered _ message => some message.id
| .numberedElsewhere number => some number
| _ => none

/- The response of a request so far. -/
def State.status? (s : State) (r : RequestId) :
    Option StatusCode :=
  (s.requests[r]?).bind (fun request => request.phase.status?)

/- The message is what `enqueue_request` made of the request. -/
def IsMessageOf
    (source : HttpSource) (incoming : IncomingRequest)
    (message : RouteMessage) : Prop :=
  ∃ (iteration : HeaderIteration) (fresh : String)
    (number : UInt64),
    enqueueRequest iteration fresh number source.bodyLimit
      incoming = some message

/- The body was read and is within the limit. -/
def Fits
    (source : HttpSource) (incoming : IncomingRequest) :
    Prop :=
  ∃ payload, incoming.body = some payload ∧
    payload.length ≤ source.bodyLimit

theorem fits_iff
    {incoming : IncomingRequest} {iteration : HeaderIteration}
    {fresh : String} {number : UInt64} :
    Fits source incoming ↔
      ∃ message,
        enqueueRequest iteration fresh number source.bodyLimit
          incoming = some message := by
  unfold Fits enqueueRequest
  cases hBody : incoming.body with
  | none => simp
  | some payload =>
      by_cases hLarge : source.bodyLimit < payload.length
      · simp [hLarge]
      · simp [hLarge, Nat.not_lt.mp hLarge]

/- The requests after one of them has changed its phase. -/
theorem setPhase_requests
    {s : State} {r q : RequestId} {request : Request}
    (hRequest : s.requests[r]? = some request)
    (phase : RequestPhase) :
    (s.setPhase r request phase).requests[q]? =
      if r = q then some { request with phase := phase }
      else s.requests[q]? :=
  List.getElem?_set_of_lt' _ _
    (List.getElem?_eq_some_iff.mp hRequest).1

theorem status?_setPhase
    {s : State} {r q : RequestId} {request : Request}
    (hRequest : s.requests[r]? = some request)
    (phase : RequestPhase) :
    (s.setPhase r request phase).status? q =
      if r = q then phase.status? else s.status? q := by
  unfold State.status?
  rw [setPhase_requests hRequest]
  split <;> rfl

theorem RequestPhase.IsPending.status?_eq_none
    {phase : RequestPhase}
    (hPending : phase.IsPending) :
    phase.status? = none := by
  cases phase with
  | reading | sending => rfl
  | answered | disconnected => exact hPending.elim

/- A request is answered with the event that says so. -/
theorem Step.answers
    {s s' : State} {e : Event}
    (hStep : Step source s e s')
    (r : RequestId) :
    (s.status? r).toList ++ (e.answer? r).toList =
      (s'.status? r).toList := by
  have hMoved :
      ∀ {q : RequestId} {request : Request}
        (phase : RequestPhase),
        s.requests[q]? = some request →
        request.phase.IsPending →
          (s.status? r).toList ++
              (if q = r then phase.status?
                else none).toList =
            ((s.setPhase q request phase).status? r).toList :=
    by
      intro q request phase hRequest hPending
      rw [status?_setPhase hRequest]
      by_cases hEq : q = r
      · subst hEq
        simp [State.status?, hRequest,
          hPending.status?_eq_none]
      · simp [hEq]
  cases hStep with
  | arrive incoming =>
      have hSame :
          ({ s with requests :=
              s.requests ++ [⟨incoming, .reading⟩] } :
                State).status? r = s.status? r := by
        unfold State.status?
        rcases Nat.lt_trichotomy r s.requests.length with
          hOld | hNew | hBeyond
        · rw [List.getElem?_append_left hOld]
        · subst hNew
          simp [RequestPhase.status?]
        · rw [List.getElem?_eq_none (by simp; omega),
            List.getElem?_eq_none (by omega)]
      rw [hSame]
      simp [Event.answer?]
  | reject hRequest hPhase hNone =>
      exact hMoved (.answered .payloadTooLarge) hRequest
        (by simp [hPhase, RequestPhase.IsPending])
  | @number q request _ _ message hRequest hPhase hMessage =>
      have hSent := hMoved (.sending message) hRequest
        (by simp [hPhase, RequestPhase.IsPending])
      simpa [RequestPhase.status?, Event.answer?,
        State.status?, State.takeNumber] using hSent
  | queue hRequest hPhase hAlive hRoom =>
      exact hMoved (.answered .accepted) hRequest
        (by simp [hPhase, RequestPhase.IsPending])
  | refuse hRequest hPhase hGone =>
      exact hMoved (.answered .serviceUnavailable) hRequest
        (by simp [hPhase, RequestPhase.IsPending])
  | disconnect hRequest hPending =>
      have hGone := hMoved .disconnected hRequest hPending
      simpa [RequestPhase.status?, Event.answer?] using hGone
  | _ => simp [Event.answer?, State.status?, State.takeNumber]

/- The response of a request is the one its run shows. -/
theorem answers_of_reachable
    {trace : List Event} {s : State}
    (hReach : (lts source).Reachable trace s)
    (r : RequestId) :
    trace.filterMap (Event.answer? r) =
      (s.status? r).toList := by
  induction hReach with
  | @initial s hInit =>
      have hNone : s.requests = [] := hInit.1
      simp [State.status?, hNone]
  | @step trace s s' e hReach hStep ih =>
      rw [List.filterMap_append, Lists.filterMap_singleton, ih]
      exact Step.answers hStep r

/-
  The channel: what has been queued has been yielded, waits
  in the channel or has gone with the receiver.
-/
structure Holds
    (source : HttpSource) (trace : List Event) (s : State) :
    Prop where
  fifo :
    trace.filterMap Event.queued? =
      trace.filterMap Event.yielded? ++ s.buffer ++
        trace.flatMap Event.lost
  room : s.buffer.length ≤ source.capacity
  kept :
    s.receiver ≠ .dropped → trace.flatMap Event.lost = []
  gone : s.receiver = .dropped → s.buffer = []

/- An event that the channel does not see. -/
theorem Holds.skip
    {trace : List Event} {s s' : State} {e : Event}
    (hHolds : Holds source trace s)
    (hQueued : e.queued? = none)
    (hYielded : e.yielded? = none)
    (hLost : e.lost = [])
    (hBuffer : s'.buffer = s.buffer)
    (hReceiver :
      s'.receiver = .dropped ↔ s.receiver = .dropped) :
    Holds source (trace ++ [e]) s' where
  fifo := by
    rw [List.filterMap_append, Lists.filterMap_singleton,
      List.filterMap_append, Lists.filterMap_singleton, hQueued,
      hYielded, hBuffer, List.flatMap_append]
    simpa [hLost] using hHolds.fifo
  room := by
    rw [hBuffer]
    exact hHolds.room
  kept := by
    intro hAlive
    rw [List.flatMap_append]
    simpa [hLost] using
      hHolds.kept (fun hGone => hAlive (hReceiver.mpr hGone))
  gone := by
    intro hGone
    rw [hBuffer]
    exact hHolds.gone (hReceiver.mp hGone)

/- One step of the channel. -/
theorem Holds.step
    {trace : List Event} {s s' : State} {e : Event}
    (hHolds : Holds source trace s)
    (hStep : Step source s e s') :
    Holds source (trace ++ [e]) s' := by
  cases hStep with
  | queue hRequest hPhase hAlive hRoom =>
      have hLost := hHolds.kept hAlive
      refine ⟨?_, ?_, fun _ => by simp [hLost, Event.lost],
        fun hGone => absurd hGone hAlive⟩
      · rw [List.filterMap_append, Lists.filterMap_singleton,
          List.filterMap_append, Lists.filterMap_singleton,
          hHolds.fifo, List.flatMap_append]
        simp [hLost, Event.queued?, Event.yielded?,
          Event.lost]
      · rw [List.length_append]
        exact hRoom
  | @«yield» message rest hStreaming hBuffer =>
      have hAlive : s.receiver ≠ .dropped := by
        simp [hStreaming]
      have hLost := hHolds.kept hAlive
      refine ⟨?_, ?_, fun _ => by simp [hLost, Event.lost],
        fun hGone => absurd hGone hAlive⟩
      · rw [List.filterMap_append, Lists.filterMap_singleton,
          List.filterMap_append, Lists.filterMap_singleton,
          hHolds.fifo, List.flatMap_append]
        simp [hLost, hBuffer, Event.queued?, Event.yielded?,
          Event.lost]
      · have hRoom := hHolds.room
        rw [hBuffer] at hRoom
        exact Nat.le_of_succ_le hRoom
  | drop hAlive =>
      have hLost := hHolds.kept hAlive
      refine ⟨?_, Nat.zero_le _,
        fun hNot => absurd rfl hNot, fun _ => rfl⟩
      rw [List.filterMap_append, Lists.filterMap_singleton,
        List.filterMap_append, Lists.filterMap_singleton,
        hHolds.fifo, List.flatMap_append]
      simp [hLost, Event.queued?, Event.yielded?, Event.lost]
  | «open» hHeld =>
      exact hHolds.skip rfl rfl rfl rfl (by simp [hHeld])
  | _ => exact hHolds.skip rfl rfl rfl rfl Iff.rfl

theorem holds_of_reachable
    {trace : List Event} {s : State}
    (hReach : (lts source).Reachable trace s) :
    Holds source trace s := by
  induction hReach with
  | @initial s hInit =>
      rcases hInit with ⟨_, hEmpty, hHeld⟩
      exact ⟨by simp [hEmpty], by simp [hEmpty], by simp,
        by simp [hHeld]⟩
  | step _ hStep ih => exact ih.step hStep

end Source

end Http

end Qanat

------------------------------------------------------------
-- The Messages and Their Numbers
------------------------------------------------------------

namespace Qanat

namespace Http

namespace Source

open Transition
open Router (RouteMessage)

variable {source : HttpSource}

/- The numbers of the messages that wait for room. -/
def State.sendingNumbers (s : State) : List UInt64 :=
  (s.requests.filterMap
    (fun request => request.phase.message?)).map
      RouteMessage.id

/- The number that leaves with an event. -/
def Event.spent? : Event → Option UInt64
| .numberedElsewhere number => some number
| .queued _ message => some message.id
| .refused _ message => some message.id
| .disconnected _ message => message.map RouteMessage.id
| _ => none

/- The waiting messages after a request moves on. -/
theorem sendingNumbers_setPhase
    {s : State} {r : RequestId} {request : Request}
    (hRequest : s.requests[r]? = some request)
    (phase : RequestPhase) :
    ((request.phase.message?.map RouteMessage.id).toList ++
        (s.setPhase r request phase).sendingNumbers).Perm
      ((phase.message?.map RouteMessage.id).toList ++
        s.sendingNumbers) := by
  have hMoved := Lists.filterMap_set_perm
    (fun request : Request =>
      request.phase.message?.map RouteMessage.id)
    hRequest { request with phase := phase }
  simpa [State.sendingNumbers, State.setPhase,
    List.map_filterMap] using hMoved

/- Every number that is taken goes one way. -/
theorem Step.numbers
    {s s' : State} {e : Event}
    (hStep : Step source s e s') :
    (s.sendingNumbers ++ e.number?.toList).Perm
      (e.spent?.toList ++ s'.sendingNumbers) := by
  cases hStep with
  | arrive incoming =>
      simp [Event.number?, Event.spent?, State.sendingNumbers,
        RequestPhase.message?]
  | reject hRequest hPhase hNone =>
      have hMoved := sendingNumbers_setPhase hRequest
        (.answered .payloadTooLarge)
      rw [hPhase] at hMoved
      simpa [RequestPhase.message?, Event.number?,
        Event.spent?] using hMoved.symm
  | @number r request _ _ message hRequest hPhase hMessage =>
      have hMoved := sendingNumbers_setPhase hRequest
        (.sending message)
      rw [hPhase] at hMoved
      exact List.perm_append_comm.trans hMoved.symm
  | elsewhere => exact List.perm_append_comm
  | @queue r request message hRequest hPhase hAlive hRoom =>
      have hMoved := sendingNumbers_setPhase hRequest
        (.answered .accepted)
      rw [hPhase] at hMoved
      show (s.sendingNumbers ++ []).Perm
        ([message.id] ++ (s.setPhase r request
          (.answered .accepted)).sendingNumbers)
      simpa [RequestPhase.message?] using hMoved.symm
  | refuse hRequest hPhase hGone =>
      have hMoved := sendingNumbers_setPhase hRequest
        (.answered .serviceUnavailable)
      rw [hPhase] at hMoved
      simpa [RequestPhase.message?, Event.number?,
        Event.spent?] using hMoved.symm
  | disconnect hRequest hPending =>
      have hMoved := sendingNumbers_setPhase hRequest
        .disconnected
      simpa [RequestPhase.message?, Event.number?,
        Event.spent?] using hMoved.symm
  | _ => simp [Event.number?, Event.spent?,
      State.sendingNumbers]

/- Within a round no two queued messages share a number. -/
theorem queued_numbers_nodup
    {trace : List Event} {s : State}
    (hReach : (lts source).Reachable trace s)
    (hRound :
      (trace.filterMap Event.number?).length ≤ 2 ^ 64) :
    ((trace.filterMap Event.queued?).map
      RouteMessage.id).Nodup := by
  rcases hReach.counted Event.number? State.nextRequestId
      (by
        intro s e s' hStep
        cases hStep with
        | number hRequest hPhase hMessage =>
            rcases enqueueRequest_eq_some hMessage with
              ⟨payload, rfl⟩
            exact Or.inr ⟨rfl, rfl⟩
        | elsewhere => exact Or.inr ⟨rfl, rfl⟩
        | _ => exact Or.inl ⟨rfl, rfl⟩) with
    ⟨first, hNumbers, _⟩
  have hDistinct :
      (trace.filterMap Event.number?).Nodup := by
    rw [hNumbers]
    exact Counters.nodup_numbers hRound
  have hWays := hReach.conserved
    (fun e => e.number?.toList) (fun e => e.spent?.toList)
    State.sendingNumbers
    (by
      intro s hInit
      simp [State.sendingNumbers, hInit.1])
    (fun s e s' hStep => Step.numbers hStep)
  rw [← List.filterMap_eq_flatMap_toList,
    ← List.filterMap_eq_flatMap_toList] at hWays
  have hSpent : (trace.filterMap Event.spent?).Nodup :=
    (List.nodup_append.mp
      (hWays.nodup_iff.mp hDistinct)).1
  rw [List.map_filterMap]
  refine List.Nodup.sublist
    (Lists.filterMap_sublist ?_ trace) hSpent
  intro e number hNumber
  cases e with
  | queued => exact hNumber
  | _ => cases hNumber

end Source

end Http

end Qanat

------------------------------------------------------------
-- Requests and Responses
------------------------------------------------------------

namespace Qanat

namespace Http

namespace Source

open Transition
open Router (RouteMessage)

variable {source : HttpSource}

/- What is true of a request in each of its phases. -/
def PhaseSound
    (source : HttpSource) (receiver : Receiver)
    (incoming : IncomingRequest) : RequestPhase → Prop
| .reading => True
| .sending message => IsMessageOf source incoming message
| .answered .accepted => Fits source incoming
| .answered .payloadTooLarge => ¬ Fits source incoming
| .answered .serviceUnavailable =>
    Fits source incoming ∧ receiver = .dropped
| .disconnected => True

def State.Sound
    (source : HttpSource) (s : State) : Prop :=
  ∀ (r : RequestId) (request : Request),
    s.requests[r]? = some request →
      PhaseSound source s.receiver request.incoming
        request.phase

theorem IsMessageOf.fits
    {incoming : IncomingRequest} {message : RouteMessage}
    (hMessage : IsMessageOf source incoming message) :
    Fits source incoming := by
  rcases hMessage with ⟨iteration, fresh, number, hSome⟩
  exact fits_iff.mpr ⟨message, hSome⟩

/- A receiver that is gone stays so. -/
theorem PhaseSound.mono
    {receiver receiver' : Receiver}
    {incoming : IncomingRequest} {phase : RequestPhase}
    (hSound : PhaseSound source receiver incoming phase)
    (hGone :
      receiver = .dropped → receiver' = .dropped) :
    PhaseSound source receiver' incoming phase := by
  cases phase with
  | answered status =>
      cases status with
      | serviceUnavailable => exact ⟨hSound.1, hGone hSound.2⟩
      | _ => exact hSound
  | _ => exact hSound

/- One request moves on. -/
theorem State.Sound.setPhase
    {s : State} {r : RequestId} {request : Request}
    {phase : RequestPhase}
    (hSound : s.Sound source)
    (hRequest : s.requests[r]? = some request)
    (hPhase :
      PhaseSound source s.receiver request.incoming phase) :
    (s.setPhase r request phase).Sound source := by
  intro q other hOther
  rcases (Lists.getElem?_set_eq_some hRequest).mp hOther with
    ⟨_, rfl⟩ | ⟨_, hSame⟩
  · exact hPhase
  · exact hSound q other hSame

/- Every step keeps the requests sound. -/
theorem State.Sound.step
    {s s' : State} {e : Event}
    (hSound : s.Sound source)
    (hStep : Step source s e s') :
    s'.Sound source := by
  cases hStep with
  | arrive incoming =>
      intro r request hRequest
      rcases Lists.getElem?_append_singleton_eq_some.mp
          hRequest with hOld | ⟨_, rfl⟩
      · exact hSound r request hOld
      · trivial
  | reject hRequest hPhase hNone =>
      apply hSound.setPhase hRequest
      intro hFits
      rcases fits_iff.mp hFits with ⟨message, hSome⟩
      rw [hNone] at hSome
      cases hSome
  | number hRequest hPhase hMessage =>
      exact hSound.setPhase hRequest ⟨_, _, _, hMessage⟩
  | queue hRequest hPhase hAlive hRoom =>
      have hMessage := hSound _ _ hRequest
      rw [hPhase] at hMessage
      exact hSound.setPhase hRequest (IsMessageOf.fits hMessage)
  | refuse hRequest hPhase hGone =>
      have hMessage := hSound _ _ hRequest
      rw [hPhase] at hMessage
      exact hSound.setPhase hRequest
        ⟨IsMessageOf.fits hMessage, hGone⟩
  | disconnect hRequest hPending =>
      exact hSound.setPhase hRequest trivial
  | «open» hHeld =>
      intro r request hRequest
      exact (hSound r request hRequest).mono
        (fun hGone => by simp [hHeld] at hGone)
  | drop hAlive =>
      intro r request hRequest
      exact (hSound r request hRequest).mono (fun _ => rfl)
  | _ => exact hSound

theorem sound_of_reachable
    {trace : List Event} {s : State}
    (hReach : (lts source).Reachable trace s) :
    s.Sound source := by
  apply hReach.stateInvariant (P := State.Sound source)
  · intro s hInit r request hRequest
    simp [hInit.1] at hRequest
  · intro s e s' hSound hStep
    exact hSound.step hStep

/- A request is never forgotten. -/
theorem Step.request_kept
    {s s' : State} {e : Event}
    (hStep : Step source s e s')
    {r : RequestId} {request : Request}
    (hRequest : s.requests[r]? = some request) :
    ∃ phase,
      s'.requests[r]? =
        some { request with phase := phase } := by
  have hMoved :
      ∀ {q : RequestId} {other : Request}
        (phase : RequestPhase),
        s.requests[q]? = some other →
          ∃ phase',
            (s.setPhase q other phase).requests[r]? =
              some { request with phase := phase' } := by
    intro q other phase hOther
    rw [setPhase_requests hOther]
    by_cases hEq : q = r
    · subst hEq
      rw [hRequest] at hOther
      cases hOther
      exact ⟨phase, if_pos rfl⟩
    · exact ⟨request.phase, by rw [if_neg hEq, hRequest]⟩
  cases hStep with
  | arrive incoming =>
      exact ⟨request.phase,
        Lists.getElem?_append_singleton_eq_some.mpr
          (Or.inl hRequest)⟩
  | reject hOther | number hOther | queue hOther
  | refuse hOther | disconnect hOther =>
      exact hMoved _ hOther
  | _ => exact ⟨request.phase, hRequest⟩

/- What is queued for a request is its message. -/
theorem message_of_queued
    {trace : List Event} {s : State}
    (hReach : (lts source).Reachable trace s)
    {r : RequestId} {message : RouteMessage}
    (hQueued : Event.queued r message ∈ trace) :
    ∃ request, s.requests[r]? = some request ∧
      IsMessageOf source request.incoming message := by
  induction hReach with
  | initial => cases hQueued
  | @step trace s s' e hReach hStep ih =>
      rcases List.mem_append.mp hQueued with hOld | hNew
      · rcases ih hOld with ⟨request, hRequest, hMessage⟩
        rcases Step.request_kept hStep hRequest with
          ⟨phase, hRequest'⟩
        exact ⟨_, hRequest', hMessage⟩
      · rw [← List.mem_singleton.mp hNew] at hStep
        cases hStep with
        | @queue _ request _ hRequest hPhase hAlive hRoom =>
            have hMessage :=
              sound_of_reachable hReach _ _ hRequest
            rw [hPhase] at hMessage
            exact ⟨_,
              (setPhase_requests hRequest _).trans
                (if_pos rfl),
              hMessage⟩

/- A request has been accepted if its message is queued. -/
theorem accepted_iff_queued
    {trace : List Event} {s : State}
    (hReach : (lts source).Reachable trace s)
    (r : RequestId) :
    s.status? r = some .accepted ↔
      ∃ message, Event.queued r message ∈ trace := by
  have hAnswers := answers_of_reachable hReach r
  constructor
  · intro hStatus
    have hMem :
        StatusCode.accepted ∈
          trace.filterMap (Event.answer? r) := by
      simp [hAnswers, hStatus]
    rcases List.mem_filterMap.mp hMem with ⟨e, hEvent, hSome⟩
    cases e with
    | queued q message =>
        by_cases hEq : q = r
        · subst hEq
          exact ⟨message, hEvent⟩
        · simp [Event.answer?, hEq] at hSome
    | _ => simp [Event.answer?] at hSome
  · rintro ⟨message, hEvent⟩
    have hMem :
        StatusCode.accepted ∈
          trace.filterMap (Event.answer? r) :=
      List.mem_filterMap.mpr
        ⟨_, hEvent, by simp [Event.answer?]⟩
    rw [hAnswers] at hMem
    simpa using hMem

/- The receiver is taken once. -/
theorem not_held_of_opened
    {trace : List Event} {s : State}
    (hReach : (lts source).Reachable trace s)
    (hOpened : Event.opened ∈ trace) :
    s.receiver ≠ .held := by
  induction hReach with
  | initial => cases hOpened
  | @step trace s s' e hReach hStep ih =>
      rcases List.mem_append.mp hOpened with hOld | hNew
      · have hTaken := ih hOld
        cases hStep with
        | «open» hHeld => exact absurd hHeld hTaken
        | drop hAlive => simp
        | _ => exact hTaken
      · rw [← List.mem_singleton.mp hNew] at hStep
        cases hStep with
        | «open» hHeld => simp

end Source

end Http

end Qanat

------------------------------------------------------------
-- The Account of a Source
------------------------------------------------------------

namespace Qanat

namespace Http

namespace Source

open Transition
open Router (RouteMessage)

variable {source : HttpSource}

/- What clients and the reader of the stream can rely on. -/
structure Accounts
    (source : HttpSource) (trace : List Event) (s : State) :
    Prop where
  holds : Holds source trace s
  answers :
    ∀ r, trace.filterMap (Event.answer? r) =
      (s.status? r).toList
  accepted :
    ∀ r, s.status? r = some .accepted ↔
      ∃ message, Event.queued r message ∈ trace
  messages :
    ∀ r message, Event.queued r message ∈ trace →
      ∃ request, s.requests[r]? = some request ∧
        IsMessageOf source request.incoming message
  responses : s.Sound source
  numbers :
    (trace.filterMap Event.number?).length ≤ 2 ^ 64 →
      ((trace.filterMap Event.queued?).map
        RouteMessage.id).Nodup
  opened :
    ∀ earlier later,
      trace = earlier ++ .opened :: later →
        Event.opened ∉ earlier

/-
  However requests, clients and the reader of the stream
  interleave, a request is answered once, with 202 exactly if
  its own message is in the channel; messages leave the
  channel in the order they entered it, each once, until the
  receiver goes and takes with it those that are left.
-/
theorem source_accounts_for_requests
    {trace : List Event} {s : State}
    (hReach : (lts source).Reachable trace s) :
    Accounts source trace s where
  holds := holds_of_reachable hReach
  answers := answers_of_reachable hReach
  accepted := accepted_iff_queued hReach
  messages := fun _ _ hQueued =>
    message_of_queued hReach hQueued
  responses := sound_of_reachable hReach
  numbers := queued_numbers_nodup hReach
  opened := by
    intro earlier later hTrace hBefore
    rcases hReach.before hTrace with
      ⟨r, r', hPrefix, hStep⟩
    have hTaken := not_held_of_opened hPrefix hBefore
    cases hStep with
    | «open» hHeld => exact hTaken hHeld

/- A small request, without headers and parameters. -/
def sampleRequest : IncomingRequest where
  uri := "/orders"
  pathParameters := ∅
  headers := []
  body := some [1]

def sampleMessage (number : UInt64) : RouteMessage :=
  requestMessage FiniteMap.Iteration.identity "fresh" number
    sampleRequest [1]

/-
  One request is accepted, one is too large, and one is
  refused after the reader of the stream has gone.
-/
def sampleTrace : List Event :=
  [.arrived 0 sampleRequest,
    .arrived 1 { sampleRequest with body := none },
    .numbered 0 (sampleMessage 7),
    .queued 0 (sampleMessage 7),
    .tooLarge 1,
    .opened,
    .openFailed alreadyOpened,
    .arrived 2 sampleRequest,
    .numberedElsewhere 8,
    .numbered 2 (sampleMessage 9),
    .yielded (sampleMessage 7),
    .dropped [],
    .refused 2 (sampleMessage 9)]

theorem sample_reachable :
    ∃ s, (lts HttpSource.new).Reachable sampleTrace s := by
  have h :
      (lts HttpSource.new).Reachable []
        { requests := [], buffer := [], receiver := .held,
          nextRequestId := 7 } :=
    .initial ⟨rfl, rfl, rfl⟩
  have h := h.step (.arrive sampleRequest)
  have h := h.step (.arrive { sampleRequest with body := none })
  have h := h.step
    (@Step.number _ _ 0 _ FiniteMap.Iteration.identity
      "fresh" (sampleMessage 7) rfl rfl rfl)
  have h := h.step
    (@Step.queue _ _ 0 _ (sampleMessage 7) rfl rfl nofun
      (by decide))
  have h := h.step
    (@Step.reject _ _ 1 _ FiniteMap.Iteration.identity
      "fresh" rfl rfl rfl)
  have h := h.step (.open rfl)
  have h := h.step (.openFail nofun)
  have h := h.step (.arrive sampleRequest)
  have h := h.step .elsewhere
  have h := h.step
    (@Step.number _ _ 2 _ FiniteMap.Iteration.identity
      "fresh" (sampleMessage 9) rfl rfl rfl)
  have h := h.step (.yield rfl rfl)
  have h := h.step (.drop nofun)
  have h := h.step
    (@Step.refuse _ _ 2 _ (sampleMessage 9) rfl rfl rfl)
  exact ⟨_, h⟩

/- Each of the requests has got its answer. -/
theorem source_accounts_for_requests_sample :
    ∃ s, (lts HttpSource.new).Reachable sampleTrace s ∧
      Accounts HttpSource.new sampleTrace s := by
  rcases sample_reachable with ⟨s, hReach⟩
  exact ⟨s, hReach, source_accounts_for_requests hReach⟩

end Source

end Http

end Qanat
