import Qanat.Bus.RabbitMq.Settlement
import Qanat.Router.Proxy.Correlation

/-
  A broker proxy over a RabbitMQ bus that others use as well:
  what becomes of the deliveries of its reply subscription.

  The reply task polls its stream and matches what it yields
  to the calls.  It never calls `settle`, and nobody else has
  the messages of its deliveries.

  Main declarations:
    * `Settled.lts`
    * `bus_of_reachable`, `proxy_of_reachable`
    * `replies_settled_iff`
-/

------------------------------------------------------------
-- The Proxy and Its Bus
------------------------------------------------------------

namespace Qanat

namespace Router

namespace Proxy

namespace OverRabbitMq

open Transition
open Bus (RawMessage)
open Bus.RabbitMq (DeliveryId Acker Operation)
open Bus.RabbitMq.Deliveries (StreamId StreamPhase)

/-
  `reply` is the stream of the reply subject once the proxy
  has been initialized, `replies` the ids it has taken from
  the counter.
-/
structure State where
  bus : Bus.RabbitMq.Deliveries.State
  reply : Option StreamId
  replies : List DeliveryId
  proxy : Proxy.State

/- The state after `connect`. -/
def State.start : State where
  bus := .start
  reply := none
  replies := []
  proxy := .start

/-
  `fetched`, `taken` and `stopped` are events of the reply
  stream and of the reply task at once.
-/
inductive Event where
| bus (event : Bus.RabbitMq.Deliveries.Event)
| proxy (event : Proxy.Event)
| launched (stream : StreamId)
| fetched
    (stream : StreamId) (delivery : DeliveryId)
    (message : RawMessage) (acker : Acker) (position : Nat)
| taken
    (stream : StreamId) (delivery : DeliveryId)
    (message : RawMessage) (position : Nat)
    (found : Option CallId)
| stopped (stream : StreamId)

/- What the bus sees of an event. -/
def Event.bus? :
    Event → Option Bus.RabbitMq.Deliveries.Event
| .bus event => some event
| .proxy _ => none
| .launched stream => some (.subscribed stream)
| .fetched stream delivery message acker _ =>
    some (.fetched stream delivery message acker)
| .taken stream delivery message _ _ =>
    some (.yielded stream delivery message)
| .stopped stream => some (.streamDropped stream)

/- What the proxy sees of it. -/
def Event.proxy? : Event → Option Proxy.Event
| .bus _ => none
| .proxy event => some event
| .launched _ => none
| .fetched _ _ message _ position =>
    some (.arrived position message)
| .taken _ _ message position found =>
    some (.taken position message found)
| .stopped _ => some .stopped

/-
  The events of the bus that do not concern the reply task:
  others poll their own streams and settle what these have
  given them.
-/
def State.Foreign (s : State) :
    Bus.RabbitMq.Deliveries.Event → Prop
| .fetched stream _ _ _ => s.reply ≠ some stream
| .yielded stream _ _ => s.reply ≠ some stream
| .streamDropped stream => s.reply ≠ some stream
| .settleCalled _ delivery _ => delivery ∉ s.replies
| _ => True

/- The events of the proxy apart from its reply stream. -/
def Own : Proxy.Event → Prop
| .arrived _ _ => False
| .taken _ _ _ => False
| .stopped => False
| _ => True

inductive Step (config : Config) :
    State → Event → State → Prop where
| bus
    {s : State} {event : Bus.RabbitMq.Deliveries.Event}
    {bus : Bus.RabbitMq.Deliveries.State} :
    s.Foreign event →
    Bus.RabbitMq.Deliveries.Step s.bus event bus →
    Step config s (.bus event) { s with bus := bus }
-- `initialize`
| launch
    {s : State} {stream : StreamId}
    {bus : Bus.RabbitMq.Deliveries.State} :
    s.reply = none →
    Bus.RabbitMq.Deliveries.Step s.bus (.subscribed stream)
      bus →
    Step config s (.launched stream)
      { s with bus := bus, reply := some stream }
| proxy
    {s : State} {stream : StreamId} {event : Proxy.Event}
    {proxy : Proxy.State} :
    s.reply = some stream →
    Own event →
    Proxy.Step config s.proxy event proxy →
    Step config s (.proxy event) { s with proxy := proxy }
-- `subscription.next()`
| fetch
    {s : State} {stream : StreamId} {delivery : DeliveryId}
    {message : RawMessage} {acker : Acker} {position : Nat}
    {bus : Bus.RabbitMq.Deliveries.State}
    {proxy : Proxy.State} :
    s.reply = some stream →
    Bus.RabbitMq.Deliveries.Step s.bus
      (.fetched stream delivery message acker) bus →
    Proxy.Step config s.proxy (.arrived position message)
      proxy →
    Step config s
      (.fetched stream delivery message acker position)
      { s with
        bus := bus
        replies := delivery :: s.replies
        proxy := proxy }
| take
    {s : State} {stream : StreamId} {delivery : DeliveryId}
    {message : RawMessage} {position : Nat}
    {found : Option CallId}
    {bus : Bus.RabbitMq.Deliveries.State}
    {proxy : Proxy.State} :
    s.reply = some stream →
    Bus.RabbitMq.Deliveries.Step s.bus
      (.yielded stream delivery message) bus →
    Proxy.Step config s.proxy
      (.taken position message found) proxy →
    Step config s
      (.taken stream delivery message position found)
      { s with bus := bus, proxy := proxy }
| stop
    {s : State} {stream : StreamId}
    {bus : Bus.RabbitMq.Deliveries.State}
    {proxy : Proxy.State} :
    s.reply = some stream →
    Bus.RabbitMq.Deliveries.Step s.bus
      (.streamDropped stream) bus →
    Proxy.Step config s.proxy .stopped proxy →
    Step config s (.stopped stream)
      { s with bus := bus, proxy := proxy }

/- A proxy that shares a RabbitMQ bus. -/
def lts (config : Config) : Lts State Event where
  initial s := s = State.start
  step := Step config

variable {config : Config} {trace : List Event} {s : State}

/- What the bus does is a run of the bus. -/
theorem bus_of_reachable
    (hReach : (lts config).Reachable trace s) :
    Bus.RabbitMq.Deliveries.lts.Reachable
      (trace.filterMap Event.bus?) s.bus := by
  apply hReach.component State.bus Event.bus?
  · rintro s rfl
    rfl
  · intro s e s' hStep
    cases hStep with
    | bus _ hBus => exact hBus
    | launch _ hBus => exact hBus
    | proxy => rfl
    | fetch _ hBus _ => exact hBus
    | take _ hBus _ => exact hBus
    | stop _ hBus _ => exact hBus

/- What the proxy does is a run of the proxy. -/
theorem proxy_of_reachable
    (hReach : (lts config).Reachable trace s) :
    (Proxy.lts config).Reachable
      (trace.filterMap Event.proxy?) s.proxy := by
  apply hReach.component State.proxy Event.proxy?
  · rintro s rfl
    rfl
  · intro s e s' hStep
    cases hStep with
    | bus => rfl
    | launch => rfl
    | proxy _ _ hProxy => exact hProxy
    | fetch _ _ hProxy => exact hProxy
    | take _ _ hProxy => exact hProxy
    | stop _ _ hProxy => exact hProxy

end OverRabbitMq

end Proxy

end Router

end Qanat

------------------------------------------------------------
-- The Deliveries of the Reply Stream
------------------------------------------------------------

namespace Qanat

namespace Router

namespace Proxy

namespace OverRabbitMq

open Transition
open Bus (RawMessage)
open Bus.RabbitMq (DeliveryId Acker Operation)
open Bus.RabbitMq.Deliveries (StreamId)

variable {config : Config} {trace : List Event} {s : State}

/- What the bus has seen. -/
def busTrace (trace : List Event) :
    List Bus.RabbitMq.Deliveries.Event :=
  trace.filterMap Event.bus?

/- The reply stream is chosen once. -/
theorem Step.reply_eq
    {s' : State} {e : Event} {stream : StreamId}
    (hStep : Step config s e s')
    (hReply : s.reply = some stream) :
    s'.reply = some stream := by
  cases hStep with
  | launch hNone => exact absurd (hNone.symm.trans hReply) nofun
  | _ => exact hReply

theorem reply_of_taken
    (hReach : (lts config).Reachable trace s)
    {stream : StreamId} {delivery : DeliveryId}
    {message : RawMessage} {position : Nat}
    {found : Option CallId}
    (hTaken :
      Event.taken stream delivery message position found ∈
        trace) :
    s.reply = some stream := by
  induction hReach with
  | initial => cases hTaken
  | step hReach hStep ih =>
      rcases List.mem_append.mp hTaken with hOld | hNew
      · exact hStep.reply_eq (ih hOld)
      · rw [List.mem_singleton] at hNew
        subst hNew
        cases hStep with
        | take hReply => exact hReply

/- Nobody else polls the reply stream. -/
theorem not_foreign_fetched
    (hReach : (lts config).Reachable trace s)
    {stream : StreamId} (hReply : s.reply = some stream)
    (delivery : DeliveryId) (message : RawMessage)
    (acker : Acker) :
    Event.bus (.fetched stream delivery message acker) ∉
      trace := by
  induction hReach with
  | initial => nofun
  | @step trace s s' e hReach hStep ih =>
      intro hMem
      rcases List.mem_append.mp hMem with hOld | hNew
      · cases hStep with
        | launch _ hBus =>
            -- a stream that is opened now has not been polled
            have hFetched : Bus.RabbitMq.Deliveries.Event.fetched
                stream delivery message acker ∈
                  busTrace trace :=
              List.mem_filterMap.mpr ⟨_, hOld, rfl⟩
            have hLess :=
              Bus.RabbitMq.Deliveries.stream_lt_of_fetched
                (bus_of_reachable hReach) hFetched
            cases hReply
            cases hBus
            exact Nat.lt_irrefl _ hLess
        | _ => exact ih hReply hOld
      · rw [List.mem_singleton] at hNew
        subst hNew
        cases hStep with
        | bus hForeign => exact hForeign hReply

theorem mem_replies
    (hReach : (lts config).Reachable trace s)
    {stream : StreamId} {delivery : DeliveryId}
    {message : RawMessage} {acker : Acker} {position : Nat}
    (hFetched :
      Event.fetched stream delivery message acker position ∈
        trace) :
    delivery ∈ s.replies := by
  induction hReach with
  | initial => cases hFetched
  | @step trace s s' e hReach hStep ih =>
      rcases List.mem_append.mp hFetched with hOld | hNew
      · have hKept := ih hOld
        cases hStep with
        | fetch => exact List.mem_cons_of_mem _ hKept
        | _ => exact hKept
      · rw [List.mem_singleton] at hNew
        subst hNew
        cases hStep
        exact List.mem_cons_self

/- No reply is settled after it has been registered. -/
theorem not_settled_after
    (hReach : (lts config).Reachable trace s)
    {stream stream' : StreamId} {delivery : DeliveryId}
    {message : RawMessage} {acker acker' : Acker}
    {called called' : List Bus.RabbitMq.Deliveries.Event}
    {call : Bus.RabbitMq.Deliveries.SettleId}
    {decision : DeliveryDecision}
    (hReply : s.reply = some stream)
    (hFetched :
      .fetched stream delivery message acker ∈ busTrace trace)
    (hCalled :
      busTrace trace =
        called ++
          .settleCalled call delivery decision :: called') :
    .registering stream' delivery acker' ∉ called := by
  intro hSent
  rcases Lists.exists_split_of_filterMap hCalled with
    ⟨earlier, e, later, hTrace, hEvent, rfl⟩
  rcases hReach.before hTrace with ⟨r, r', hBefore, hStep⟩
  have hNumbered :=
    Bus.RabbitMq.Deliveries.numbered_of_reachable
      (bus_of_reachable hBefore)
  rcases hNumbered.registered _ _ _ hSent with
    ⟨message', hFetched'⟩
  have hEarlier : ∀ {e}, e ∈ earlier → e ∈ trace := by
    intro e hMem
    rw [hTrace]
    exact List.mem_append_left _ hMem
  have hSame : stream' = stream := by
    rcases List.mem_filterMap.mp hFetched' with
      ⟨first, hMem, hFirst⟩
    exact (Bus.RabbitMq.Deliveries.fetched_unique
      (bus_of_reachable hReach)
      (List.mem_filterMap.mpr
        ⟨first, hEarlier hMem, hFirst⟩) hFetched).1
  subst hSame
  have hOwn : delivery ∈ r.replies := by
    rcases List.mem_filterMap.mp hFetched' with
      ⟨first, hMem, hFirst⟩
    cases first with
    | bus event =>
        cases hFirst
        exact absurd (hEarlier hMem)
          (not_foreign_fetched hReach hReply _ _ _)
    | fetched =>
        cases hFirst
        exact mem_replies hBefore hMem
    | proxy => cases hFirst
    | launched => cases hFirst
    | taken => cases hFirst
    | stopped => cases hFirst
  cases e with
  | bus event =>
      cases hEvent
      cases hStep with
      | bus hForeign => exact hForeign hOwn
  | proxy => cases hEvent
  | launched => cases hEvent
  | fetched => cases hEvent
  | taken => cases hEvent
  | stopped => cases hEvent

end OverRabbitMq

end Proxy

end Router

end Qanat

------------------------------------------------------------
-- Settlement of the Replies
------------------------------------------------------------

namespace Qanat

namespace Router

namespace Proxy

namespace OverRabbitMq

open Transition
open Bus (RawMessage)
open Bus.RabbitMq (DeliveryId Acker Operation)
open Bus.RabbitMq.Deliveries
  (StreamId SettlementCommand fetches)

variable {config : Config} {trace : List Event} {s : State}

/- The operation of an event on one of the ackers. -/
def operationOn? (acked : List Acker) :
    Bus.RabbitMq.Deliveries.Event → Option Operation
| .performed _ acker done =>
    if acker ∈ acked then some done else none
| _ => none

/- The ackers that a delivery has come with. -/
def ackersOf
    (delivery : DeliveryId) (trace : List Event) :
    List Acker :=
  (fetches (busTrace trace)).filterMap
    (fun pair =>
      if pair.1 = delivery then some pair.2 else none)

/- What has been asked of the acker of a delivery. -/
def operationsOn
    (delivery : DeliveryId) (trace : List Event) :
    List Operation :=
  (busTrace trace).filterMap
    (operationOn? (ackersOf delivery trace))

def SettledOnce
    (trace : List Event) (delivery : DeliveryId) : Prop :=
  (operationsOn delivery trace).length = 1

/- The acker is in the table or on its way there. -/
def State.Pending
    (s : State) (delivery : DeliveryId) (acker : Acker) :
    Prop :=
  .register delivery acker ∈ s.bus.queue ∨
    s.bus.ackers delivery = some acker

theorem mem_ackersOf_iff
    {delivery : DeliveryId} {acker : Acker} :
    acker ∈ ackersOf delivery trace ↔
      (delivery, acker) ∈ fetches (busTrace trace) := by
  unfold ackersOf
  rw [List.mem_filterMap]
  constructor
  · rintro ⟨⟨delivery', acker'⟩, hMem, hPair⟩
    by_cases hSame : delivery' = delivery
    · subst hSame
      rw [if_pos rfl, Option.some.injEq] at hPair
      subst hPair
      exact hMem
    · rw [if_neg hSame] at hPair
      cases hPair
  · intro hMem
    exact ⟨_, hMem, if_pos rfl⟩

/- A reply that is taken has been fetched and registered. -/
theorem registered_of_taken_reply
    (hReach : (lts config).Reachable trace s)
    {stream : StreamId} {delivery : DeliveryId}
    {message : RawMessage} {position : Nat}
    {found : Option CallId}
    (hTaken :
      Event.taken stream delivery message position found ∈
        trace) :
    ∃ acker,
      .fetched stream delivery message acker ∈
          busTrace trace ∧
        .registering stream delivery acker ∈
          busTrace trace := by
  have hYielded : .yielded stream delivery message ∈
      busTrace trace :=
    List.mem_filterMap.mpr ⟨_, hTaken, rfl⟩
  rcases List.mem_iff_append.mp hYielded with
    ⟨earlier, later, hTrace⟩
  rcases Bus.RabbitMq.Deliveries.registered_before_yielded
      (bus_of_reachable hReach) hTrace with
    ⟨acker, hFetched, hSent⟩
  rw [hTrace]
  exact ⟨acker, List.mem_append_left _ hFetched,
    List.mem_append_left _ hSent⟩

/- Nothing is asked of the acker of a reply. -/
theorem operationsOn_reply
    (hReach : (lts config).Reachable trace s)
    {stream : StreamId} {delivery : DeliveryId}
    {message : RawMessage} {position : Nat}
    {found : Option CallId}
    (hTaken :
      Event.taken stream delivery message position found ∈
        trace) :
    operationsOn delivery trace = [] := by
  have hBus := bus_of_reachable hReach
  have hReply := reply_of_taken hReach hTaken
  rcases registered_of_taken_reply hReach hTaken with
    ⟨acker, hFetched, _⟩
  unfold operationsOn
  rw [List.filterMap_eq_nil_iff]
  intro e hMem
  cases e with
  | performed call acker' done =>
      apply if_neg
      rw [mem_ackersOf_iff]
      intro hAcked
      rcases
          Bus.RabbitMq.Deliveries.registered_of_performed hBus
            hMem with
        ⟨called, called', stream', delivery', decision,
          hSplit, hSent⟩
      have hIn : .registering stream' delivery' acker' ∈
          busTrace trace := by
        unfold busTrace
        rw [hSplit]
        exact List.mem_append_left _ hSent
      rcases
          (Bus.RabbitMq.Deliveries.numbered_of_reachable
            hBus).registered _ _ _ hIn with
        ⟨message', hFetched'⟩
      -- an acker belongs to one delivery
      have hPair := List.inj_on_of_nodup_map
        (Bus.RabbitMq.Deliveries.fetches_nodup hBus).2
        (List.mem_filterMap.mpr ⟨_, hFetched', rfl⟩) hAcked
        rfl
      cases hPair
      exact not_settled_after hReach hReply hFetched hSplit
        hSent
  | _ => rfl

/- Its acker stays with the bus. -/
theorem pending_reply
    (hReach : (lts config).Reachable trace s)
    {stream : StreamId} {delivery : DeliveryId}
    {message : RawMessage} {position : Nat}
    {found : Option CallId}
    (hTaken :
      Event.taken stream delivery message position found ∈
        trace)
    (hRunning : s.bus.actor ≠ .stopped) :
    ∃ acker, s.Pending delivery acker := by
  have hBus := bus_of_reachable hReach
  have hReply := reply_of_taken hReach hTaken
  rcases registered_of_taken_reply hReach hTaken with
    ⟨acker, hFetched, hSent⟩
  have hNever : ∀ call decision,
      ¬ Precedes (.registering stream delivery acker)
        (.settleCalled call delivery decision)
        (busTrace trace) := by
    intro call decision hOrder
    rcases precedes_iff_split.mp hOrder with
      ⟨called, called', hSplit, hBefore⟩
    exact not_settled_after hReach hReply hFetched hSplit
      hBefore
  have hAll :
      Bus.RabbitMq.Deliveries.lts.Reachable
        (busTrace trace ++ []) s.bus := by
    rwa [List.append_nil]
  have hLeft :=
    (Bus.RabbitMq.Deliveries.lookup_eq_some_iff hAll delivery
      acker).mpr ⟨stream, hSent, hNever⟩
  rcases Bus.RabbitMq.Deliveries.desk_of_reachable hBus with
    ⟨t, hDesk, hQueue, hTable⟩
  rw [← Bus.RabbitMq.Deliveries.desk_sent] at hLeft
  refine ⟨acker, ?_⟩
  rcases Desk.held_of_lookup hDesk hLeft with hMem | hHeld
  · left
    rw [hQueue, List.mem_map] at hMem
    rcases hMem with ⟨command, hMem, hSame⟩
    cases command with
    | register =>
        cases hSame
        exact hMem
    | settle => cases hSame
  · right
    rw [← hTable hRunning]
    exact hHeld

/- The proxy's own events take no reply. -/
theorem not_own_taken
    (hReach : (lts config).Reachable trace s)
    (position : Nat) (message : RawMessage)
    (found : Option CallId) :
    Event.proxy (.taken position message found) ∉ trace := by
  intro hMem
  rcases hReach.step_of_mem hMem with
    ⟨_, _, r, r', _, _, hStep⟩
  cases hStep with
  | proxy _ hOwn => exact hOwn

/- What has been read has been taken. -/
theorem read_eq_zero_iff
    (hReach : (lts config).Reachable trace s) :
    s.proxy.read = 0 ↔
      ∀ stream delivery message position found,
        Event.taken stream delivery message position found ∉
          trace := by
  have hProxy := proxy_of_reachable hReach
  constructor
  · intro hRead stream delivery message position found hMem
    have hTaken : Proxy.Event.taken position message found ∈
        trace.filterMap Event.proxy? :=
      List.mem_filterMap.mpr ⟨_, hMem, rfl⟩
    have hLess := (taken_lt hProxy hTaken).1
    rw [hRead] at hLess
    exact Nat.not_lt_zero _ hLess
  · intro hNone
    by_contra hRead
    rcases taken_of_lt hProxy (Nat.pos_of_ne_zero hRead) with
      ⟨message, found, hTaken⟩
    rcases List.mem_filterMap.mp hTaken with
      ⟨e, hMem, hEvent⟩
    cases e with
    | proxy event =>
        cases hEvent
        exact not_own_taken hReach _ _ _ hMem
    | taken =>
        cases hEvent
        exact hNone _ _ _ _ _ hMem
    | bus => cases hEvent
    | launched => cases hEvent
    | fetched => cases hEvent
    | stopped => cases hEvent

/-
  The replies taken have been settled once each only as long
  as there is none: no operation is performed on the acker of
  a reply that has been taken, and it stays with the bus.
-/
theorem replies_settled_iff
    (hReach : (lts config).Reachable trace s) :
    ((∀ stream delivery message position found,
        Event.taken stream delivery message position found ∈
          trace → SettledOnce trace delivery) ↔
      s.proxy.read = 0) ∧
    ∀ stream delivery message position found,
      Event.taken stream delivery message position found ∈
          trace →
        operationsOn delivery trace = [] ∧
          (s.bus.actor ≠ .stopped →
            ∃ acker, s.Pending delivery acker) := by
  refine ⟨?_, ?_⟩
  · rw [read_eq_zero_iff hReach]
    constructor
    · intro hSettled stream delivery message position found
        hTaken
      have hOnce := hSettled _ _ _ _ _ hTaken
      unfold SettledOnce at hOnce
      rw [operationsOn_reply hReach hTaken] at hOnce
      cases hOnce
    · intro hNone stream delivery message position found
        hTaken
      exact absurd hTaken (hNone _ _ _ _ _)
  · intro stream delivery message position found hTaken
    exact ⟨operationsOn_reply hReach hTaken,
      pending_reply hReach hTaken⟩

def totalConfig : Config where
  pattern := "orders.total"
  replySubject := "replies"
  contentType := some "application/json"

def totalRequest : Request where
  headers := ∅
  payload := .ok []
  correlationId := "a"
  messageId := "m"
  requestId := 1

/- The reply to the request as it is fetched. -/
def totalReply : RawMessage :=
  Bus.RabbitMq.deliveryToRaw FiniteMap.Iteration.identity "r"
    { routingKey := "replies"
      properties :=
        { contentType := none
          messageId := none
          headers := some
            ((∅ : Headers).insert correlationIdHeader "a") }
      data := [] }
    false 1

/- A call that receives its reply. -/
def totalTrace : List Event :=
  [.launched 0,
    .proxy (.called 0 totalRequest),
    .proxy (.registering "a" 0),
    .proxy (.registered "a" 0),
    .proxy (.dispatched 0
      (totalRequest.message totalConfig [])),
    .proxy (.dispatchReturned 0),
    .fetched 0 1 totalReply 0 0,
    .bus (.registering 0 1 0),
    .taken 0 1 totalReply 0 (some 0),
    .bus (.registered 1 0),
    .proxy (.received 0 0 totalReply)]

theorem total_reachable :
    ∃ s, (lts totalConfig).Reachable totalTrace s ∧
      s.proxy.running = true ∧ s.proxy.read = 1 ∧
        s.bus.streams 0 = .resting ∧
          s.bus.ackers 1 = some 0 := by
  have h : (lts totalConfig).Reachable [] State.start :=
    .initial rfl
  have h := h.step (.launch rfl (.subscribe rfl))
  have hFresh : Proxy.State.start.Fresh
      totalRequest.correlationId := by
    constructor
    · intro c call hCall
      cases hCall
    · intro message hMem
      cases hMem
  have h := h.step (.proxy rfl (by trivial)
    (.call totalRequest hFresh))
  have h := h.step (.proxy rfl (by trivial)
    (@Proxy.Step.register _ _ 0 _ rfl rfl rfl (by decide)))
  have h := h.step (.proxy rfl (by trivial)
    (.takeRegister rfl rfl))
  have h := h.step (.proxy rfl (by trivial)
    (@Proxy.Step.dispatch _ _ 0 _ _ rfl rfl rfl))
  have h := h.step (.proxy rfl (by trivial)
    (@Proxy.Step.finishDispatch _ _ 0 _ rfl rfl))
  have h := h.step (.fetch rfl
    (@Bus.RabbitMq.Deliveries.Step.fetch _ 0
      FiniteMap.Iteration.identity "r" _ false rfl)
    (.arrive totalReply (by
      intro c call hCall _
      have hFirst := call_lt (proxy_of_reachable h) hCall
      have hZero : c = 0 := Nat.lt_one_iff.mp hFirst
      subst hZero
      cases hCall
      rfl)))
  have h := h.step (.bus (by trivial)
    (@Bus.RabbitMq.Deliveries.Step.register _ 0 _ _ _ rfl
      nofun))
  have h := h.step (.take rfl
    (@Bus.RabbitMq.Deliveries.Step.yield _ 0 _ _ rfl)
    (@Proxy.Step.takeReply _ _ totalReply "a" 0
      rfl rfl rfl rfl))
  have h := h.step (.bus (by trivial)
    (.takeRegister rfl rfl))
  have h := h.step (.proxy rfl (by trivial)
    (@Proxy.Step.receive _ _ 0 _ _ _ rfl rfl rfl))
  exact ⟨_, h, rfl, rfl, rfl, rfl⟩

/-
  The reply has been matched and received, and the reply task
  waits for the next event; the acker is still in the table.
-/
theorem matched_reply_not_settled :
    ∃ s, (lts totalConfig).Reachable totalTrace s ∧
      s.proxy.running = true ∧
        s.bus.streams 0 = .resting ∧
          .taken 0 1 totalReply 0 (some 0) ∈ totalTrace ∧
            ¬ SettledOnce totalTrace 1 ∧
              s.bus.ackers 1 = some 0 := by
  rcases total_reachable with
    ⟨s, hReach, hRunning, _, hResting, hHeld⟩
  refine ⟨s, hReach, hRunning, hResting, by simp [totalTrace],
    ?_, hHeld⟩
  have hNone : operationsOn 1 totalTrace = [] := rfl
  unfold SettledOnce
  rw [hNone]
  nofun

theorem replies_settled_iff_total :
    ∃ s, (lts totalConfig).Reachable totalTrace s ∧
      s.proxy.read = 1 ∧
        ¬ ∀ stream delivery message position found,
          Event.taken stream delivery message position found ∈
              totalTrace →
            SettledOnce totalTrace delivery := by
  rcases total_reachable with ⟨s, hReach, _, hRead, _⟩
  refine ⟨s, hReach, hRead, ?_⟩
  rw [(replies_settled_iff hReach).1, hRead]
  nofun

end OverRabbitMq

end Proxy

end Router

end Qanat
