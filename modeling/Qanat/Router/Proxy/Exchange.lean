import Qanat.Bus.Carriage
import Qanat.Bus.Patterns
import Qanat.Router.Proxy.Marker

/-
  Callers of a broker proxy and the service that answers
  them, over a bus that may lose, repeat, delay and reorder
  what it carries.

  The service is any number of jobs, each of which takes one
  message off the bus and processes it as a route does; jobs
  run at the same time.  Others may use the bus as they like,
  but not with the correlation ids of the calls.

  Main declarations:
    * `Service`, `Exchange.State`, `Exchange.Step`
    * `Traced`, `traced_of_reachable`
    * `Service.Answers`, `Understands`
    * `calls_get_their_own_answers`
-/

------------------------------------------------------------
-- The Exchange
------------------------------------------------------------

namespace Qanat

namespace Router

namespace Proxy

namespace Exchange

open Transition
open Bus (RawMessage BrokerTarget Carried
  routeMessageFromBroker wildcardMatch)

/- The jobs of the service, by their order. -/
abbrev JobId := Nat

/-
  How the service processes the message of each job.  Both of
  its targets reply, and its handler keeps the headers.
-/
structure Service
    (Ser De : Type → Type) (Value Args Output : Type) where
  route : JobId → RouteBinding Value
  typed : JobId → TypedRouteHandler Value Args Output
  target : JobId → BrokerTarget Ser De
  errorTarget : JobId → BrokerTarget Ser De
  ser : Ser Value
  repliesWith : ∀ j,
    RepliesWith (route j) (typed j) (target j)
      (errorTarget j) ser
  preserves : ∀ j,
    ∃ preserve, (typed j).handler = .inl preserve

/- A job has performed the first `done` of its effects. -/
structure Job where
  message : RouteMessage
  done : Nat

/- `bus` is all that has been dispatched, and to where. -/
structure State where
  proxy : Proxy.State
  bus : List (String × RawMessage)
  jobs : List Job

def State.start : State where
  proxy := .start
  bus := []
  jobs := []

inductive Event where
| proxy (event : Proxy.Event)
| taken (job : JobId) (message : RouteMessage)
| acted (job : JobId) (effect : RouteEffect)
| sent (subject : String) (message : RawMessage)

def Event.proxy? : Event → Option Proxy.Event
| .proxy event => some event
| _ => none

end Exchange

/- The steps that neither a new caller nor the bus makes. -/
def Event.IsOwn : Event → Prop
| .called _ _ => False
| .arrived _ _ => False
| _ => True

/- What the proxy dispatches. -/
def Event.dispatches (config : Config) :
    Event → List (String × Bus.RawMessage)
| .dispatched _ message => [(config.pattern, message)]
| _ => []

namespace Exchange

open Transition
open Bus (RawMessage BrokerTarget Carried
  routeMessageFromBroker wildcardMatch)

variable {Ser De : Type → Type} {Value Args Output : Type}

/- What an effect of a job dispatches, if it can. -/
def Service.dispatches
    (service : Service Ser De Value Args Output) (j : JobId) :
    RouteEffect → List (String × RawMessage)
| .delivered output =>
    match (service.target j).dispatched output with
    | .ok reply => [reply]
    | .error _ => []
| .failureDelivered failed =>
    match (service.errorTarget j).dispatched failed with
    | .ok reply => [reply]
    | .error _ => []
| _ => []

/-
  A dispatch that fails may have been carried all the same.
  The proxy is subscribed to the pattern `replySubject`.
-/
inductive Step
    (config : Config)
    (service : Service Ser De Value Args Output) :
    State → Event → State → Prop where
-- nobody else has used the id of a new call
| call
    {s : State} {c : CallId} {request : Request}
    {proxy : Proxy.State} :
    Proxy.Step config s.proxy (.called c request) proxy →
    (∀ subject message, (subject, message) ∈ s.bus →
      correlationId? message ≠
        some request.correlationId) →
    Step config service s (.proxy (.called c request))
      { s with proxy := proxy }
| work
    {s : State} {e : Proxy.Event} {proxy : Proxy.State} :
    Proxy.Step config s.proxy e proxy →
    e.IsOwn →
    Step config service s (.proxy e)
      { s with
        proxy := proxy
        bus := s.bus ++ e.dispatches config }
| arrive
    {s : State} {subject : String}
    {sent got : RawMessage} :
    (subject, sent) ∈ s.bus →
    wildcardMatch config.replySubject subject = true →
    Carried sent got →
    Step config service s
      (.proxy (.arrived s.proxy.arrived.length got))
      { s with
        proxy :=
          { s.proxy with
            arrived := s.proxy.arrived ++ [got] } }
-- the service
| take
    {s : State} {subject : String}
    {sent got : RawMessage} :
    (subject, sent) ∈ s.bus →
    Carried sent got →
    Step config service s
      (.taken s.jobs.length (routeMessageFromBroker got))
      { s with
        jobs := s.jobs ++
          [⟨routeMessageFromBroker got, 0⟩] }
| act
    {s : State} {j : JobId} {job : Job}
    {effect : RouteEffect} :
    s.jobs[j]? = some job →
    (processRouteMessage (service.route j)
      job.message).effects[job.done]? = some effect →
    Step config service s (.acted j effect)
      { s with
        jobs := s.jobs.set j
          { job with done := job.done + 1 }
        bus := s.bus ++ service.dispatches j effect }
-- everybody else
| other
    {s : State} {subject : String} {message : RawMessage} :
    (∀ c call, s.proxy.calls c = some call →
      correlationId? message ≠
        some call.request.correlationId) →
    Step config service s (.sent subject message)
      { s with bus := s.bus ++ [(subject, message)] }

def lts
    (config : Config)
    (service : Service Ser De Value Args Output) :
    Lts State Event where
  initial s := s = State.start
  step := Step config service

end Exchange

end Proxy

end Router

end Qanat

------------------------------------------------------------
-- Headers on the Way
------------------------------------------------------------

namespace Qanat

namespace Router

namespace Proxy

namespace Exchange

open Transition
open Bus (RawMessage BrokerTarget Carried
  routeMessageFromBroker)

variable {Ser De : Type → Type} {Value Args Output : Type}

theorem correlationId?_eq (message : RawMessage) :
    correlationId? message =
      message.headers.lookup correlationIdHeader :=
  bind_headers message _ rfl

theorem lookup_of_carried
    {sent got : RawMessage} (hCarried : Carried sent got)
    {name : String}
    (hName :
      name = correlationIdHeader ∨ name = replyToHeader ∨
        name = routeFailureHeader) :
    got.headers.lookup name = sent.headers.lookup name := by
  apply hCarried.headers
  · rcases hName with rfl | rfl | rfl <;> decide
  · rcases hName with rfl | rfl | rfl <;> decide

theorem correlationId?_carried
    {sent got : RawMessage} (hCarried : Carried sent got) :
    correlationId? got = correlationId? sent := by
  rw [correlationId?_eq, correlationId?_eq,
    lookup_of_carried hCarried (Or.inl rfl)]

/-
  What a job dispatches bears the id of its message and no
  subject of replies, and its message had one.
-/
theorem headers_of_dispatches
    {service : Service Ser De Value Args Output} {j : JobId}
    {message : RouteMessage} {effect : RouteEffect}
    {subject : String} {reply : RawMessage}
    (hEffect :
      effect ∈
        (processRouteMessage (service.route j)
          message).effects)
    (hReply :
      (subject, reply) ∈ service.dispatches j effect) :
    correlationId? reply =
        message.headers.lookup correlationIdHeader ∧
      replyToHeader ∉ reply.headers ∧
      message.headers.lookup replyToHeader =
        some subject := by
  have hRoute := service.repliesWith j
  rcases service.preserves j with ⟨preserve, hPreserve⟩
  rw [correlationId?_eq]
  cases effect with
  | delivered output =>
      have hDispatched :
          (service.target j).dispatched output =
            .ok (subject, reply) := by
        simp only [Service.dispatches] at hReply
        split at hReply
        · rename_i hOk
          rw [hOk, List.mem_singleton.mp hReply]
        · cases hReply
      rcases headers_of_reply hRoute.successReplies
          hDispatched with ⟨hAbsent, hSubject, hLookup⟩
      refine ⟨?_, hAbsent, ?_⟩
      · rw [hLookup _ (by decide),
          lookup_of_delivered hRoute hPreserve hEffect
            (Or.inl rfl)]
      · rw [← hSubject, lookup_of_delivered hRoute hPreserve
          hEffect (Or.inr rfl)]
  | failureDelivered failed =>
      have hDispatched :
          (service.errorTarget j).dispatched failed =
            .ok (subject, reply) := by
        simp only [Service.dispatches] at hReply
        split at hReply
        · rename_i hOk
          rw [hOk, List.mem_singleton.mp hReply]
        · cases hReply
      rcases headers_of_reply hRoute.failureReplies
          hDispatched with ⟨hAbsent, hSubject, hLookup⟩
      refine ⟨?_, hAbsent, ?_⟩
      · rw [hLookup _ (by decide),
          lookup_of_failureDelivered hRoute hEffect
            (Or.inl rfl)]
      · rw [← hSubject, lookup_of_failureDelivered hRoute
          hEffect (Or.inr rfl)]
  | handled _ => cases hReply
  | settled _ _ => cases hReply

end Exchange

end Proxy

end Router

end Qanat

------------------------------------------------------------
-- Where Messages Come From
------------------------------------------------------------

namespace Qanat

namespace Router

namespace Proxy

/- A call that has been dispatched stays so. -/
theorem CallMove.dispatched
    {c : CallId} {call call' : Call} {e : Event}
    (hMove : CallMove c call e call')
    (hDispatched : call.dispatched = true) :
    call'.dispatched = true := by
  cases hMove <;> first | exact hDispatched | rfl

/- The own steps of the proxy move the calls that it has. -/
theorem Step.moves_of_own
    {config : Config} {s s' : State} {e : Event}
    (hStep : Step config s e s') (hOwn : e.IsOwn)
    {c : CallId} {call' : Call}
    (hAfter : s'.calls c = some call') :
    ∃ call, s.calls c = some call ∧
      CallMove c call e call' := by
  rcases Step.call_cases hStep hAfter with
    ⟨_, rfl, _⟩ | hMoved
  · cases hOwn
  · exact hMoved

namespace Exchange

open Transition
open Bus (RawMessage BrokerTarget Carried
  routeMessageFromBroker wildcardMatch)

variable {Ser De : Type → Type} {Value Args Output : Type}
variable {config : Config}
variable {service : Service Ser De Value Args Output}

/- A job that took the request as `got` sends this reply. -/
structure Replied
    (config : Config)
    (service : Service Ser De Value Args Output)
    (trace : List Event) (request : Request)
    (payload : Bytes) (j : JobId)
    (got reply : RawMessage) : Prop where
  encoded : request.payload = .ok payload
  carried : Carried (request.message config payload) got
  taken : Event.taken j (routeMessageFromBroker got) ∈ trace
  effect : ∃ effect subject,
    Event.acted j effect ∈ trace ∧
      effect ∈
        (processRouteMessage (service.route j)
          (routeMessageFromBroker got)).effects ∧
      (subject, reply) ∈ service.dispatches j effect

/- A message is a request itself or a reply to it. -/
def Origin
    (config : Config)
    (service : Service Ser De Value Args Output)
    (trace : List Event) (request : Request)
    (subject : String) (message : RawMessage) : Prop :=
  (subject = config.pattern ∧ ∃ payload,
    request.payload = .ok payload ∧
      message = request.message config payload) ∨
  (replyToHeader ∉ message.headers ∧ ∃ payload j got,
    Replied config service trace request payload j got
      message)

theorem Replied.mono
    {trace : List Event} {request : Request}
    {payload : Bytes} {j : JobId} {got reply : RawMessage}
    (hReplied :
      Replied config service trace request payload j got
        reply)
    (e : Event) :
    Replied config service (trace ++ [e]) request payload j
      got reply where
  encoded := hReplied.encoded
  carried := hReplied.carried
  taken := List.mem_append_left _ hReplied.taken
  effect := by
    rcases hReplied.effect with
      ⟨effect, subject, hActed, hRest⟩
    exact ⟨effect, subject, List.mem_append_left _ hActed,
      hRest⟩

theorem Origin.mono
    {trace : List Event} {request : Request}
    {subject : String} {message : RawMessage}
    (hOrigin :
      Origin config service trace request subject message)
    (e : Event) :
    Origin config service (trace ++ [e]) request subject
      message := by
  rcases hOrigin with
    hRequest | ⟨hAbsent, payload, j, got, hReplied⟩
  · exact Or.inl hRequest
  · exact Or.inr
      ⟨hAbsent, payload, j, got, hReplied.mono e⟩

/-
  What bears the id of a call has come from that call, and
  everything else has come off the bus.
-/
structure Traced
    (config : Config)
    (service : Service Ser De Value Args Output)
    (trace : List Event) (s : State) : Prop where
  proxy :
    (Proxy.lts config).Reachable
      (trace.filterMap Event.proxy?) s.proxy
  bus : ∀ subject message, (subject, message) ∈ s.bus →
    ∀ c call, s.proxy.calls c = some call →
      correlationId? message =
          some call.request.correlationId →
        call.dispatched = true ∧
          Origin config service trace call.request subject
            message
  arrived : ∀ message ∈ s.proxy.arrived,
    ∃ subject sent, (subject, sent) ∈ s.bus ∧
      wildcardMatch config.replySubject subject = true ∧
      Carried sent message
  jobs : ∀ (j : JobId) (job : Job), s.jobs[j]? = some job →
    Event.taken j job.message ∈ trace ∧
      ∃ subject sent got, (subject, sent) ∈ s.bus ∧
        Carried sent got ∧
        job.message = routeMessageFromBroker got

theorem proxy_append
    (trace : List Event) (e : Proxy.Event) :
    (trace ++ [Event.proxy e]).filterMap Event.proxy? =
      trace.filterMap Event.proxy? ++ [e] := by
  rw [List.filterMap_append]
  rfl

/- A message that nobody has a call for has no origin yet. -/
theorem Traced.call
    {trace : List Event} {s : State} {c : CallId}
    {request : Request} {proxy : Proxy.State}
    (hTraced : Traced config service trace s)
    (hStep : Proxy.Step config s.proxy (.called c request) proxy)
    (hFresh : ∀ subject message,
      (subject, message) ∈ s.bus →
        correlationId? message ≠
          some request.correlationId) :
    Traced config service
      (trace ++ [.proxy (.called c request)])
      { s with proxy := proxy } where
  proxy := by
    rw [proxy_append]
    exact hTraced.proxy.step hStep
  bus := by
    intro subject message hMem c' call hCall hBears
    rcases Step.call_cases hStep hCall with
      ⟨request', hEvent, _, _, rfl⟩ |
        ⟨before, hBefore, hMove⟩
    · cases hEvent
      exact absurd hBears (hFresh subject message hMem)
    · rw [hMove.request] at hBears ⊢
      rcases hTraced.bus subject message hMem c' before
          hBefore hBears with ⟨hDispatched, hOrigin⟩
      exact ⟨hMove.dispatched hDispatched, hOrigin.mono _⟩
  arrived := by
    intro message hMem
    apply hTraced.arrived
    cases hStep
    exact hMem
  jobs := by
    intro j job hJob
    rcases hTraced.jobs j job hJob with ⟨hTaken, hFrom⟩
    exact ⟨List.mem_append_left _ hTaken, hFrom⟩

/- The proxy receives nothing but what arrives. -/
theorem Step.arrived_of_own
    {s s' : Proxy.State} {e : Proxy.Event}
    (hStep : Proxy.Step config s e s') (hOwn : e.IsOwn) :
    s'.arrived = s.arrived := by
  cases hStep with
  | arrive => cases hOwn
  | _ => rfl

/- A dispatch of the proxy is the request of a call. -/
theorem Step.request_of_dispatches
    {s s' : Proxy.State} {e : Proxy.Event}
    (hStep : Proxy.Step config s e s')
    {subject : String} {message : RawMessage}
    (hMem : (subject, message) ∈ e.dispatches config) :
    subject = config.pattern ∧
      ∃ c call payload, s'.calls c = some call ∧
        call.dispatched = true ∧
        call.request.payload = .ok payload ∧
        message = call.request.message config payload := by
  cases hStep with
  | dispatch hCall hPhase hPayload =>
      cases List.mem_singleton.mp hMem
      exact ⟨rfl, _, _, _, setCall_self _ _ _, rfl, hPayload,
        rfl⟩
  | _ => cases hMem

theorem Traced.work
    {trace : List Event} {s : State} {e : Proxy.Event}
    {proxy : Proxy.State}
    (hTraced : Traced config service trace s)
    (hStep : Proxy.Step config s.proxy e proxy)
    (hOwn : e.IsOwn) :
    Traced config service (trace ++ [.proxy e])
      { s with
        proxy := proxy
        bus := s.bus ++ e.dispatches config } where
  proxy := by
    rw [proxy_append]
    exact hTraced.proxy.step hStep
  bus := by
    intro subject message hMem c call hCall hBears
    rcases List.mem_append.mp hMem with hOld | hNew
    · rcases Step.moves_of_own hStep hOwn hCall with
        ⟨before, hBefore, hMove⟩
      rw [hMove.request] at hBears ⊢
      rcases hTraced.bus subject message hOld c before
          hBefore hBears with ⟨hDispatched, hOrigin⟩
      exact ⟨hMove.dispatched hDispatched, hOrigin.mono _⟩
    · rcases Step.request_of_dispatches hStep hNew with
        ⟨rfl, c', call', payload, hCall', hDispatched,
          hPayload, rfl⟩
      rw [correlationId_message, Option.some.injEq] at hBears
      have hSame := correlationId_injective
        (hTraced.proxy.step hStep) hCall' hCall hBears
      subst hSame
      have hEq : call' = call :=
        Option.some.inj (hCall'.symm.trans hCall)
      subst hEq
      exact ⟨hDispatched,
        Or.inl ⟨rfl, payload, hPayload, rfl⟩⟩
  arrived := by
    intro message hMem
    change message ∈ proxy.arrived at hMem
    rw [Step.arrived_of_own hStep hOwn] at hMem
    rcases hTraced.arrived message hMem with
      ⟨subject, sent, hSent, hHeard⟩
    exact ⟨subject, sent, List.mem_append_left _ hSent,
      hHeard⟩
  jobs := by
    intro j job hJob
    rcases hTraced.jobs j job hJob with
      ⟨hTaken, subject, sent, got, hSent, hFrom⟩
    exact ⟨List.mem_append_left _ hTaken, subject, sent, got,
      List.mem_append_left _ hSent, hFrom⟩

/- A reply comes after its request has been dispatched. -/
theorem Traced.timely
    {trace : List Event} {s : State} {subject : String}
    {sent got : RawMessage}
    (hTraced : Traced config service trace s)
    (hSent : (subject, sent) ∈ s.bus)
    (hCarried : Carried sent got) :
    s.proxy.Timely got := by
  intro c call hCall hBears
  rw [correlationId?_carried hCarried] at hBears
  exact (hTraced.bus subject sent hSent c call hCall
    hBears).1

theorem Traced.arrive
    {trace : List Event} {s : State} {subject : String}
    {sent got : RawMessage}
    (hTraced : Traced config service trace s)
    (hSent : (subject, sent) ∈ s.bus)
    (hHeard : wildcardMatch config.replySubject subject = true)
    (hCarried : Carried sent got) :
    Traced config service
      (trace ++
        [.proxy (.arrived s.proxy.arrived.length got)])
      { s with
        proxy :=
          { s.proxy with
            arrived := s.proxy.arrived ++ [got] } } where
  proxy := by
    rw [proxy_append]
    exact hTraced.proxy.step
      (.arrive got (hTraced.timely hSent hCarried))
  bus := by
    intro subject' message hMem c call hCall hBears
    rcases hTraced.bus subject' message hMem c call hCall
        hBears with ⟨hDispatched, hOrigin⟩
    exact ⟨hDispatched, hOrigin.mono _⟩
  arrived := by
    intro message hMem
    rcases List.mem_append.mp hMem with hOld | hNew
    · exact hTraced.arrived message hOld
    · cases List.mem_singleton.mp hNew
      exact ⟨subject, sent, hSent, hHeard, hCarried⟩
  jobs := by
    intro j job hJob
    rcases hTraced.jobs j job hJob with ⟨hTaken, hFrom⟩
    exact ⟨List.mem_append_left _ hTaken, hFrom⟩

theorem proxy_append_of_none
    (trace : List Event) {e : Event}
    (hNone : e.proxy? = none) :
    (trace ++ [e]).filterMap Event.proxy? =
      trace.filterMap Event.proxy? := by
  rw [List.filterMap_append,
    List.filterMap_cons_none hNone, List.filterMap_nil,
    List.append_nil]

theorem Traced.take
    {trace : List Event} {s : State} {subject : String}
    {sent got : RawMessage}
    (hTraced : Traced config service trace s)
    (hSent : (subject, sent) ∈ s.bus)
    (hCarried : Carried sent got) :
    Traced config service
      (trace ++
        [.taken s.jobs.length (routeMessageFromBroker got)])
      { s with
        jobs := s.jobs ++
          [⟨routeMessageFromBroker got, 0⟩] } where
  proxy := by
    rw [proxy_append_of_none _ rfl]
    exact hTraced.proxy
  bus := by
    intro subject' message hMem c call hCall hBears
    rcases hTraced.bus subject' message hMem c call hCall
        hBears with ⟨hDispatched, hOrigin⟩
    exact ⟨hDispatched, hOrigin.mono _⟩
  arrived := hTraced.arrived
  jobs := by
    intro j job hJob
    rcases Lists.getElem?_append_singleton_eq_some.mp hJob
      with hOld | ⟨rfl, rfl⟩
    · rcases hTraced.jobs j job hOld with ⟨hTaken, hFrom⟩
      exact ⟨List.mem_append_left _ hTaken, hFrom⟩
    · exact ⟨List.mem_append_right _ List.mem_cons_self,
        subject, sent, got, hSent, hCarried, rfl⟩

/-
  A job answers what it has taken: since its message has a
  subject of replies, it was the request.
-/
theorem Traced.origin_of_act
    {trace : List Event} {s : State} {j : JobId} {job : Job}
    {effect : RouteEffect} {subject : String}
    {reply : RawMessage}
    (hTraced : Traced config service trace s)
    (hJob : s.jobs[j]? = some job)
    (hEffect :
      effect ∈
        (processRouteMessage (service.route j)
          job.message).effects)
    (hReply :
      (subject, reply) ∈ service.dispatches j effect)
    {c : CallId} {call : Call}
    (hCall : s.proxy.calls c = some call)
    (hBears :
      correlationId? reply =
        some call.request.correlationId) :
    call.dispatched = true ∧
      Origin config service (trace ++ [.acted j effect])
        call.request subject reply := by
  rcases headers_of_dispatches hEffect hReply with
    ⟨hId, hAbsent, hReplyTo⟩
  rcases hTraced.jobs j job hJob with
    ⟨hTaken, sentTo, sent, got, hSent, hCarried, hMessage⟩
  rw [hMessage] at hId hReplyTo hTaken hEffect
  have hSentBears :
      correlationId? sent =
        some call.request.correlationId := by
    rw [← correlationId?_carried hCarried,
      correlationId?_eq, ← hBears, hId]
    rfl
  rcases hTraced.bus sentTo sent hSent c call hCall
      hSentBears with ⟨hDispatched, hOrigin⟩
  refine ⟨hDispatched, Or.inr ⟨hAbsent, ?_⟩⟩
  rcases hOrigin with
    ⟨_, payload, hPayload, rfl⟩ | ⟨hNoReply, _⟩
  · exact ⟨payload, j, got, hPayload, hCarried,
      List.mem_append_left _ hTaken, effect, subject,
      List.mem_append_right _ List.mem_cons_self, hEffect,
      hReply⟩
  · have hNone := lookup_of_carried hCarried
      (Or.inr (Or.inl rfl) : replyToHeader = _ ∨ _)
    rw [AList.lookup_eq_none.mpr hNoReply] at hNone
    change got.headers.lookup replyToHeader = _ at hReplyTo
    rw [hNone] at hReplyTo
    cases hReplyTo

theorem Traced.act
    {trace : List Event} {s : State} {j : JobId} {job : Job}
    {effect : RouteEffect}
    (hTraced : Traced config service trace s)
    (hJob : s.jobs[j]? = some job)
    (hEffect :
      (processRouteMessage (service.route j)
        job.message).effects[job.done]? = some effect) :
    Traced config service (trace ++ [.acted j effect])
      { s with
        jobs := s.jobs.set j
          { job with done := job.done + 1 }
        bus := s.bus ++ service.dispatches j effect } where
  proxy := by
    rw [proxy_append_of_none _ rfl]
    exact hTraced.proxy
  bus := by
    intro subject message hMem c call hCall hBears
    rcases List.mem_append.mp hMem with hOld | hNew
    · rcases hTraced.bus subject message hOld c call hCall
          hBears with ⟨hDispatched, hOrigin⟩
      exact ⟨hDispatched, hOrigin.mono _⟩
    · exact hTraced.origin_of_act hJob
        (List.mem_of_getElem? hEffect) hNew hCall hBears
  arrived := by
    intro message hMem
    rcases hTraced.arrived message hMem with
      ⟨subject, sent, hSent, hHeard⟩
    exact ⟨subject, sent, List.mem_append_left _ hSent,
      hHeard⟩
  jobs := by
    intro j' job' hJob'
    have hBefore : ∃ before, s.jobs[j']? = some before ∧
        job'.message = before.message := by
      rcases (Lists.getElem?_set_eq_some hJob).mp hJob' with
        ⟨rfl, rfl⟩ | ⟨_, hOld⟩
      · exact ⟨job, hJob, rfl⟩
      · exact ⟨job', hOld, rfl⟩
    rcases hBefore with ⟨before, hBefore, hSame⟩
    rcases hTraced.jobs j' before hBefore with
      ⟨hTaken, subject, sent, got, hSent, hFrom⟩
    rw [hSame]
    exact ⟨List.mem_append_left _ hTaken, subject, sent, got,
      List.mem_append_left _ hSent, hFrom⟩

theorem Traced.other
    {trace : List Event} {s : State} {subject : String}
    {message : RawMessage}
    (hTraced : Traced config service trace s)
    (hForeign : ∀ c call, s.proxy.calls c = some call →
      correlationId? message ≠
        some call.request.correlationId) :
    Traced config service
      (trace ++ [.sent subject message])
      { s with bus := s.bus ++ [(subject, message)] } where
  proxy := by
    rw [proxy_append_of_none _ rfl]
    exact hTraced.proxy
  bus := by
    intro subject' message' hMem c call hCall hBears
    rcases List.mem_append.mp hMem with hOld | hNew
    · rcases hTraced.bus subject' message' hOld c call hCall
          hBears with ⟨hDispatched, hOrigin⟩
      exact ⟨hDispatched, hOrigin.mono _⟩
    · cases List.mem_singleton.mp hNew
      exact absurd hBears (hForeign c call hCall)
  arrived := by
    intro message' hMem
    rcases hTraced.arrived message' hMem with
      ⟨subject', sent, hSent, hHeard⟩
    exact ⟨subject', sent, List.mem_append_left _ hSent,
      hHeard⟩
  jobs := by
    intro j job hJob
    rcases hTraced.jobs j job hJob with
      ⟨hTaken, subject', sent, got, hSent, hFrom⟩
    exact ⟨List.mem_append_left _ hTaken, subject', sent,
      got, List.mem_append_left _ hSent, hFrom⟩

theorem traced_of_reachable
    {trace : List Event} {s : State}
    (hReach : (lts config service).Reachable trace s) :
    Traced config service trace s := by
  induction hReach with
  | initial hInitial =>
      subst hInitial
      exact ⟨.initial rfl, nofun, nofun, nofun⟩
  | step _ hStep ih =>
      cases hStep with
      | call hCalled hFresh => exact ih.call hCalled hFresh
      | work hWork hOwn => exact ih.work hWork hOwn
      | arrive hSent hHeard hCarried =>
          exact ih.arrive hSent hHeard hCarried
      | take hSent hCarried => exact ih.take hSent hCarried
      | act hJob hEffect => exact ih.act hJob hEffect
      | other hForeign => exact ih.other hForeign

end Exchange

end Proxy

end Router

end Qanat

------------------------------------------------------------
-- Reading the Replies
------------------------------------------------------------

namespace Qanat

namespace Router

namespace Proxy

open Bus (RawMessage BrokerTarget Carried TypedAs)

variable {Ser De : Type → Type} {Value Output T : Type}

/- The codec that the decoder finds is that of the target. -/
structure ReplyDecoder.Knows
    (decoder : ReplyDecoder Ser De Output)
    (target : BrokerTarget Ser De) : Prop where
  sameBus :
    target.bus.supportsContentTypeHeaders =
      decoder.carriesContentType
  known :
    decoder.codec.codecs.select
        (if decoder.carriesContentType then
          target.codec.contentType
        else
          decoder.codec.default) =
      some target.codec

theorem ReplyDecoder.Knows.decode_eq
    {decoder : ReplyDecoder Ser De Output}
    {target : BrokerTarget Ser De}
    (hKnows : decoder.Knows target)
    {payload : Bytes} {contentType : Option String}
    (hCarried :
      decoder.carriesContentType = true →
        contentType = some target.codec.contentType)
    (de : De T) :
    decoder.decode de payload contentType =
      target.codec.decode de payload := by
  have hKnown := hKnows.known
  unfold ReplyDecoder.decode
    HeaderAwareCodec.decodeWithContentType
  rw [CodecCollection.decodeSelected_eq]
  cases hCarries : decoder.carriesContentType with
  | true =>
      rw [hCarries, if_pos rfl] at hKnown
      simp only [if_pos, hCarried hCarries, Option.getD_some,
        hKnown]
  | false =>
      rw [hCarries, if_neg Bool.false_ne_true] at hKnown
      simp only [Bool.false_eq_true, if_false,
        Option.getD_none, hKnown]

/- What a target has encoded is read where it arrives. -/
theorem ReplyDecoder.Knows.read
    {decoder : ReplyDecoder Ser De Output}
    {target : BrokerTarget Ser De}
    (hKnows : decoder.Knows target)
    {ser : Ser Value} {value : Value}
    {message encoded : RouteMessage} {sent reply : RawMessage}
    (hEncode :
      target.encode ser value message = .ok encoded)
    (hPayload : sent.payload = encoded.payload)
    (hHeaders : ∀ name, Headers.IsContentType name = true →
      sent.headers.lookup name = encoded.headers.lookup name)
    (hCarried : Carried sent reply) :
    ∃ bytes, target.codec.encode ser value = .ok bytes ∧
      ∀ de : De T,
        decoder.decode de reply.payload
            (Headers.contentType reply.headers) =
          target.codec.decode de bytes := by
  rcases BrokerTarget.encode_eq_ok hEncode with
    ⟨hBytes, hTyped⟩
  refine ⟨_, hBytes, ?_⟩
  intro de
  rw [hCarried.payload, hPayload]
  apply hKnows.decode_eq
  intro hCarries
  rw [← hKnows.sameBus] at hCarries
  exact hCarried.contentType _
    ((hTyped hCarries).congr hHeaders)

/- The answer, by the marker. -/
theorem ReplyDecoder.answer_eq
    (decoder : ReplyDecoder Ser De Output)
    (reply : RawMessage) :
    decoder.answer reply =
      if IsFailureReply reply then
        match decoder.decode decoder.failure reply.payload
            (Headers.contentType reply.headers) with
        | .error error => .error (.transport error)
        | .ok failure => .error (.remote failure)
      else
        match decoder.decode decoder.output reply.payload
            (Headers.contentType reply.headers) with
        | .error error => .error (.transport error)
        | .ok output => .ok output := by
  unfold ReplyDecoder.answer
  exact bind_headers reply Headers.contentType rfl ▸ rfl

namespace Exchange

variable {Args : Type}

/-
  A caller that reads what the service encodes, outputs and
  failures.
-/
structure Understands
    (decoder : ReplyDecoder Ser De Output)
    (service : Service Ser De Value Args Output) : Prop where
  target : ∀ j, decoder.Knows (service.target j)
  errorTarget : ∀ j, decoder.Knows (service.errorTarget j)
  outputs : ∀ j output value bytes,
    (service.typed j).toValue output = .ok value →
    (service.target j).codec.encode service.ser value =
      .ok bytes →
    (service.target j).codec.decode decoder.output bytes =
      .ok output
  failures : ∀ j failure value bytes,
    (service.route j).failureValue failure = .ok value →
    (service.errorTarget j).codec.encode service.ser value =
      .ok bytes →
    (service.errorTarget j).codec.decode decoder.failure
      bytes = .ok failure

/-
  What a job makes of its message, as the caller reads it: the
  output of the handler, or the failure of the route.  A
  forwarded HTTP response is read as an error of some kind.
-/
def Service.Answers
    (service : Service Ser De Value Args Output)
    (j : JobId) (message : RouteMessage)
    (answer : Except ProxyError Output) : Prop :=
  (∃ args output,
    (service.typed j).extract message
        (service.route j).source.decode =
      .ok args ∧
    (service.typed j).apply args =
      some (.ok (none, output)) ∧
    answer = .ok output) ∨
  (∃ error response,
    (service.route j).Fails message error response ∧
    (∀ output, answer ≠ .ok output) ∧
    (response = none →
      answer =
        .error (.remote
          ⟨error, FailedRouteMessage.ofMessage message⟩)))

variable {service : Service Ser De Value Args Output}
variable {decoder : ReplyDecoder Ser De Output}

/- An output is read as it was returned. -/
theorem answers_of_delivered
    (hUnderstands : Understands decoder service)
    {j : JobId} {message output : RouteMessage}
    {subject : String} {sent reply : RawMessage}
    (hDelivered :
      .delivered output ∈
        (processRouteMessage (service.route j)
          message).effects)
    (hDispatched :
      (service.target j).dispatched output =
        .ok (subject, sent))
    (hCarried : Carried sent reply) :
    service.Answers j message
      (decoder.answer reply) := by
  have hRoute := service.repliesWith j
  rcases service.preserves j with ⟨preserve, hPreserve⟩
  have hUnmarked : IsFailureReply reply = false := by
    rw [isFailureReply_eq,
      lookup_of_carried hCarried (Or.inr (Or.inr rfl)),
      ← isFailureReply_eq]
    exact unmarked_of_delivered hRoute hDelivered hDispatched
  rcases call_of_delivered hDelivered with
    ⟨target, hTarget, _, hCall⟩
  rw [hRoute.success, Option.some.injEq] at hTarget
  subst hTarget
  rw [hRoute.handler] at hCall
  rcases TypedRouteHandler.call_eq_ok hCall with
    ⟨args, headers, result, hExtract, hApply, hEncoded⟩
  have hNone := TypedRouteHandler.headers_of_preserve
    hPreserve hApply
  subst hNone
  rcases encodeHandlerOutput_eq_ok hEncoded with
    ⟨value, hValue, hEncode⟩
  rcases BrokerTarget.dispatched_eq_ok hDispatched with
    ⟨_, hHeaders, hPayload⟩
  have hTypes : ∀ name, Headers.IsContentType name = true →
      sent.headers.lookup name =
        output.headers.lookup name := by
    intro name hType
    rw [hHeaders, AList.lookup_erase_ne]
    rintro rfl
    rw [isContentType_replyToHeader] at hType
    cases hType
  rcases (hUnderstands.target j).read
      (Option.some.inj hEncode) hPayload hTypes hCarried with
    ⟨bytes, hBytes, hRead⟩
  refine Or.inl ⟨args, result, hExtract, hApply, ?_⟩
  rw [decoder.answer_eq, hUnmarked,
    if_neg Bool.false_ne_true, hRead,
    hUnderstands.outputs j result value bytes hValue hBytes]

/- A failure is read as one, and as what it was. -/
theorem answers_of_failureDelivered
    (hUnderstands : Understands decoder service)
    {j : JobId} {message failed : RouteMessage}
    {subject : String} {sent reply : RawMessage}
    (hDelivered :
      .failureDelivered failed ∈
        (processRouteMessage (service.route j)
          message).effects)
    (hDispatched :
      (service.errorTarget j).dispatched failed =
        .ok (subject, sent))
    (hCarried : Carried sent reply) :
    service.Answers j message
      (decoder.answer reply) := by
  have hRoute := service.repliesWith j
  have hMarked : IsFailureReply reply = true := by
    rw [isFailureReply_eq,
      lookup_of_carried hCarried (Or.inr (Or.inr rfl)),
      ← isFailureReply_eq]
    exact marked_of_failureDelivered hRoute hDelivered
      hDispatched
  rcases fails_of_failureDelivered hDelivered with
    ⟨target, error, response, hTarget, hFails, hMessage⟩
  rw [hRoute.failure, Option.some.injEq] at hTarget
  subst hTarget
  refine Or.inr ⟨error, response, hFails, ?_, ?_⟩
  · intro output hAnswer
    rw [decoder.answer_eq, if_pos hMarked] at hAnswer
    split at hAnswer <;> cases hAnswer
  rintro rfl
  rcases failureMessage_eq_some hMessage with
    ⟨_, base, hPayload, rfl⟩
  rcases failurePayload_none hPayload with
    ⟨value, hValue, hEncode⟩
  rcases BrokerTarget.dispatched_eq_ok hDispatched with
    ⟨_, hHeaders, hBody⟩
  have hTypes : ∀ name, Headers.IsContentType name = true →
      sent.headers.lookup name =
        base.headers.lookup name := by
    intro name hType
    rw [hHeaders, AList.lookup_erase_ne,
      AList.lookup_insert_ne]
    · rintro rfl
      revert hType
      decide
    · rintro rfl
      rw [isContentType_replyToHeader] at hType
      cases hType
  rcases (hUnderstands.errorTarget j).read
      (Option.some.inj hEncode) hBody hTypes hCarried with
    ⟨bytes, hBytes, hRead⟩
  rw [decoder.answer_eq, if_pos hMarked, hRead,
    hUnderstands.failures j _ value bytes hValue hBytes]

end Exchange

end Proxy

end Router

end Qanat

------------------------------------------------------------
-- Own Answers
------------------------------------------------------------

namespace Qanat

namespace Router

namespace Proxy

namespace Exchange

open Transition
open Bus (RawMessage BrokerTarget Carried
  routeMessageFromBroker wildcardMatch)

variable {Ser De : Type → Type} {Value Args Output : Type}
variable {config : Config}
variable {service : Service Ser De Value Args Output}
variable {decoder : ReplyDecoder Ser De Output}

theorem Replied.answers
    (hUnderstands : Understands decoder service)
    {trace : List Event} {request : Request}
    {payload : Bytes} {j : JobId} {got sent reply : RawMessage}
    (hReplied :
      Replied config service trace request payload j got
        sent)
    (hCarried : Carried sent reply) :
    service.Answers j (routeMessageFromBroker got)
      (decoder.answer reply) := by
  rcases hReplied.effect with
    ⟨effect, subject, _, hEffect, hReply⟩
  cases effect with
  | delivered output =>
      simp only [Service.dispatches] at hReply
      split at hReply
      · rename_i hOk
        cases List.mem_singleton.mp hReply
        exact answers_of_delivered hUnderstands hEffect hOk
          hCarried
      · cases hReply
  | failureDelivered failed =>
      simp only [Service.dispatches] at hReply
      split at hReply
      · rename_i hOk
        cases List.mem_singleton.mp hReply
        exact answers_of_failureDelivered hUnderstands
          hEffect hOk hCarried
      · cases hReply
  | handled _ => cases hReply
  | settled _ _ => cases hReply

/- What a call receives, a job has replied to its request. -/
theorem replied_of_received
    (hApart :
      wildcardMatch config.replySubject config.pattern = false)
    {trace : List Event} {s : State}
    (hReach : (lts config service).Reachable trace s)
    {c : CallId} {position : Nat} {reply : RawMessage}
    (hReceived :
      Event.proxy (.received c position reply) ∈ trace) :
    ∃ request payload j got sent,
      Event.proxy (.called c request) ∈ trace ∧
        Replied config service trace request payload j got
          sent ∧
        Carried sent reply := by
  have hTraced := traced_of_reachable hReach
  have hProxied : ∀ {e : Proxy.Event},
      e ∈ trace.filterMap Event.proxy? →
        Event.proxy e ∈ trace := by
    intro e hMem
    rcases List.mem_filterMap.mp hMem with ⟨e', hE, hProxy⟩
    cases e' with
    | proxy event =>
        cases hProxy
        exact hE
    | _ => cases hProxy
  have hTaken := taken_of_received hTraced.proxy
    (List.mem_filterMap.mpr ⟨_, hReceived, rfl⟩)
  rcases List.mem_iff_append.mp hTaken with
    ⟨earlier, later, hSplit⟩
  rcases request_of_taken hTraced.proxy hSplit with
    ⟨request, hCalled, hBears⟩
  rcases call_of_called hTraced.proxy hCalled with
    ⟨call, hCall, rfl⟩
  have hArrived := (taken_lt hTraced.proxy hTaken).2
  rcases hTraced.arrived reply
      (List.mem_of_getElem? hArrived) with
    ⟨subject, sent, hSent, hHeard, hCarried⟩
  rw [correlationId?_carried hCarried] at hBears
  rcases (hTraced.bus subject sent hSent c call hCall
      hBears).2 with
    ⟨rfl, _⟩ | ⟨_, payload, j, got, hReplied⟩
  · rw [hApart] at hHeard
    cases hHeard
  · exact ⟨call.request, payload, j, got, sent,
      hProxied hCalled, hReplied, hCarried⟩

/-
  Whatever the bus loses, repeats or reorders, a call that
  gets a reply gets the answer to its own request: a job has
  taken that request, and what the caller reads is what the
  job has made of it.
-/
theorem calls_get_their_own_answers
    (hUnderstands : Understands decoder service)
    (hApart :
      wildcardMatch config.replySubject config.pattern = false)
    {trace : List Event} {s : State}
    (hReach : (lts config service).Reachable trace s)
    {c : CallId} {position : Nat} {reply : RawMessage}
    (hReceived :
      Event.proxy (.received c position reply) ∈ trace) :
    ∃ request payload j got,
      Event.proxy (.called c request) ∈ trace ∧
      request.payload = .ok payload ∧
      Carried (request.message config payload) got ∧
      Event.taken j (routeMessageFromBroker got) ∈ trace ∧
      service.Answers j (routeMessageFromBroker got)
        (decoder.answer reply) := by
  rcases replied_of_received hApart hReach hReceived with
    ⟨request, payload, j, got, sent, hCalled, hReplied,
      hCarried⟩
  exact ⟨request, payload, j, got, hCalled,
    hReplied.encoded, hReplied.carried, hReplied.taken,
    hReplied.answers hUnderstands hCarried⟩

/- A service that echoes the headers of its requests. -/
def echo :
    Service (fun T => T → Except BusError Bytes)
      (fun T => Bytes → Except BusError T)
      (Option RouteFailure) Unit Unit where
  route := fun _ => sampleEcho sampleTarget
  typed := fun _ => sampleTyped
  target := fun _ => sampleTarget
  errorTarget := fun _ => sampleTarget
  ser := sampleSer sampleRejection
  repliesWith := fun _ => ⟨rfl, rfl, rfl, rfl, rfl⟩
  preserves := fun _ => ⟨_, rfl⟩

theorem understands_echo :
    Understands (sampleDecoder sampleRejection) echo := by
  have hKnows :
      (sampleDecoder sampleRejection).Knows sampleTarget :=
    ⟨rfl, (sample_repliesTo (.ok ()) sampleResponse
      sampleRejection).known⟩
  refine ⟨fun _ => hKnows, fun _ => hKnows, ?_, ?_⟩
  · intro j output value bytes hValue hBytes
    rfl
  · intro j failure value bytes hValue hBytes
    exact (sample_repliesTo (.ok ()) sampleResponse
      sampleRejection).roundTrip failure value bytes hValue
        hBytes

/- The message of a request at the service, and its echo. -/
def echoRequest : Request :=
  sampleRequest "a" "b"

def echoMessage : RawMessage :=
  echoRequest.message sampleConfig []

/- What the echo of the request becomes on the bus. -/
def echoReply : RawMessage where
  envelope :=
    { subject := "replies"
      id := 1
      messageId := "m"
      headers := some
        (Headers.setContentType
          ((∅ : Headers).insert correlationIdHeader "a")
          "application/json")
      attempts := 0 }
  payload := [110, 117, 108, 108]

theorem echo_reachable :
    ∃ trace s, (lts sampleConfig echo).Reachable trace s ∧
      Event.proxy (.received 0 0 echoReply) ∈ trace := by
  have h : (lts sampleConfig echo).Reachable [] State.start :=
    .initial rfl
  have hStart :
      (Proxy.lts sampleConfig).Reachable [] Proxy.State.start :=
    .initial rfl
  have h := h.step (.call
    (.call echoRequest
      (fresh_of_calls hStart (by decide) rfl)) nofun)
  have h := h.step (.work
    (@Proxy.Step.register _ _ 0 _ rfl rfl rfl (by decide))
      trivial)
  have h := h.step
    (.work (.takeRegister rfl rfl) trivial)
  have h := h.step (.work
    (@Proxy.Step.dispatch _ _ 0 _ _ rfl rfl rfl) trivial)
  have h := h.step (@Step.take _ _ _ _ _ _ _ _ _
    echoMessage echoMessage List.mem_cons_self
      (Carried.refl _))
  have h := h.step (@Step.act _ _ _ _ _ _ _ _ 0 _ _ rfl rfl)
  have h := h.step (@Step.act _ _ _ _ _ _ _ _ 0 _ _ rfl rfl)
  have h := h.step (@Step.arrive _ _ _ _ _ _ _ _ "replies"
    echoReply echoReply (List.mem_of_getElem? (i := 1) rfl)
      (by decide) (Carried.refl _))
  have h := h.step (.work
    (@Proxy.Step.finishDispatch _ _ 0 _ rfl rfl) trivial)
  have h := h.step (.work
    (@Proxy.Step.takeReply _ _ echoReply "a" 0
      rfl rfl rfl rfl) trivial)
  have h := h.step (.work
    (@Proxy.Step.receive _ _ 0 _ _ _ rfl rfl rfl) trivial)
  exact ⟨_, _, h, List.mem_append_right _ List.mem_cons_self⟩

theorem calls_get_their_own_answers_echo :
    ∃ trace s, (lts sampleConfig echo).Reachable trace s ∧
      ∃ request payload j got,
        Event.proxy (.called 0 request) ∈ trace ∧
        request.payload = .ok payload ∧
        Carried (request.message sampleConfig payload) got ∧
        Event.taken j (routeMessageFromBroker got) ∈ trace ∧
        echo.Answers j (routeMessageFromBroker got)
          ((sampleDecoder sampleRejection).answer
            echoReply) := by
  rcases echo_reachable with ⟨trace, s, hReach, hReceived⟩
  exact ⟨trace, s, hReach,
    calls_get_their_own_answers understands_echo (by decide)
      hReach hReceived⟩

end Exchange

end Proxy

end Router

end Qanat
