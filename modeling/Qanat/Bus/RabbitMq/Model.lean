import Mathlib.Logic.Function.Basic
import Qanat.Bus.Routing
import Qanat.Library.Lts

/-
  The subscriptions of the RabbitMQ bus over a broker with
  one topic exchange.

  The broker is as its protocol describes it: a queue gets
  what one of its binding keys matches, bindings accumulate,
  and any consumer of a queue may get any of its messages.
  The calls are those of one bus, one after the other.

  Main declarations:
    * `rabbitBindingKey`, `topicMatch`
    * `RabbitMq.Broker`
    * `RabbitMq.subscribeRaw`, `RabbitMq.subscribeGroupRaw`
    * `RabbitMq.Step`, `RabbitMq.lts`
-/

------------------------------------------------------------
-- Binding Keys
------------------------------------------------------------

namespace Qanat

namespace Bus

/- `tokens.join(".")`. -/
def joinTokens (parts : List Token) : String :=
  String.ofList (List.intercalate ['.'] parts)

def rabbitBindingKey (pattern : String) :
    Except BusError String :=
  let parts := tokens pattern
  if pattern = "" then
    .error (.internal "subject pattern cannot be empty")
  else if [] ∈ parts then
    .error (.internal
      ("subject pattern '" ++ pattern ++
        "' contains an empty token"))
  else
    match parts.findIdx? (fun part => part = ['>']) with
    | none => .ok pattern
    | some index =>
        if index ≠ parts.length - 1 then
          .error (.internal
            ("'>' wildcard must be the final token " ++
              "in pattern '" ++ pattern ++ "'"))
        else if parts.length = 1 then
          .ok "#"
        else
          .ok (joinTokens
            (parts.dropLast ++ [['*'], ['#']]))

/- The words of a routing key; the empty key has none. -/
def keyWords (key : String) : List Token :=
  if key = "" then [] else tokens key

/-
  Topic rules: `*` is one word, `#` is zero or more words and
  any other word is itself.
-/
def matchWords : List Token → List Token → Bool
| [], words => words.isEmpty
| part :: rest, words =>
    if part = ['#'] then
      words.tails.any (matchWords rest)
    else
      match words with
      | [] => false
      | word :: words =>
          (part == ['*'] || part == word) &&
            matchWords rest words

def topicMatch (bindingKey routingKey : String) : Bool :=
  matchWords (keyWords bindingKey) (keyWords routingKey)

end Bus

end Qanat

------------------------------------------------------------
-- The Broker
------------------------------------------------------------

namespace Qanat

namespace Bus

namespace RabbitMq

/-
  Names that the broker makes up start with `amq.`, which
  clients cannot declare.
-/
inductive QueueName where
| client (name : String)
| generated (number : Nat)
deriving DecidableEq, Repr

/- `data` is the payload with the properties. -/
structure Delivery (M : Type) where
  routingKey : String
  data : M
deriving DecidableEq, Repr

/-
  `ready` waits for a consumer and `unacked` is what some
  consumer has got and not settled.
-/
structure Queue (M : Type) where
  autoDelete : Bool
  bindings : List String
  ready : List (Delivery M)
  unacked : List (Delivery M)

def Queue.new {M : Type} (autoDelete : Bool) : Queue M where
  autoDelete := autoDelete
  bindings := []
  ready := []
  unacked := []

/- Consumers, and so streams, are named by their position. -/
abbrev StreamId := Nat

/-
  `isOpen`: the stream has not been dropped.  `buffer` is what
  was delivered to it and not yet taken from it.
-/
structure Consumer (M : Type) where
  queue : QueueName
  isOpen : Bool
  buffer : List (Delivery M)

/- `recent` is the queue that the channel declared last. -/
structure Broker (M : Type) where
  queues : QueueName → Option (Queue M)
  recent : Option QueueName
  generated : Nat
  consumers : List (Consumer M)

variable {M : Type}

namespace Broker

def start : Broker M where
  queues _ := none
  recent := none
  generated := 0
  consumers := []

def update
    (b : Broker M) (name : QueueName) (queue : Queue M) :
    Broker M :=
  { b with
    queues := Function.update b.queues name (some queue) }

/- An empty name asks for a new queue with a new name. -/
def declare
    (b : Broker M) (name : QueueName) (autoDelete : Bool) :
    Broker M × QueueName :=
  if name = .client "" then
    let actual := .generated b.generated
    ({ b.update actual (Queue.new autoDelete) with
        recent := some actual
        generated := b.generated + 1 },
      actual)
  else
    match b.queues name with
    | some _ => ({ b with recent := some name }, name)
    | none =>
        ({ b.update name (Queue.new autoDelete) with
            recent := some name },
          name)

/- An empty name stands for the queue declared last. -/
def resolve (b : Broker M) (name : QueueName) :
    Option QueueName :=
  if name = .client "" then b.recent else some name

/- `none` if there is no such queue. -/
def bind
    (b : Broker M) (name : QueueName) (key : String) :
    Option (Broker M) :=
  match b.resolve name with
  | none => none
  | some actual =>
      (b.queues actual).map (fun queue =>
        b.update actual
          { queue with bindings := queue.bindings ++ [key] })

def consume (b : Broker M) (name : QueueName) :
    Option (Broker M × StreamId) :=
  match b.resolve name with
  | none => none
  | some actual =>
      (b.queues actual).map (fun _ =>
        ({ b with
            consumers := b.consumers ++ [⟨actual, true, []⟩] },
          b.consumers.length))

/- One copy for every queue with a key that matches. -/
def publish (b : Broker M) (delivery : Delivery M) :
    Broker M :=
  { b with
    queues := fun name =>
      (b.queues name).map (fun queue =>
        if queue.bindings.any
            (fun key =>
              topicMatch key delivery.routingKey) then
          { queue with ready := queue.ready ++ [delivery] }
        else
          queue) }

/- The queue of the last consumer goes with it if it may. -/
def cancel
    (b : Broker M) (stream : StreamId) (name : QueueName) :
    Broker M :=
  let consumers := b.consumers.set stream ⟨name, false, []⟩
  { b with
    consumers := consumers
    queues := fun other =>
      if other = name ∧
          (b.queues name).any Queue.autoDelete ∧
          consumers.all (fun c =>
            c.queue ≠ name || !c.isOpen) then
        none
      else
        b.queues other }

end Broker

end RabbitMq

end Bus

end Qanat

------------------------------------------------------------
-- Calls
------------------------------------------------------------

namespace Qanat

namespace Bus

namespace RabbitMq

variable {M : Type}

/-
  How a request to the broker ends.  One that is `lost` has
  been carried out although it fails for the bus.
-/
inductive Answer where
| ok
| refused (error : String)
| lost (error : String)
deriving DecidableEq, Repr

/- `notFound` is the error for a queue that is not there. -/
structure Answers where
  declare : Answer
  bind : Answer
  consume : Answer
  notFound : String
deriving DecidableEq, Repr

def rabbitError (error : String) : BusError :=
  .backend (.rabbitMq error)

def queueDeclare
    (b : Broker M) (answers : Answers) (name : QueueName)
    (autoDelete : Bool) :
    Broker M × Except BusError QueueName :=
  let (declared, actual) := b.declare name autoDelete
  match answers.declare with
  | .ok => (declared, .ok actual)
  | .refused error => (b, .error (rabbitError error))
  | .lost error => (declared, .error (rabbitError error))

def queueBind
    (b : Broker M) (answers : Answers) (name : QueueName)
    (key : String) : Broker M × Except BusError Unit :=
  match b.bind name key with
  | none => (b, .error (rabbitError answers.notFound))
  | some bound =>
      match answers.bind with
      | .ok => (bound, .ok ())
      | .refused error => (b, .error (rabbitError error))
      | .lost error => (bound, .error (rabbitError error))

/- Without a reply there is no stream to deliver to. -/
def consumeQueue
    (b : Broker M) (answers : Answers) (name : QueueName) :
    Broker M × Except BusError StreamId :=
  match b.consume name with
  | none => (b, .error (rabbitError answers.notFound))
  | some (consuming, stream) =>
      match answers.consume with
      | .ok => (consuming, .ok stream)
      | .refused error => (b, .error (rabbitError error))
      | .lost error => (b, .error (rabbitError error))

def declareSubscriptionQueue
    (b : Broker M) (answers : Answers) :
    Broker M × Except BusError QueueName :=
  queueDeclare b answers (.client "") true

/- The queue is declared before the pattern is checked. -/
def subscribeRaw
    (b : Broker M) (answers : Answers) (pattern : String) :
    Broker M × Except BusError StreamId :=
  match declareSubscriptionQueue b answers with
  | (b, .error error) => (b, .error error)
  | (b, .ok queue) =>
      match rabbitBindingKey pattern with
      | .error error => (b, .error error)
      | .ok key =>
          match queueBind b answers queue key with
          | (b, .error error) => (b, .error error)
          | (b, .ok ()) => consumeQueue b answers queue

/- The queue has the name of the group. -/
def subscribeGroupRaw
    (b : Broker M) (answers : Answers)
    (pattern group : String) :
    Broker M × Except BusError StreamId :=
  match rabbitBindingKey pattern with
  | .error error => (b, .error error)
  | .ok key =>
      match queueDeclare b answers (.client group) false with
      | (b, .error error) => (b, .error error)
      | (b, .ok _) =>
          match queueBind b answers (.client group) key with
          | (b, .error error) => (b, .error error)
          | (b, .ok ()) =>
              consumeQueue b answers (.client group)

end RabbitMq

end Bus

end Qanat

------------------------------------------------------------
-- Steps
------------------------------------------------------------

namespace Qanat

namespace Bus

namespace RabbitMq

open Transition

variable {M : Type}

inductive Event (M : Type) where
| subscribed
    (pattern : String) (result : Except BusError StreamId)
| groupSubscribed
    (pattern group : String)
    (result : Except BusError StreamId)
| published (delivery : Delivery M)
| delivered (stream : StreamId) (delivery : Delivery M)
| yielded (stream : StreamId) (delivery : Delivery M)
| requeued (delivery : Delivery M)
| settled (delivery : Delivery M)
| cancelled (stream : StreamId)

/-
  `subscribe` and `subscribeGroup` are calls of the bus.  The
  broker takes what anybody publishes, delivers it, and takes
  it back if it is retried or its consumer goes.
-/
inductive Step :
    Broker M → Event M → Broker M → Prop where
| subscribe
    {b : Broker M} {answers : Answers} {pattern : String} :
    Step b
      (.subscribed pattern (subscribeRaw b answers pattern).2)
      (subscribeRaw b answers pattern).1
| subscribeGroup
    {b : Broker M} {answers : Answers}
    {pattern group : String} :
    Step b
      (.groupSubscribed pattern group
        (subscribeGroupRaw b answers pattern group).2)
      (subscribeGroupRaw b answers pattern group).1
| publish {b : Broker M} {delivery : Delivery M} :
    Step b (.published delivery) (b.publish delivery)
| deliver
    {b : Broker M} {stream : StreamId} {name : QueueName}
    {buffer front back : List (Delivery M)}
    {delivery : Delivery M} {queue : Queue M} :
    b.consumers[stream]? = some ⟨name, true, buffer⟩ →
    b.queues name = some queue →
    queue.ready = front ++ delivery :: back →
    Step b (.delivered stream delivery)
      { b.update name
          { queue with
            ready := front ++ back
            unacked := queue.unacked ++ [delivery] } with
        consumers :=
          b.consumers.set stream
            ⟨name, true, buffer ++ [delivery]⟩ }
| yield
    {b : Broker M} {stream : StreamId} {name : QueueName}
    {delivery : Delivery M} {rest : List (Delivery M)} :
    b.consumers[stream]? =
      some ⟨name, true, delivery :: rest⟩ →
    Step b (.yielded stream delivery)
      { b with
        consumers :=
          b.consumers.set stream ⟨name, true, rest⟩ }
| requeue
    {b : Broker M} {name : QueueName} {queue : Queue M}
    {front back : List (Delivery M)}
    {delivery : Delivery M} :
    b.queues name = some queue →
    queue.unacked = front ++ delivery :: back →
    Step b (.requeued delivery)
      (b.update name
        { queue with
          ready := delivery :: queue.ready
          unacked := front ++ back })
| settle
    {b : Broker M} {name : QueueName} {queue : Queue M}
    {front back : List (Delivery M)}
    {delivery : Delivery M} :
    b.queues name = some queue →
    queue.unacked = front ++ delivery :: back →
    Step b (.settled delivery)
      (b.update name { queue with unacked := front ++ back })
| cancel
    {b : Broker M} {stream : StreamId} {name : QueueName}
    {buffer : List (Delivery M)} :
    b.consumers[stream]? = some ⟨name, true, buffer⟩ →
    Step b (.cancelled stream) (b.cancel stream name)

/- One bus, its streams and the broker. -/
def lts (M : Type) : Lts (Broker M) (Event M) where
  initial b := b = Broker.start
  step := Step

end RabbitMq

end Bus

end Qanat
