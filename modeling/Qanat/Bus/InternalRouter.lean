import Qanat.Bus.Routing
import Qanat.Library.Lts

/-
  The actor of the local buses and the streams of their
  subscribers.

  The actor handles one command per step.  It has no
  suspension point in a command, and what a subscriber does
  to its own stream meanwhile has the same effect before or
  after it.

  Main declarations:
    * `LocalRouter.Channel`, `LocalRouter.State`
    * `LocalRouter.dispatch`
    * `LocalRouter.Step`, `LocalRouter.lts`
-/

------------------------------------------------------------
-- Channels and States
------------------------------------------------------------

namespace Qanat

namespace Bus

namespace LocalRouter

/- The channel of one subscription, named by its position. -/
abbrev ChannelId := Nat

def subscriptionBuffer : Nat := 128

/-
  `isOpen`: the stream of the subscriber has not been dropped.
  `queue` is what was sent and not yet received.
-/
structure Channel (M : Type) where
  isOpen : Bool
  queue : List M
deriving DecidableEq, Repr

def Channel.new {M : Type} : Channel M where
  isOpen := true
  queue := []

/-
  The local variables of `router_actor`, and the channels it
  has made.
-/
structure State (M : Type) where
  router : SubjectRouter
  senders : AList (fun _ : ConsumerId => ChannelId)
  channels : List (Channel M)

variable {M : Type}

def State.start : State M where
  router := SubjectRouter.new
  senders := ∅
  channels := []

/- What `try_reserve_owned` finds. -/
inductive Reserve where
| permit
| closed
| full
deriving DecidableEq, Repr

/- Permits that are held take room in the queue, too. -/
def tryReserve
    (channels : List (Channel M)) (permits : List ChannelId)
    (channel : ChannelId) : Reserve :=
  match channels[channel]? with
  | none => .closed
  | some found =>
      if found.isOpen then
        if found.queue.length + permits.count channel <
            subscriptionBuffer then
          .permit
        else
          .full
      else
        .closed

/- The state of the loop of `dispatch` when it is left. -/
inductive Reservation where
| reserved (permits : List ChannelId) (dead : List ConsumerId)
| full (dead : List ConsumerId)
deriving DecidableEq, Repr

/- The loop of `dispatch` over the consumers of a message. -/
def reserve
    (senders : AList (fun _ : ConsumerId => ChannelId))
    (channels : List (Channel M)) :
    List ConsumerId → List ChannelId → List ConsumerId →
      Reservation
| [], permits, dead => .reserved permits dead
| id :: rest, permits, dead =>
    match senders.lookup id with
    | none => reserve senders channels rest permits dead
    | some channel =>
        match tryReserve channels permits channel with
        | .permit =>
            reserve senders channels rest
              (permits ++ [channel]) dead
        | .closed =>
            reserve senders channels rest permits
              (dead ++ [id])
        | .full => .full dead

/- `permit.send(msg)`. -/
def send
    (message : M) (channels : List (Channel M))
    (channel : ChannelId) : List (Channel M) :=
  channels.modify channel (fun found =>
    { found with queue := found.queue ++ [message] })

def removeConsumers
    (s : State M) (dead : List ConsumerId) : State M :=
  dead.foldl
    (fun s id =>
      { s with
        router := s.router.removeConsumer id
        senders := s.senders.erase id })
    s

def dispatch
    (s : State M) (subject : String) (message : M) :
    State M × Except BusError Unit :=
  let (router, targets) := s.router.route subject
  let routed := { s with router := router }
  match reserve s.senders s.channels targets [] [] with
  | .full dead =>
      (removeConsumers routed dead,
        .error (.backpressure
          ("subscriber queue is full for subject '" ++
            subject ++ "'")))
  | .reserved permits dead =>
      let pruned := removeConsumers routed dead
      ({ pruned with
          channels :=
            permits.foldl (send message) pruned.channels },
        .ok ())

/- Insert a sender of a new channel for a consumer. -/
def State.subscribe
    (s : State M) (router : SubjectRouter)
    (id : ConsumerId) : State M where
  router := router
  senders := s.senders.insert id s.channels.length
  channels := s.channels ++ [Channel.new]

/- The state after `SubscribeGroup`, and the new consumer. -/
def subscribeGroup
    (s : State M) (pattern group : String) :
    State M × Except BusError ConsumerId :=
  match s.router.bindQueue pattern group with
  | .error error => (s, .error error)
  | .ok router =>
      match router.addConsumer group with
      | (router, .ok id) => (s.subscribe router id, .ok id)
      | (router, .error error) =>
          ({ s with router := router }, .error error)

end LocalRouter

end Bus

end Qanat

------------------------------------------------------------
-- Steps
------------------------------------------------------------

namespace Qanat

namespace Bus

namespace LocalRouter

open Transition

variable {M : Type}

/-
  The commands with what was replied, and what subscribers do
  to their streams.
-/
inductive Event (M : Type) where
| dispatched
    (subject : String) (message : M)
    (result : Except BusError Unit)
| subscribed (pattern : String) (channel : ChannelId)
| groupSubscribed
    (pattern group : String) (channel : ChannelId)
| groupRejected (pattern group : String) (error : BusError)
| received (channel : ChannelId) (message : M)
| dropped (channel : ChannelId)

inductive Step : State M → Event M → State M → Prop where
| dispatch {s : State M} {subject : String} {message : M} :
    Step s
      (.dispatched subject message
        (dispatch s subject message).2)
      (dispatch s subject message).1
| subscribe {s : State M} {pattern : String} :
    Step s (.subscribed pattern s.channels.length)
      (s.subscribe (s.router.addFanout pattern).1
        (s.router.addFanout pattern).2)
| subscribeGroup
    {s : State M} {pattern group : String}
    {id : ConsumerId} :
    (subscribeGroup s pattern group).2 = .ok id →
    Step s (.groupSubscribed pattern group s.channels.length)
      (subscribeGroup s pattern group).1
| rejectGroup
    {s : State M} {pattern group : String}
    {error : BusError} :
    (subscribeGroup s pattern group).2 = .error error →
    Step s (.groupRejected pattern group error)
      (subscribeGroup s pattern group).1
| receive
    {s : State M} {channel : ChannelId} {message : M}
    {rest : List M} :
    s.channels[channel]? = some ⟨true, message :: rest⟩ →
    Step s (.received channel message)
      { s with
        channels := s.channels.set channel ⟨true, rest⟩ }
| drop {s : State M} {channel : ChannelId} {queue : List M} :
    s.channels[channel]? = some ⟨true, queue⟩ →
    Step s (.dropped channel)
      { s with
        channels := s.channels.set channel ⟨false, []⟩ }

/- The actor of one bus with its subscribers. -/
def lts (M : Type) : Lts (State M) (Event M) where
  initial s := s = State.start
  step := Step

end LocalRouter

end Bus

end Qanat
