import Qanat.Router.Partitioner.Model
import Qanat.Router.Process

/-
  The tasks `Router::install` spawns for its routes.

  The task of an unpartitioned route is a loop over its
  messages.  The task of a partitioned route selects between
  its source and the completions of the jobs it submitted to
  a partition domain, which it may share with other tasks.

  Main declarations:
    * `runUnpartitioned`
    * `TypedPartitionResolver`, `PartitionedRoute`
    * `Install.State`, `Install.Event`
    * `Install.Step`, `Install.lts`
-/

------------------------------------------------------------
-- Routes
------------------------------------------------------------

namespace Qanat

namespace Router

open Transition

variable {Value Args : Type}

/- The loop of a route without `partition_by`. -/
def runUnpartitioned
    (binding : RouteBinding Value)
    (messages : List RouteMessage) :
    Logged RouteEffect Unit :=
  messages.forM (processRouteMessage binding)

/- `PartitionResolver::resolve`. -/
abbrev PartitionResolver (Value : Type) :=
  RouteMessage → Decoder Value → Except RouteError String

/-
  The extraction of the arguments of a resolver and the
  resolver itself, whose errors are their texts.
-/
structure TypedPartitionResolver (Value Args : Type) where
  extract :
    RouteMessage → Decoder Value → Except BusError Args
  resolver : Args → Except String String

def TypedPartitionResolver.resolve
    (typed : TypedPartitionResolver Value Args) :
    PartitionResolver Value :=
  fun message decoder =>
    match typed.extract message decoder with
    | .error error => .error (RouteError.handler error.display)
    | .ok input =>
        match typed.resolver input with
        | .error text => .error (RouteError.handler text)
        | .ok key =>
            if key.isEmpty then
              .error (RouteError.handler
                "partition key must not be empty")
            else
              .ok key

/-
  An effect of a job: with the position of the message in the
  route's source, or without one if another task has
  submitted the job.
-/
structure JobEffect where
  origin : Option Nat
  effect : RouteEffect
deriving DecidableEq

/-
  A route with a partition binding and the messages its
  source yields.  What its components and its resolver return
  may be different for every message.
-/
structure PartitionedRoute (Value : Type) where
  messages : List RouteMessage
  binding : Nat → RouteBinding Value
  resolver : Nat → PartitionResolver Value

namespace PartitionedRoute

/- The result of the resolver for the message at a position. -/
def resolve
    (route : PartitionedRoute Value)
    (position : Nat) (message : RouteMessage) :
    Except RouteError String :=
  route.resolver position message
    (route.binding position).source.decode

/- What is done with the message at a position by its job. -/
def process
    (route : PartitionedRoute Value)
    (position : Nat) (message : RouteMessage) :
    Logged RouteEffect Unit :=
  processRouteMessage (route.binding position) message

/- The boxed future that is submitted for a message. -/
def job
    (route : PartitionedRoute Value)
    (position : Nat) (message : RouteMessage) :
    Partitioner.Task JobEffect where
  effects :=
    (route.process position message).effects.map
      (fun effect => ⟨some position, effect⟩)
  panics := (route.process position message).outcome.isNone

/- What the route itself does for a message without a key. -/
def recovery
    (route : PartitionedRoute Value)
    (position : Nat) (message : RouteMessage)
    (error : RouteError) : Logged RouteEffect Unit :=
  (route.binding position).fail message error none

end PartitionedRoute

end Router

end Qanat

------------------------------------------------------------
-- States and Events
------------------------------------------------------------

namespace Qanat

namespace Router

namespace Install

open Partitioner (CallId)

/-
  Where the task of a partitioned route is.  `resolving` has
  a message from the source, `recovering` performs the
  effects that are left of a failed resolution and may unwind
  after them, `submitting` is in a call of `submit_task`, and
  `unwound` is a task that died on the message at a position,
  in such a call or of an error target.
-/
inductive Phase where
| selecting
| resolving
| recovering
    (position : Nat) (rest : List RouteEffect)
    (panics : Bool)
| submitting (position : Nat) (call : CallId)
| ended
| unwound (position : Nat) (call : Option CallId)
deriving DecidableEq

/- The task of the route is no more. -/
def Phase.IsOver : Phase → Prop
| .ended | .unwound _ _ => True
| _ => False

/- The message that is being submitted, or whose call died. -/
def Phase.submission? : Phase → Option (Nat × CallId)
| .submitting position call => some (position, call)
| .unwound position call =>
    call.map (fun call => (position, call))
| _ => none

/-
  `position` counts the messages whose key has been resolved
  or has failed to be.  `pending` are the completions that
  are awaited, named by their calls.
-/
structure State where
  domain : Partitioner.State JobEffect
  position : Nat
  sourceOpen : Bool
  phase : Phase
  pending : List CallId

/- The route owns the first handle of the domain. -/
def State.start : State where
  domain := Partitioner.State.start
  position := 0
  sourceOpen := true
  phase := .selecting
  pending := []

inductive Event where
| domain (event : Partitioner.Event JobEffect)
| yielded (position : Nat)
| sourceEnded
| unresolved (position : Nat) (error : RouteError)
| recovered (position : Nat) (effect : RouteEffect)
| continued (position : Nat)
| submitting
    (position : Nat) (key : String) (call : CallId)
    (task : Partitioner.Task JobEffect)
| pushed (call : CallId)
| completionSeen (call : CallId)
| ended
| unwound (position : Nat)

/-
  What others may do in the domain: their jobs have no
  position, they do not cancel the route's own call, and they
  do not drop its handle while it has one.
-/
def State.Admits (s : State) :
    Partitioner.Event JobEffect → Prop
| .called _ _ task =>
    ∀ effect ∈ task.effects, effect.origin = none
| .cancelled call =>
    ∀ position, s.phase.submission? ≠ some (position, call)
| .dropped => s.phase.IsOver ∨ 1 < s.domain.handles
| _ => True

end Install

end Router

end Qanat

------------------------------------------------------------
-- Steps
------------------------------------------------------------

namespace Qanat

namespace Router

namespace Install

open Transition
open Partitioner (CallId Call)

variable {Value : Type}

/- The steps of a partitioned route and of its domain. -/
inductive Step
    (route : PartitionedRoute Value)
    (config : Partitioner.Config) :
    State → Event → State → Prop where
| domain
    {s : State} {event : Partitioner.Event JobEffect}
    {domain : Partitioner.State JobEffect} :
    Partitioner.Step config s.domain event domain →
    s.Admits event →
    Step route config s (.domain event)
      { s with domain := domain }
-- `subscription.next()`
| «yield» {s : State} :
    s.phase = .selecting →
    s.sourceOpen = true →
    s.position < route.messages.length →
    Step route config s (.yielded s.position)
      { s with phase := .resolving }
| endSource {s : State} :
    s.phase = .selecting →
    s.sourceOpen = true →
    s.position = route.messages.length →
    Step route config s .sourceEnded
      { s with sourceOpen := false }
-- the resolver fails
| unresolve
    {s : State} {message : RouteMessage}
    {error : RouteError} :
    s.phase = .resolving →
    route.messages[s.position]? = some message →
    route.resolve s.position message = .error error →
    Step route config s (.unresolved s.position error)
      { s with
        position := s.position + 1
        phase := .recovering s.position
          (route.recovery s.position message error).effects
          (route.recovery s.position message
            error).outcome.isNone }
| recover
    {s : State} {position : Nat} {effect : RouteEffect}
    {rest : List RouteEffect} {panics : Bool} :
    s.phase = .recovering position (effect :: rest) panics →
    Step route config s (.recovered position effect)
      { s with phase := .recovering position rest panics }
| «continue» {s : State} {position : Nat} :
    s.phase = .recovering position [] false →
    Step route config s (.continued position)
      { s with phase := .selecting }
| unwindRecovery {s : State} {position : Nat} :
    s.phase = .recovering position [] true →
    Step route config s (.unwound position)
      { s with phase := .unwound position none }
-- `pending.push(submit_task(key, task).await)`
| submit
    {s : State} {message : RouteMessage} {key : String}
    {call : CallId} {domain : Partitioner.State JobEffect} :
    s.phase = .resolving →
    route.messages[s.position]? = some message →
    route.resolve s.position message = .ok key →
    Partitioner.Step config s.domain
      (.called key call (route.job s.position message))
      domain →
    Step route config s
      (.submitting s.position key call
        (route.job s.position message))
      { s with
        domain := domain
        position := s.position + 1
        phase := .submitting s.position call }
| push
    {s : State} {position : Nat} {c : CallId}
    {call : Call JobEffect} :
    s.phase = .submitting position c →
    s.domain.calls[c]? = some call →
    call.phase = .returned →
    Step route config s (.pushed c)
      { s with
        phase := .selecting
        pending := s.pending ++ [c] }
| unwindSubmission
    {s : State} {position : Nat} {c : CallId}
    {call : Call JobEffect} :
    s.phase = .submitting position c →
    s.domain.calls[c]? = some call →
    call.phase = .panicked →
    Step route config s (.unwound position)
      { s with phase := .unwound position (some c) }
-- `pending.next()`
| see {s : State} {c : CallId} :
    s.phase = .selecting →
    c ∈ s.pending →
    s.domain.Released c →
    Step route config s (.completionSeen c)
      { s with pending := s.pending.erase c }
| «end» {s : State} :
    s.phase = .selecting →
    s.sourceOpen = false →
    s.pending = [] →
    Step route config s .ended { s with phase := .ended }

/- A partitioned route installed over a partition domain. -/
def lts
    (route : PartitionedRoute Value)
    (config : Partitioner.Config) :
    Lts State Event where
  initial s := s = State.start
  step := Step route config

end Install

end Router

end Qanat
