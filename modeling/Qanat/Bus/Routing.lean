import Qanat.Errors

/-
  The routing table of the local buses: wildcard matching,
  fanout and round-robin decisions.

  The `u64` of consumer ids and the `usize` of round-robin
  indices are natural numbers.  They stay in range in every
  run of fewer than `2 ^ 64 - 1` steps, as
  `LocalRouter.counters_in_range` says.

  Main declarations:
    * `tokens`, `wildcardMatch`
    * `Binding`, `SubjectRouter`
-/

------------------------------------------------------------
-- Patterns
------------------------------------------------------------

namespace Qanat

namespace Bus

abbrev Token := List Char

/- `split('.')`: an empty text has one empty token. -/
def tokens (text : String) : List Token :=
  text.toList.splitOn '.'

/-
  The loop over the tokens of a pattern from position `i` on;
  `some` is an early return.
-/
def wildcardLoop (s : List Token) :
    Nat → List Token → Option Bool
| _, [] => none
| i, part :: rest =>
    if part = ['>'] then
      some (decide (i < s.length))
    else if part = ['*'] then
      if s.length ≤ i then
        some false
      else
        wildcardLoop s (i + 1) rest
    else if s[i]? ≠ some part then
      some false
    else
      wildcardLoop s (i + 1) rest

def wildcardMatch (pattern subject : String) : Bool :=
  let p := tokens pattern
  let s := tokens subject
  match wildcardLoop s 0 p with
  | some result => result
  | none => p.length == s.length

end Bus

end Qanat

------------------------------------------------------------
-- The Table
------------------------------------------------------------

namespace Qanat

namespace Bus

abbrev ConsumerId := Nat

/- A fanout binding has no queue. -/
structure Binding where
  subjectPattern : String
  queue : Option String
  consumers : List ConsumerId
  rrIndex : Nat
deriving DecidableEq, Repr

structure SubjectRouter where
  bindings : List Binding
  nextId : ConsumerId
deriving DecidableEq, Repr

/-
  `iter_mut().find(..)` followed by a write to what was
  found; `none` if nothing was.
-/
def modifyFirst {α : Type}
    (p : α → Bool) (f : α → α) :
    List α → Option (List α)
| [] => none
| a :: rest =>
    if p a then
      some (f a :: rest)
    else
      (modifyFirst p f rest).map (fun rest => a :: rest)

namespace Binding

def isFanoutOf (pattern : String) (b : Binding) : Bool :=
  b.queue.isNone && b.subjectPattern == pattern

def isQueue (queue : String) (b : Binding) : Bool :=
  b.queue == some queue

def push (id : ConsumerId) (b : Binding) : Binding :=
  { b with consumers := b.consumers ++ [id] }

/- The consumer whose turn it is in a queue group. -/
def picked? (b : Binding) : Option ConsumerId :=
  b.consumers[b.rrIndex % b.consumers.length]?

/- One turn of the loop of `route`. -/
def route (b : Binding) (subject : String) :
    Binding × List ConsumerId :=
  if wildcardMatch b.subjectPattern subject then
    match b.queue with
    | none => (b, b.consumers)
    | some _ =>
        if b.consumers.isEmpty then
          (b, [])
        else
          ({ b with rrIndex := b.rrIndex + 1 },
            b.picked?.toList)
  else
    (b, [])

end Binding

namespace SubjectRouter

def new : SubjectRouter where
  bindings := []
  nextId := 1

def allocId (router : SubjectRouter) :
    SubjectRouter × ConsumerId :=
  ({ router with nextId := router.nextId + 1 },
    router.nextId)

def addFanout (router : SubjectRouter) (pattern : String) :
    SubjectRouter × ConsumerId :=
  let (router, id) := router.allocId
  match modifyFirst (Binding.isFanoutOf pattern)
      (Binding.push id) router.bindings with
  | some bindings => ({ router with bindings := bindings }, id)
  | none =>
      ({ router with
          bindings := router.bindings ++
            [{ subjectPattern := pattern
               queue := none
               consumers := [id]
               rrIndex := 0 }] },
        id)

/- An error leaves the table as it is. -/
def bindQueue
    (router : SubjectRouter) (pattern queue : String) :
    Except BusError SubjectRouter :=
  match router.bindings.find? (Binding.isQueue queue) with
  | some b =>
      if b.subjectPattern ≠ pattern then
        .error (.internal
          ("queue '" ++ queue ++
            "' is already bound to pattern '" ++
            b.subjectPattern ++ "'"))
      else
        .ok router
  | none =>
      .ok
        { router with
          bindings := router.bindings ++
            [{ subjectPattern := pattern
               queue := some queue
               consumers := []
               rrIndex := 0 }] }

/- An id is allocated also if the queue is not there. -/
def addConsumer
    (router : SubjectRouter) (queue : String) :
    SubjectRouter × Except BusError ConsumerId :=
  let (router, id) := router.allocId
  match modifyFirst (Binding.isQueue queue)
      (Binding.push id) router.bindings with
  | some bindings =>
      ({ router with bindings := bindings }, .ok id)
  | none => (router, .error (.queueNotFound queue))

def route (router : SubjectRouter) (subject : String) :
    SubjectRouter × List ConsumerId :=
  ({ router with
      bindings :=
        router.bindings.map (fun b => (b.route subject).1) },
    router.bindings.flatMap (fun b => (b.route subject).2))

def removeConsumer
    (router : SubjectRouter) (id : ConsumerId) :
    SubjectRouter :=
  { router with
    bindings :=
      (router.bindings.map (fun b =>
        { b with
          consumers :=
            b.consumers.filter (fun c => c ≠ id) })).filter
        (fun b => b.queue.isSome || !b.consumers.isEmpty) }

end SubjectRouter

end Bus

end Qanat
