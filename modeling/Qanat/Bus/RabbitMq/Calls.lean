import Qanat.Bus.RabbitMq.Explained
import Qanat.Library.Lists

/-
  The stages of a call, and that it explains the keys it
  binds.

  Main declarations:
    * `RabbitMq.Staged`
    * `RabbitMq.Explained.own_queue`
    * `RabbitMq.Explained.group_queue`
-/

------------------------------------------------------------
-- Calls
------------------------------------------------------------

namespace Qanat

namespace Bus

namespace RabbitMq

open Transition

variable {M : Type}

def Broker.addBinding
    (b : Broker M) (name : QueueName) (queue : Queue M)
    (key : String) : Broker M :=
  b.update name
    { queue with bindings := queue.bindings ++ [key] }

def Broker.addConsumer (b : Broker M) (name : QueueName) :
    Broker M :=
  { b with consumers := b.consumers ++ [⟨name, true, []⟩] }

/-
  How far a call got from the state `b`: `declared` is the
  state once its queue `actual` has been declared.
-/
inductive Staged
    (b declared : Broker M) (actual : QueueName)
    (binding : Except BusError String) :
    Broker M → Except BusError StreamId → Prop where
| untouched {error : BusError} :
    Staged b declared actual binding b (.error error)
| declared {error : BusError} :
    Staged b declared actual binding declared (.error error)
| bound
    {key : String} {queue : Queue M} {error : BusError} :
    binding = .ok key →
    declared.queues actual = some queue →
    Staged b declared actual binding
      (declared.addBinding actual queue key) (.error error)
| consuming {key : String} {queue : Queue M} :
    binding = .ok key →
    declared.queues actual = some queue →
    Staged b declared actual binding
      ((declared.addBinding actual queue key).addConsumer
        actual)
      (.ok declared.consumers.length)

/- What both calls do with the queue they have declared. -/
def bindAndConsume
    (b : Broker M) (answers : Answers) (name : QueueName)
    (key : String) : Broker M × Except BusError StreamId :=
  match queueBind b answers name key with
  | (b, .error error) => (b, .error error)
  | (b, .ok ()) => consumeQueue b answers name

theorem Staged.of_bind
    {b declared : Broker M} {actual name : QueueName}
    {binding : Except BusError String} {key : String}
    (answers : Answers)
    (hKey : binding = .ok key)
    (hName : declared.resolve name = some actual) :
    Staged b declared actual binding
      (bindAndConsume declared answers name key).1
      (bindAndConsume declared answers name key).2 := by
  unfold bindAndConsume
  cases hQueue : declared.queues actual with
  | none =>
      have hBind : declared.bind name key = none := by
        simp [Broker.bind, hName, hQueue]
      simp only [queueBind, hBind]
      exact Staged.declared
  | some queue =>
      have hBind :
          declared.bind name key =
            some (declared.addBinding actual queue key) := by
        simp [Broker.bind, hName, hQueue, Broker.addBinding]
      have hConsume :
          (declared.addBinding actual queue key).consume name =
            some
              ((declared.addBinding actual queue
                key).addConsumer actual,
                declared.consumers.length) := by
        unfold Broker.resolve at hName
        simp [Broker.consume, Broker.resolve, hName,
          Broker.addBinding, Broker.update,
          Broker.addConsumer]
      cases hAnswer : answers.bind with
      | refused error =>
          simp only [queueBind, hBind, hAnswer]
          exact Staged.declared
      | lost error =>
          simp only [queueBind, hBind, hAnswer]
          exact Staged.bound hKey hQueue
      | ok =>
          simp only [queueBind, hBind, hAnswer, consumeQueue,
            hConsume]
          cases answers.consume with
          | ok => exact Staged.consuming hKey hQueue
          | refused error => exact Staged.bound hKey hQueue
          | lost error => exact Staged.bound hKey hQueue

/- A queue is found by the name it was declared with. -/
theorem Broker.declare_resolve
    (b : Broker M) (name : QueueName) (autoDelete : Bool) :
    (b.declare name autoDelete).1.resolve name =
        some (b.declare name autoDelete).2 ∧
      (b.declare name autoDelete).1.resolve
          (b.declare name autoDelete).2 =
        some (b.declare name autoDelete).2 := by
  unfold Broker.declare
  by_cases hEmpty : name = .client ""
  · simp [hEmpty, Broker.resolve]
  · rw [if_neg hEmpty]
    cases b.queues name <;> simp [hEmpty, Broker.resolve]

theorem subscribeRaw_staged
    (b : Broker M) (answers : Answers) (pattern : String) :
    Staged b (b.declare (.client "") true).1
      (b.declare (.client "") true).2
      (rabbitBindingKey pattern)
      (subscribeRaw b answers pattern).1
      (subscribeRaw b answers pattern).2 := by
  have hName := (b.declare_resolve (.client "") true).2
  unfold subscribeRaw declareSubscriptionQueue queueDeclare
  cases answers.declare with
  | refused error => exact Staged.untouched
  | lost error => exact Staged.declared
  | ok =>
      cases hKey : rabbitBindingKey pattern with
      | error error => exact Staged.declared
      | ok key => exact Staged.of_bind answers rfl hName

theorem subscribeGroupRaw_staged
    (b : Broker M) (answers : Answers)
    (pattern group : String) :
    Staged b (b.declare (.client group) false).1
      (b.declare (.client group) false).2
      (rabbitBindingKey pattern)
      (subscribeGroupRaw b answers pattern group).1
      (subscribeGroupRaw b answers pattern group).2 := by
  have hName := (b.declare_resolve (.client group) false).1
  unfold subscribeGroupRaw queueDeclare
  cases hKey : rabbitBindingKey pattern with
  | error error => exact Staged.untouched
  | ok key =>
      cases answers.declare with
      | refused error => exact Staged.untouched
      | lost error => exact Staged.declared
      | ok => exact Staged.of_bind answers rfl hName

end RabbitMq

end Bus

end Qanat

------------------------------------------------------------
-- Calls Explained
------------------------------------------------------------

namespace Qanat

namespace Bus

namespace RabbitMq

open Transition

variable {M : Type}

/- A queue without keys needs no explanation. -/
theorem Explained.addQueue
    {trace : List (Event M)} {b : Broker M}
    {name : QueueName} {autoDelete : Bool}
    {recent : Option QueueName} {generated : Nat}
    (hExplained : Explained trace b)
    (hNumber :
      ∀ n, generated ≤ n →
        b.generated ≤ n ∧ name ≠ .generated n) :
    Explained trace
      { b.update name (Queue.new autoDelete) with
        recent := recent
        generated := generated } := by
  have hLookup :
      ∀ other queue,
        (b.update name (Queue.new autoDelete)).queues other =
            some queue →
          b.queues other = some queue ∨
            queue = Queue.new autoDelete := by
    intro other queue hQueue
    unfold Broker.update at hQueue
    by_cases hOther : other = name
    · subst hOther
      simp only [Function.update_self] at hQueue
      exact Or.inr (Option.some.inj hQueue).symm
    · simp only [Function.update_of_ne hOther] at hQueue
      exact Or.inl hQueue
  constructor
  case fresh =>
    intro n hBound
    rcases hNumber n hBound with ⟨hOld, hNe⟩
    refine ⟨?_, (hExplained.fresh n hOld).2⟩
    simp only [Broker.update,
      Function.update_of_ne (Ne.symm hNe)]
    exact (hExplained.fresh n hOld).1
  case sound =>
    intro other queue hQueue
    rcases hLookup other queue hQueue with hOld | rfl
    · exact hExplained.sound other queue hOld
    · intro delivery hMem
      cases hMem
  case named =>
    intro other queue hQueue key hKey
    rcases hLookup _ queue hQueue with hOld | rfl
    · exact hExplained.named other queue hOld key hKey
    · cases hKey
  case joined => exact hExplained.joined
  case asked =>
    intro stream consumer hConsumer queue hQueue key hKey
    rcases hLookup _ queue hQueue with hOld | rfl
    · exact hExplained.asked stream consumer hConsumer queue
        hOld key hKey
    · cases hKey
  case buffered => exact hExplained.buffered

theorem Explained.declare
    {trace : List (Event M)} {b : Broker M}
    (hExplained : Explained trace b)
    (name : QueueName) (autoDelete : Bool)
    (hClient : ∀ n, name ≠ .generated n) :
    Explained trace (b.declare name autoDelete).1 := by
  unfold Broker.declare
  by_cases hEmpty : name = .client ""
  · rw [if_pos hEmpty]
    apply hExplained.addQueue
    intro n hBound
    refine ⟨Nat.le_of_succ_le hBound, ?_⟩
    intro hSame
    cases hSame
    exact Nat.lt_irrefl _ hBound
  · rw [if_neg hEmpty]
    cases hQueue : b.queues name with
    | some queue =>
        exact hExplained.frame rfl
          hExplained.keepsBindings_refl b.feedsStreams_refl
    | none =>
        exact hExplained.addQueue
          (fun n hBound => ⟨hBound, hClient n⟩)

/- A new key is one that the streams of the queue ask for. -/
theorem Explained.addBinding
    {trace : List (Event M)} {b : Broker M}
    {name : QueueName} {queue : Queue M} {key : String}
    (hExplained : Explained trace b)
    (hQueue : b.queues name = some queue)
    (hNamed :
      ∀ group, name = .client group →
        ∃ pattern result,
          Event.groupSubscribed pattern group result ∈ trace ∧
            rabbitBindingKey pattern = .ok key)
    (hAsked :
      ∀ stream consumer,
        b.consumers[stream]? = some consumer →
          consumer.queue = name → Asked trace stream key) :
    Explained trace (b.addBinding name queue key) := by
  have hLookup :
      ∀ other found,
        (b.addBinding name queue key).queues other =
            some found →
          ∃ before, b.queues other = some before ∧
            found.ready = before.ready ∧
            found.unacked = before.unacked ∧
            ∀ k, k ∈ found.bindings ↔
              k ∈ before.bindings ∨ other = name ∧ k = key := by
    intro other found hFound
    unfold Broker.addBinding Broker.update at hFound
    by_cases hOther : other = name
    · subst hOther
      simp only [Function.update_self] at hFound
      cases hFound
      exact ⟨queue, hQueue, rfl, rfl, by simp⟩
    · simp only [Function.update_of_ne hOther] at hFound
      exact ⟨found, hFound, rfl, rfl, by simp [hOther]⟩
  constructor
  case fresh =>
    intro n hBound
    rcases hExplained.fresh n hBound with ⟨hNone, hUnused⟩
    refine ⟨?_, hUnused⟩
    rw [Option.eq_none_iff_forall_ne_some]
    intro found hFound
    rcases hLookup _ found hFound with ⟨before, hBefore, _⟩
    rw [hNone] at hBefore
    cases hBefore
  case sound =>
    intro other found hFound delivery hMem
    rcases hLookup other found hFound with
      ⟨before, hBefore, hReady, hUnacked, hKeys⟩
    rw [hReady, hUnacked] at hMem
    rcases hExplained.sound other before hBefore delivery hMem
      with ⟨k, hKey, hMatch⟩
    exact ⟨k, (hKeys k).mpr (Or.inl hKey), hMatch⟩
  case named =>
    intro group found hFound k hKey
    rcases hLookup _ found hFound with
      ⟨before, hBefore, _, _, hKeys⟩
    rcases (hKeys k).mp hKey with hOld | ⟨hSame, rfl⟩
    · exact hExplained.named group before hBefore k hOld
    · exact hNamed group hSame.symm
  case joined => exact hExplained.joined
  case asked =>
    intro stream consumer hConsumer found hFound k hKey
    rcases hLookup _ found hFound with
      ⟨before, hBefore, _, _, hKeys⟩
    rcases (hKeys k).mp hKey with hOld | ⟨hSame, rfl⟩
    · exact hExplained.asked stream consumer hConsumer before
        hBefore k hOld
    · exact hAsked stream consumer hConsumer hSame
  case buffered => exact hExplained.buffered

/- A new stream asks for the keys of its queue. -/
theorem Explained.addConsumer
    {trace : List (Event M)} {b : Broker M}
    {name : QueueName} {queue : Queue M}
    (hExplained : Explained trace b)
    (hQueue : b.queues name = some queue)
    (hJoined : Joined trace b.consumers.length name)
    (hAsked :
      ∀ key ∈ queue.bindings,
        Asked trace b.consumers.length key) :
    Explained trace (b.addConsumer name) := by
  have hLookup :
      ∀ (stream : StreamId) (consumer : Consumer M),
        (b.addConsumer name).consumers[stream]? =
            some consumer →
          b.consumers[stream]? = some consumer ∨
            stream = b.consumers.length ∧
              consumer = ⟨name, true, []⟩ := by
    intro stream consumer hConsumer
    exact Lists.getElem?_append_singleton_eq_some.mp hConsumer
  constructor
  case fresh =>
    intro n hBound
    rcases hExplained.fresh n hBound with ⟨hNone, hUnused⟩
    refine ⟨hNone, ?_⟩
    intro consumer hMem hSame
    rcases List.mem_append.mp hMem with hOld | hNew
    · exact hUnused consumer hOld hSame
    · rw [List.mem_singleton.mp hNew] at hSame
      simp only at hSame
      rw [hSame, hNone] at hQueue
      cases hQueue
  case sound => exact hExplained.sound
  case named => exact hExplained.named
  case joined =>
    intro stream consumer hConsumer
    rcases hLookup stream consumer hConsumer with
      hOld | ⟨rfl, rfl⟩
    · exact hExplained.joined stream consumer hOld
    · exact hJoined
  case asked =>
    intro stream consumer hConsumer found hFound key hKey
    rcases hLookup stream consumer hConsumer with
      hOld | ⟨rfl, rfl⟩
    · exact hExplained.asked stream consumer hOld found hFound
        key hKey
    · have hSame : queue = found :=
        Option.some.inj (hQueue.symm.trans hFound)
      rw [← hSame] at hKey
      exact hAsked key hKey
  case buffered =>
    intro stream consumer hConsumer delivery hMem
    rcases hLookup stream consumer hConsumer with
      hOld | ⟨rfl, rfl⟩
    · exact hExplained.buffered stream consumer hOld delivery
        hMem
    · cases hMem

/- Every stage of a call is explained if the last one is. -/
theorem Explained.staged
    {trace : List (Event M)} {b declared b' : Broker M}
    {actual : QueueName} {binding : Except BusError String}
    {result : Except BusError StreamId}
    (hStaged : Staged b declared actual binding b' result)
    (hBefore : Explained trace b)
    (hDeclared : Explained trace declared)
    (hNamed :
      ∀ key group, binding = .ok key →
        actual = .client group →
          ∃ pattern result,
            Event.groupSubscribed pattern group result ∈
                trace ∧
              rabbitBindingKey pattern = .ok key)
    (hAsked :
      ∀ key stream consumer, binding = .ok key →
        declared.consumers[stream]? = some consumer →
          consumer.queue = actual → Asked trace stream key)
    (hNew :
      ∀ key queue, binding = .ok key →
        declared.queues actual = some queue →
          result = .ok declared.consumers.length →
            Joined trace declared.consumers.length actual ∧
              ∀ k ∈ queue.bindings ++ [key],
                Asked trace declared.consumers.length k) :
    Explained trace b' := by
  cases hStaged with
  | untouched => exact hBefore
  | declared => exact hDeclared
  | @bound key queue error hKey hQueue =>
      exact hDeclared.addBinding hQueue
        (fun group => hNamed key group hKey)
        (fun stream consumer => hAsked key stream consumer hKey)
  | @consuming key queue hKey hQueue =>
      have hBound := hDeclared.addBinding hQueue
        (fun group => hNamed key group hKey)
        (fun stream consumer => hAsked key stream consumer hKey)
      rcases hNew key queue hKey hQueue rfl with
        ⟨hJoined, hKeys⟩
      have hHere :
          (declared.addBinding actual queue key).queues actual =
            some { queue with
              bindings := queue.bindings ++ [key] } := by
        simp [Broker.addBinding, Broker.update]
      exact hBound.addConsumer hHere hJoined hKeys

end RabbitMq

end Bus

end Qanat

------------------------------------------------------------
-- Runs
------------------------------------------------------------

namespace Qanat

namespace Bus

namespace RabbitMq

open Transition

variable {M : Type}

theorem Broker.declare_consumers
    (b : Broker M) (name : QueueName) (autoDelete : Bool) :
    (b.declare name autoDelete).1.consumers = b.consumers := by
  unfold Broker.declare
  by_cases hEmpty : name = .client ""
  · rw [if_pos hEmpty]
    rfl
  · rw [if_neg hEmpty]
    cases b.queues name <;> rfl

/- A call that returns a stream has added its consumer. -/
theorem Staged.consumers_length
    {b declared b' : Broker M} {actual : QueueName}
    {binding : Except BusError String}
    {result : Except BusError StreamId}
    (hStaged : Staged b declared actual binding b' result)
    (hDeclared : declared.consumers = b.consumers) :
    b.consumers.length ≤ b'.consumers.length ∧
      ∀ stream, result = .ok stream →
        stream = b.consumers.length ∧
          stream < b'.consumers.length := by
  cases hStaged with
  | untouched => exact ⟨Nat.le_refl _, nofun⟩
  | declared =>
      rw [hDeclared]
      exact ⟨Nat.le_refl _, nofun⟩
  | bound =>
      refine ⟨?_, nofun⟩
      change b.consumers.length ≤ declared.consumers.length
      rw [hDeclared]
  | consuming =>
      simp only [Broker.addConsumer, Broker.addBinding,
        Broker.update, hDeclared, List.length_append,
        List.length_singleton]
      refine ⟨Nat.le_succ _, ?_⟩
      intro stream hSame
      cases hSame
      exact ⟨rfl, Nat.lt_succ_self _⟩

/- Streams are new when they are opened, and stay. -/
theorem Step.consumers_length
    {b b' : Broker M} {e : Event M}
    (hStep : Step b e b') :
    b.consumers.length ≤ b'.consumers.length ∧
      ∀ stream, e.Opens stream →
        stream = b.consumers.length ∧
          stream < b'.consumers.length := by
  cases hStep with
  | @subscribe answers pattern =>
      have hStaged :=
        (subscribeRaw_staged b answers pattern).consumers_length
          (b.declare_consumers _ _)
      refine ⟨hStaged.1, ?_⟩
      rintro stream (⟨_, hEvent⟩ | ⟨_, _, hEvent⟩)
      · injection hEvent with _ hResult
        exact hStaged.2 stream hResult
      · cases hEvent
  | @subscribeGroup answers pattern group =>
      have hStaged :=
        (subscribeGroupRaw_staged b answers pattern
          group).consumers_length (b.declare_consumers _ _)
      refine ⟨hStaged.1, ?_⟩
      rintro stream (⟨_, hEvent⟩ | ⟨_, _, hEvent⟩)
      · cases hEvent
      · injection hEvent with _ _ hResult
        exact hStaged.2 stream hResult
  | _ =>
      refine ⟨by simp [Broker.publish, Broker.update,
        Broker.cancel], ?_⟩
      rintro stream (⟨_, hEvent⟩ | ⟨_, _, hEvent⟩) <;>
        cases hEvent

theorem opened_lt
    {trace : List (Event M)} {b : Broker M}
    (hReach : (lts M).Reachable trace b)
    {e : Event M} {stream : StreamId}
    (hMem : e ∈ trace)
    (hOpens : e.Opens stream) :
    stream < b.consumers.length := by
  induction hReach with
  | initial _ => cases hMem
  | step hReach hStep ih =>
      have hLength := hStep.consumers_length
      rcases List.mem_append.mp hMem with hOld | hNew
      · exact Nat.lt_of_lt_of_le (ih hOld) hLength.1
      · rw [List.mem_singleton] at hNew
        subst hNew
        exact (hLength.2 stream hOpens).2

/- A call under a name explains a key to its streams. -/
theorem Joined.asked
    {trace : List (Event M)} {stream : StreamId}
    {name pattern key : String}
    {result : Except BusError StreamId}
    (hJoined : Joined trace stream (.client name))
    (hCall :
      Event.groupSubscribed pattern name result ∈ trace)
    (hKey : rabbitBindingKey pattern = .ok key) :
    Asked trace stream key where
  own := fun pattern hMem =>
    (hJoined.2.1 pattern hMem).elim
  group := by
    intro own group hMem
    have hSame := hJoined.2.2 own group hMem
    subst hSame
    exact ⟨pattern, result, hCall, hKey,
      fun hEmpty => (hJoined.1 hEmpty).elim⟩

/- The queue that is declared under the empty name. -/
theorem Explained.declare_empty
    {trace : List (Event M)} {b : Broker M}
    (hExplained : Explained trace b)
    (autoDelete : Bool) :
    (b.declare (.client "") autoDelete).1.queues
        (b.declare (.client "") autoDelete).2 =
      some (Queue.new autoDelete) ∧
    (b.declare (.client "") autoDelete).2 =
      .generated b.generated ∧
    ∀ consumer ∈ b.consumers,
      consumer.queue ≠
        (b.declare (.client "") autoDelete).2 := by
  have hFresh := (hExplained.fresh _ (Nat.le_refl _)).2
  refine ⟨?_, rfl, hFresh⟩
  simp [Broker.declare, Broker.update]

/- A call with a queue of its own. -/
theorem Explained.own_queue
    {trace : List (Event M)} {b b' : Broker M}
    {binding : Except BusError String}
    {result : Except BusError StreamId} {autoDelete : Bool}
    (hExplained : Explained trace b)
    (hStaged :
      Staged b (b.declare (.client "") autoDelete).1
        (b.declare (.client "") autoDelete).2 binding b'
        result)
    (hOwn :
      ∀ key, binding = .ok key →
        result = .ok b.consumers.length →
          Asked trace b.consumers.length key) :
    Explained trace b' := by
  rcases hExplained.declare_empty autoDelete with
    ⟨hQueue, hActual, hUnused⟩
  have hConsumers :=
    b.declare_consumers (.client "") autoDelete
  refine Explained.staged hStaged hExplained
    (hExplained.declare _ _ (fun _ hSame => by cases hSame))
    ?_ ?_ ?_
  · intro key group _ hSame
    rw [hActual] at hSame
    cases hSame
  · intro key stream consumer _ hConsumer hSame
    rw [hConsumers] at hConsumer
    exact (hUnused consumer
      (List.mem_of_getElem? hConsumer) hSame).elim
  · intro key queue hKey hFound hResult
    rw [hQueue] at hFound
    cases hFound
    rw [hConsumers] at hResult ⊢
    refine ⟨by rw [hActual]; trivial, ?_⟩
    intro k hMem
    rw [List.mem_singleton.mp hMem]
    exact hOwn key hKey hResult

/- A call for the queue of a group. -/
theorem Explained.group_queue
    {trace : List (Event M)} {b b' : Broker M}
    {pattern group : String}
    {result result' : Except BusError StreamId}
    {autoDelete : Bool}
    (hExplained : Explained trace b)
    (hGroup : group ≠ "")
    (hStaged :
      Staged b (b.declare (.client group) autoDelete).1
        (b.declare (.client group) autoDelete).2
        (rabbitBindingKey pattern) b' result)
    (hCall :
      Event.groupSubscribed pattern group result' ∈ trace)
    (hNew :
      result = .ok b.consumers.length →
        Joined trace b.consumers.length (.client group)) :
    Explained trace b' := by
  have hActual :
      (b.declare (.client group) autoDelete).2 =
        .client group := by
    unfold Broker.declare
    rw [if_neg (by simpa using hGroup)]
    cases b.queues (.client group) <;> rfl
  have hConsumers :=
    b.declare_consumers (.client group) autoDelete
  have hDeclared := hExplained.declare (.client group)
    autoDelete (fun _ hSame => by cases hSame)
  rw [hActual] at hStaged
  refine Explained.staged hStaged hExplained hDeclared ?_ ?_ ?_
  · intro key other hKey hSame
    cases hSame
    exact ⟨pattern, result', hCall, hKey⟩
  · intro key stream consumer hKey hConsumer hSame
    have hJoined := hDeclared.joined stream consumer hConsumer
    rw [hSame] at hJoined
    exact hJoined.asked hCall hKey
  · intro key queue hKey hQueue hResult
    rw [hConsumers] at hResult ⊢
    have hJoined := hNew hResult
    refine ⟨hJoined, ?_⟩
    intro k hMem
    rcases List.mem_append.mp hMem with hOld | hLast
    · rcases hDeclared.named group queue hQueue k hOld with
        ⟨other, reply, hOther, hSame⟩
      exact hJoined.asked hOther hSame
    · rw [List.mem_singleton.mp hLast]
      exact hJoined.asked hCall hKey

end RabbitMq

end Bus

end Qanat
