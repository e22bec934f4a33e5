import Qanat.Bus.RabbitMq.Model

/-
  The keys of the queues and what is in the streams, as the
  history of the calls explains them.

  Main declarations:
    * `RabbitMq.Asked`, `RabbitMq.Explained`
    * `RabbitMq.Explained.frame`
-/

------------------------------------------------------------
-- Histories
------------------------------------------------------------

namespace Qanat

namespace Bus

namespace RabbitMq

open Transition

variable {M : Type}

/- The call returned the stream. -/
def Event.Opens (stream : StreamId) (e : Event M) : Prop :=
  (∃ pattern, e = .subscribed pattern (.ok stream)) ∨
    ∃ pattern group,
      e = .groupSubscribed pattern group (.ok stream)

/-
  The key is the one of the pattern that the stream was opened
  with or, in a group, of some pattern under the same name.
-/
structure Asked
    (trace : List (Event M)) (stream : StreamId)
    (key : String) : Prop where
  own :
    ∀ pattern,
      Event.subscribed pattern (.ok stream) ∈ trace →
        rabbitBindingKey pattern = .ok key
  group :
    ∀ own group,
      Event.groupSubscribed own group (.ok stream) ∈ trace →
        ∃ pattern result,
          Event.groupSubscribed pattern group result ∈ trace ∧
            rabbitBindingKey pattern = .ok key ∧
            (group = "" → pattern = own)

/- Events that open other streams do not matter. -/
theorem Asked.append
    {trace : List (Event M)} {stream : StreamId}
    {key : String} {e : Event M}
    (hAsked : Asked trace stream key)
    (hOther : ¬ e.Opens stream) :
    Asked (trace ++ [e]) stream key where
  own := by
    intro pattern hMem
    rcases List.mem_append.mp hMem with hOld | hNew
    · exact hAsked.own pattern hOld
    · rw [List.mem_singleton] at hNew
      exact (hOther (Or.inl ⟨pattern, hNew.symm⟩)).elim
  group := by
    intro own group hMem
    rcases List.mem_append.mp hMem with hOld | hNew
    · rcases hAsked.group own group hOld with
        ⟨pattern, result, hCall, hKey, hEmpty⟩
      exact ⟨pattern, result, List.mem_append_left _ hCall,
        hKey, hEmpty⟩
    · rw [List.mem_singleton] at hNew
      exact (hOther (Or.inr ⟨own, group, hNew.symm⟩)).elim

end RabbitMq

end Bus

end Qanat

------------------------------------------------------------
-- Explained States
------------------------------------------------------------

namespace Qanat

namespace Bus

namespace RabbitMq

open Transition

variable {M : Type}

/- What is in a queue is matched by one of its keys. -/
def Queue.Sound (queue : Queue M) : Prop :=
  ∀ delivery ∈ queue.ready ++ queue.unacked,
    ∃ key ∈ queue.bindings,
      topicMatch key delivery.routingKey = true

/- The stream is of a call for a queue with this name. -/
def Joined
    (trace : List (Event M)) (stream : StreamId) :
    QueueName → Prop
| .client name =>
    name ≠ "" ∧
      (∀ pattern,
        Event.subscribed pattern (.ok stream) ∉ trace) ∧
      ∀ pattern group,
        Event.groupSubscribed pattern group (.ok stream) ∈
          trace → group = name
| .generated _ => True

/-
  The history of the calls explains the keys of the queues and
  what is in them and in the streams.
-/
structure Explained
    (trace : List (Event M)) (b : Broker M) : Prop where
  fresh :
    ∀ n, b.generated ≤ n →
      b.queues (.generated n) = none ∧
        ∀ consumer ∈ b.consumers,
          consumer.queue ≠ .generated n
  sound :
    ∀ name queue, b.queues name = some queue → queue.Sound
  named :
    ∀ name queue, b.queues (.client name) = some queue →
      ∀ key ∈ queue.bindings,
        ∃ pattern result,
          Event.groupSubscribed pattern name result ∈ trace ∧
            rabbitBindingKey pattern = .ok key
  joined :
    ∀ stream consumer,
      b.consumers[stream]? = some consumer →
        Joined trace stream consumer.queue
  asked :
    ∀ stream consumer,
      b.consumers[stream]? = some consumer →
        ∀ queue, b.queues consumer.queue = some queue →
          ∀ key ∈ queue.bindings, Asked trace stream key
  buffered :
    ∀ stream consumer,
      b.consumers[stream]? = some consumer →
        ∀ delivery ∈ consumer.buffer,
          ∃ key, Asked trace stream key ∧
            topicMatch key delivery.routingKey = true

theorem Explained.start :
    Explained [] (Broker.start : Broker M) := by
  constructor <;> simp [Broker.start]

theorem Joined.append
    {trace : List (Event M)} {stream : StreamId}
    {name : QueueName} {e : Event M}
    (hJoined : Joined trace stream name)
    (hOther : ¬ e.Opens stream) :
    Joined (trace ++ [e]) stream name := by
  cases name with
  | generated n => trivial
  | client name =>
      rcases hJoined with ⟨hName, hFanout, hGroup⟩
      refine ⟨hName, ?_, ?_⟩
      · intro pattern hMem
        rcases List.mem_append.mp hMem with hOld | hNew
        · exact hFanout pattern hOld
        · rw [List.mem_singleton] at hNew
          exact hOther (Or.inl ⟨pattern, hNew.symm⟩)
      · intro pattern group hMem
        rcases List.mem_append.mp hMem with hOld | hNew
        · exact hGroup pattern group hOld
        · rw [List.mem_singleton] at hNew
          exact (hOther
            (Or.inr ⟨pattern, group, hNew.symm⟩)).elim

/- A longer history explains the same state. -/
theorem Explained.append
    {trace : List (Event M)} {b : Broker M} {e : Event M}
    (hExplained : Explained trace b)
    (hOther :
      ∀ stream, e.Opens stream →
        b.consumers.length ≤ stream) :
    Explained (trace ++ [e]) b := by
  have hOld :
      ∀ stream consumer,
        b.consumers[stream]? = some consumer →
          ¬ e.Opens stream := by
    intro stream consumer hConsumer hOpens
    have hBound := (List.getElem?_eq_some_iff.mp hConsumer).1
    exact Nat.lt_irrefl _
      (Nat.lt_of_lt_of_le hBound (hOther stream hOpens))
  refine ⟨hExplained.fresh, hExplained.sound, ?_, ?_, ?_, ?_⟩
  · intro name queue hQueue key hKey
    rcases hExplained.named name queue hQueue key hKey with
      ⟨pattern, result, hCall, hSame⟩
    exact ⟨pattern, result, List.mem_append_left _ hCall,
      hSame⟩
  · intro stream consumer hConsumer
    exact (hExplained.joined stream consumer hConsumer).append
      (hOld stream consumer hConsumer)
  · intro stream consumer hConsumer queue hQueue key hKey
    exact (hExplained.asked stream consumer hConsumer queue
      hQueue key hKey).append (hOld stream consumer hConsumer)
  · intro stream consumer hConsumer delivery hMem
    rcases hExplained.buffered stream consumer hConsumer
        delivery hMem with ⟨key, hAsked, hMatch⟩
    exact ⟨key, hAsked.append (hOld stream consumer hConsumer),
      hMatch⟩

end RabbitMq

end Bus

end Qanat

------------------------------------------------------------
-- The Broker at Work
------------------------------------------------------------

namespace Qanat

namespace Bus

namespace RabbitMq

open Transition

variable {M : Type}

/- Queues keep their keys and what is in them is matched. -/
def Broker.KeepsBindings
    (b : Broker M) (queues : QueueName → Option (Queue M)) :
    Prop :=
  ∀ name queue, queues name = some queue →
    queue.Sound ∧
      ∃ before, b.queues name = some before ∧
        queue.bindings = before.bindings

/- Streams are given what was ready in their queues. -/
def Broker.FeedsStreams
    (b : Broker M) (consumers : List (Consumer M)) : Prop :=
  ∀ (stream : StreamId) (consumer : Consumer M),
    consumers[stream]? = some consumer →
      ∃ before, b.consumers[stream]? = some before ∧
        consumer.queue = before.queue ∧
        ∀ delivery ∈ consumer.buffer,
          delivery ∈ before.buffer ∨
            ∃ queue, b.queues before.queue = some queue ∧
              delivery ∈ queue.ready

/- Deliveries do not need new explanations. -/
theorem Explained.frame
    {trace : List (Event M)} {b b' : Broker M}
    (hExplained : Explained trace b)
    (hGenerated : b'.generated = b.generated)
    (hQueues : b.KeepsBindings b'.queues)
    (hConsumers : b.FeedsStreams b'.consumers) :
    Explained trace b' := by
  constructor
  case fresh =>
    intro n hBound
    rw [hGenerated] at hBound
    rcases hExplained.fresh n hBound with ⟨hNone, hUnused⟩
    refine ⟨?_, ?_⟩
    · rw [Option.eq_none_iff_forall_ne_some]
      intro queue hQueue
      rcases (hQueues _ queue hQueue).2 with
        ⟨before, hBefore, _⟩
      rw [hNone] at hBefore
      cases hBefore
    · intro consumer hMem
      rcases List.mem_iff_getElem?.mp hMem with
        ⟨stream, hConsumer⟩
      rcases hConsumers stream consumer hConsumer with
        ⟨before, hBefore, hSame, _⟩
      rw [hSame]
      exact hUnused before (List.mem_of_getElem? hBefore)
  case sound =>
    intro name queue hQueue
    exact (hQueues name queue hQueue).1
  case named =>
    intro name queue hQueue key hKey
    rcases (hQueues _ queue hQueue).2 with
      ⟨before, hBefore, hBindings⟩
    rw [hBindings] at hKey
    exact hExplained.named name before hBefore key hKey
  case joined =>
    intro stream consumer hConsumer
    rcases hConsumers stream consumer hConsumer with
      ⟨before, hBefore, hSame, _⟩
    rw [hSame]
    exact hExplained.joined stream before hBefore
  case asked =>
    intro stream consumer hConsumer queue hQueue key hKey
    rcases hConsumers stream consumer hConsumer with
      ⟨before, hBefore, hSame, _⟩
    rw [hSame] at hQueue
    rcases (hQueues _ queue hQueue).2 with
      ⟨old, hOld, hBindings⟩
    rw [hBindings] at hKey
    exact hExplained.asked stream before hBefore old hOld key
      hKey
  case buffered =>
    intro stream consumer hConsumer delivery hMem
    rcases hConsumers stream consumer hConsumer with
      ⟨before, hBefore, _, hBuffer⟩
    rcases hBuffer delivery hMem with
      hOld | ⟨queue, hQueue, hReady⟩
    · exact hExplained.buffered stream before hBefore
        delivery hOld
    · rcases hExplained.sound _ queue hQueue delivery
          (List.mem_append_left _ hReady) with
        ⟨key, hKey, hMatch⟩
      exact ⟨key, hExplained.asked stream before hBefore
        queue hQueue key hKey, hMatch⟩

/- A queue of which no more than the messages change. -/
theorem Explained.keepsBindings_update
    {trace : List (Event M)} {b : Broker M}
    {name : QueueName} {queue queue' : Queue M}
    (hExplained : Explained trace b)
    (hQueue : b.queues name = some queue)
    (hBindings : queue'.bindings = queue.bindings)
    (hMem :
      ∀ delivery ∈ queue'.ready ++ queue'.unacked,
        delivery ∈ queue.ready ++ queue.unacked) :
    b.KeepsBindings (b.update name queue').queues := by
  intro other found hFound
  unfold Broker.update at hFound
  by_cases hOther : other = name
  · subst hOther
    simp only [Function.update_self] at hFound
    cases hFound
    refine ⟨?_, queue, hQueue, hBindings⟩
    intro delivery hDelivery
    rw [hBindings]
    exact hExplained.sound other queue hQueue delivery
      (hMem delivery hDelivery)
  · simp only [Function.update_of_ne hOther] at hFound
    exact ⟨hExplained.sound other found hFound, found, hFound,
      rfl⟩

/- One consumer has another buffer. -/
theorem Broker.feedsStreams_set
    {b : Broker M} {stream : StreamId}
    {old new : Consumer M}
    (hOld : b.consumers[stream]? = some old)
    (hQueue : new.queue = old.queue)
    (hBuffer :
      ∀ delivery ∈ new.buffer, delivery ∈ old.buffer ∨
        ∃ queue, b.queues old.queue = some queue ∧
          delivery ∈ queue.ready) :
    b.FeedsStreams (b.consumers.set stream new) := by
  intro other consumer hConsumer
  by_cases hOther : stream = other
  · subst hOther
    rw [List.getElem?_set_self
      (List.getElem?_eq_some_iff.mp hOld).1] at hConsumer
    cases hConsumer
    exact ⟨old, hOld, hQueue, hBuffer⟩
  · rw [List.getElem?_set_ne hOther] at hConsumer
    exact ⟨consumer, hConsumer, rfl,
      fun _ hMem => Or.inl hMem⟩

theorem Broker.feedsStreams_refl (b : Broker M) :
    b.FeedsStreams b.consumers := by
  intro stream consumer hConsumer
  exact ⟨consumer, hConsumer, rfl,
    fun _ hMem => Or.inl hMem⟩

theorem Explained.keepsBindings_refl
    {trace : List (Event M)} {b : Broker M}
    (hExplained : Explained trace b) :
    b.KeepsBindings b.queues := by
  intro name queue hQueue
  exact ⟨hExplained.sound name queue hQueue, queue, hQueue,
    rfl⟩

theorem Explained.publish
    {trace : List (Event M)} {b : Broker M}
    (hExplained : Explained trace b)
    (delivery : Delivery M) :
    Explained trace (b.publish delivery) := by
  refine hExplained.frame rfl ?_ b.feedsStreams_refl
  intro name queue' hQueue'
  rcases Option.map_eq_some_iff.mp hQueue' with
    ⟨queue, hQueue, hNew⟩
  have hSound := hExplained.sound name queue hQueue
  by_cases hAny :
      queue.bindings.any
        (fun key => topicMatch key delivery.routingKey) = true
  · rw [if_pos hAny] at hNew
    subst hNew
    refine ⟨?_, queue, hQueue, rfl⟩
    intro d hMem
    rcases List.mem_append.mp hMem with hReady | hUnacked
    · rcases List.mem_append.mp hReady with hOld | hSent
      · exact hSound d (List.mem_append_left _ hOld)
      · rw [List.mem_singleton.mp hSent]
        exact List.any_eq_true.mp hAny
    · exact hSound d (List.mem_append_right _ hUnacked)
  · rw [if_neg hAny] at hNew
    subst hNew
    exact ⟨hSound, queue, hQueue, rfl⟩

theorem Explained.deliver
    {trace : List (Event M)} {b : Broker M}
    {stream : StreamId} {consumer : Consumer M}
    {queue : Queue M} {front back : List (Delivery M)}
    {delivery : Delivery M}
    (hExplained : Explained trace b)
    (hConsumer : b.consumers[stream]? = some consumer)
    (hQueue : b.queues consumer.queue = some queue)
    (hReady : queue.ready = front ++ delivery :: back) :
    Explained trace
      { b.update consumer.queue
          { queue with
            ready := front ++ back
            unacked := queue.unacked ++ [delivery] } with
        consumers :=
          b.consumers.set stream
            { consumer with
              buffer := consumer.buffer ++ [delivery] } } := by
  have hHere : delivery ∈ queue.ready := by
    rw [hReady]
    exact List.mem_append_right _ List.mem_cons_self
  refine hExplained.frame rfl
    (hExplained.keepsBindings_update hQueue rfl ?_)
    (Broker.feedsStreams_set hConsumer rfl ?_)
  · intro d hMem
    rw [hReady]
    simp only [List.mem_append, List.mem_cons,
      List.not_mem_nil, or_false] at hMem ⊢
    tauto
  · intro d hMem
    rcases List.mem_append.mp hMem with hOld | hNew
    · exact Or.inl hOld
    · rw [List.mem_singleton.mp hNew]
      exact Or.inr ⟨queue, hQueue, hHere⟩

theorem Explained.cancel
    {trace : List (Event M)} {b : Broker M}
    {stream : StreamId} {consumer : Consumer M}
    (hExplained : Explained trace b)
    (hConsumer : b.consumers[stream]? = some consumer) :
    Explained trace (b.cancel stream consumer.queue) := by
  refine hExplained.frame rfl ?_
    (Broker.feedsStreams_set hConsumer rfl
      (fun _ hMem => (List.not_mem_nil hMem).elim))
  intro name queue hQueue
  have hOld : b.queues name = some queue := by
    unfold Broker.cancel at hQueue
    simp only at hQueue
    split at hQueue
    · cases hQueue
    · exact hQueue
  exact ⟨hExplained.sound name queue hOld, queue, hOld, rfl⟩

end RabbitMq

end Bus

end Qanat
