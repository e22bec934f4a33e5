import Qanat.Bus.RabbitMq.BindingKey
import Qanat.Bus.RabbitMq.Calls

/-
  What the streams of the RabbitMQ bus yield: messages for a
  pattern that the queue of the stream was bound to.

  Main declarations:
    * `RabbitMq.explained_of_reachable`
    * `RabbitMq.Matches`
    * `RabbitMq.yielded_subject_asked_for`
-/

------------------------------------------------------------
-- Runs
------------------------------------------------------------

namespace Qanat

namespace Bus

namespace RabbitMq

open Transition

variable {M : Type}

/- A step is explained before it has changed anything. -/
theorem Explained.append_step
    {trace : List (Event M)} {b b' : Broker M}
    {e : Event M}
    (hExplained : Explained trace b)
    (hStep : Step b e b') :
    Explained (trace ++ [e]) b := by
  apply hExplained.append
  intro stream hOpens
  exact Nat.le_of_eq
    (hStep.consumers_length.2 stream hOpens).1.symm

/- The next stream has not been opened before. -/
theorem not_opens_next
    {trace : List (Event M)} {b : Broker M} {e : Event M}
    (hReach : (lts M).Reachable trace b)
    (hMem : e ∈ trace) :
    ¬ e.Opens b.consumers.length := by
  intro hOpens
  exact Nat.lt_irrefl _ (opened_lt hReach hMem hOpens)

theorem Explained.subscribe
    {trace : List (Event M)} {b : Broker M}
    (hReach : (lts M).Reachable trace b)
    (hExplained : Explained trace b)
    (answers : Answers) (pattern : String) :
    Explained
      (trace ++
        [.subscribed pattern
          (subscribeRaw b answers pattern).2])
      (subscribeRaw b answers pattern).1 := by
  have hStep : Step b _ _ :=
    @Step.subscribe M b answers pattern
  have hLonger := hExplained.append_step hStep
  refine hLonger.own_queue
    (subscribeRaw_staged b answers pattern) ?_
  intro key hKey hResult
  constructor
  case own =>
    intro other hMem
    rcases List.mem_append.mp hMem with hOld | hNew
    · exact (not_opens_next hReach hOld
        (Or.inl ⟨other, rfl⟩)).elim
    · rw [List.mem_singleton] at hNew
      injection hNew with hSame _
      rw [hSame, hKey]
  case group =>
    intro own group hMem
    rcases List.mem_append.mp hMem with hOld | hNew
    · exact (not_opens_next hReach hOld
        (Or.inr ⟨own, group, rfl⟩)).elim
    · rw [List.mem_singleton] at hNew
      cases hNew

theorem Explained.subscribeGroup
    {trace : List (Event M)} {b : Broker M}
    (hReach : (lts M).Reachable trace b)
    (hExplained : Explained trace b)
    (answers : Answers) (pattern group : String) :
    Explained
      (trace ++
        [.groupSubscribed pattern group
          (subscribeGroupRaw b answers pattern group).2])
      (subscribeGroupRaw b answers pattern group).1 := by
  have hStep : Step b _ _ :=
    @Step.subscribeGroup M b answers pattern group
  have hLonger := hExplained.append_step hStep
  have hStaged :=
    subscribeGroupRaw_staged b answers pattern group
  have hFanout :
      ∀ other,
        Event.subscribed other (.ok b.consumers.length) ∉
          trace ++
            [.groupSubscribed pattern group
              (subscribeGroupRaw b answers pattern
                group).2] := by
    intro other hMem
    rcases List.mem_append.mp hMem with hOld | hNew
    · exact not_opens_next hReach hOld
        (Or.inl ⟨other, rfl⟩)
    · rw [List.mem_singleton] at hNew
      cases hNew
  have hGroup :
      ∀ own name,
        Event.groupSubscribed own name
            (.ok b.consumers.length) ∈
          trace ++
            [.groupSubscribed pattern group
              (subscribeGroupRaw b answers pattern
                group).2] →
          own = pattern ∧ name = group := by
    intro own name hMem
    rcases List.mem_append.mp hMem with hOld | hNew
    · exact (not_opens_next hReach hOld
        (Or.inr ⟨own, name, rfl⟩)).elim
    · rw [List.mem_singleton] at hNew
      injection hNew with hOwn hName _
      exact ⟨hOwn, hName⟩
  have hCall :
      Event.groupSubscribed pattern group
          (subscribeGroupRaw b answers pattern group).2 ∈
        trace ++
          [.groupSubscribed pattern group
            (subscribeGroupRaw b answers pattern group).2] :=
    List.mem_append_right _ (List.mem_singleton_self _)
  by_cases hEmpty : group = ""
  · subst hEmpty
    refine hLonger.own_queue hStaged ?_
    intro key hKey hResult
    refine ⟨fun other hMem => (hFanout other hMem).elim, ?_⟩
    intro own name hMem
    rcases hGroup own name hMem with ⟨rfl, rfl⟩
    exact ⟨own, _, hCall, hKey, fun _ => rfl⟩
  · refine hLonger.group_queue hEmpty hStaged hCall ?_
    intro _
    exact ⟨hEmpty, hFanout,
      fun own name hMem => (hGroup own name hMem).2⟩

theorem Explained.step
    {trace : List (Event M)} {b b' : Broker M}
    {e : Event M}
    (hReach : (lts M).Reachable trace b)
    (hExplained : Explained trace b)
    (hStep : Step b e b') :
    Explained (trace ++ [e]) b' := by
  have hLonger := hExplained.append_step hStep
  cases hStep with
  | @subscribe answers pattern =>
      exact hExplained.subscribe hReach answers pattern
  | @subscribeGroup answers pattern group =>
      exact hExplained.subscribeGroup hReach answers pattern
        group
  | publish => exact hLonger.publish _
  | deliver hConsumer hQueue hReady =>
      exact hLonger.deliver hConsumer hQueue hReady
  | yield hConsumer =>
      refine hLonger.frame rfl hLonger.keepsBindings_refl
        (Broker.feedsStreams_set hConsumer rfl ?_)
      intro delivery hMem
      exact Or.inl (List.mem_cons_of_mem _ hMem)
  | requeue hQueue hUnacked =>
      refine hLonger.frame rfl
        (hLonger.keepsBindings_update hQueue rfl ?_)
        (Broker.feedsStreams_refl _)
      intro delivery hMem
      rw [hUnacked]
      simp only [List.mem_append, List.mem_cons] at hMem ⊢
      tauto
  | settle hQueue hUnacked =>
      refine hLonger.frame rfl
        (hLonger.keepsBindings_update hQueue rfl ?_)
        (Broker.feedsStreams_refl _)
      intro delivery hMem
      rw [hUnacked]
      simp only [List.mem_append, List.mem_cons] at hMem ⊢
      tauto
  | cancel hConsumer => exact hLonger.cancel hConsumer

theorem explained_of_reachable
    {trace : List (Event M)} {b : Broker M}
    (hReach : (lts M).Reachable trace b) :
    Explained trace b := by
  induction hReach with
  | initial hStart =>
      rw [hStart]
      exact Explained.start
  | step hReach hStep ih => exact ih.step hReach hStep

end RabbitMq

end Bus

end Qanat

------------------------------------------------------------
-- What Streams Yield
------------------------------------------------------------

namespace Qanat

namespace Bus

namespace RabbitMq

open Transition

variable {M : Type}

/-
  The key of the pattern matches the subject, and without a
  `#` of its own so does the pattern.
-/
def Matches (pattern subject : String) : Prop :=
  (∃ key, rabbitBindingKey pattern = .ok key ∧
    topicMatch key subject = true) ∧
  (['#'] ∉ tokens pattern →
    wildcardMatch pattern subject = true)

theorem Matches.of_key
    {pattern key subject : String}
    (hKey : rabbitBindingKey pattern = .ok key)
    (hMatch : topicMatch key subject = true) :
    Matches pattern subject :=
  ⟨⟨key, hKey, hMatch⟩,
    fun hHash => wildcardMatch_of_topicMatch hKey hHash hMatch⟩

/-
  What a stream yields is matched by the pattern that it was
  opened with or, in a group, by the pattern of some earlier
  call under the same name.
-/
theorem yielded_subject_asked_for
    {trace earlier later : List (Event M)} {b : Broker M}
    {stream : StreamId} {delivery : Delivery M}
    (hReach : (lts M).Reachable trace b)
    (hTrace :
      trace = earlier ++ .yielded stream delivery :: later) :
    (∀ pattern,
      Event.subscribed pattern (.ok stream) ∈ earlier →
        Matches pattern delivery.routingKey) ∧
    (∀ own group,
      Event.groupSubscribed own group (.ok stream) ∈ earlier →
        ∃ pattern result,
          Event.groupSubscribed pattern group result ∈
              earlier ∧
            (group = "" → pattern = own) ∧
            Matches pattern delivery.routingKey) := by
  rcases hReach.before hTrace with ⟨b, b', hBefore, hStep⟩
  have hExplained := explained_of_reachable hBefore
  have hAsked :
      ∃ key, Asked earlier stream key ∧
        topicMatch key delivery.routingKey = true := by
    cases hStep with
    | yield hConsumer =>
        exact hExplained.buffered stream _ hConsumer delivery
          List.mem_cons_self
  rcases hAsked with ⟨key, hAsked, hMatch⟩
  refine ⟨?_, ?_⟩
  · intro pattern hOpened
    exact Matches.of_key (hAsked.own pattern hOpened) hMatch
  · intro own group hOpened
    rcases hAsked.group own group hOpened with
      ⟨pattern, result, hCall, hKey, hEmpty⟩
    exact ⟨pattern, result, hCall, hEmpty,
      Matches.of_key hKey hMatch⟩

def granted : Answers where
  declare := .ok
  bind := .ok
  consume := .ok
  notFound := ""

/- The second call binds the queue of the first stream. -/
theorem workers_yield_task :
    ∃ b,
      (lts Nat).Reachable
        [.groupSubscribed "jobs.*" "workers" (.ok 0),
          .groupSubscribed "tasks.*" "workers" (.ok 1),
          .published ⟨"tasks.a", 7⟩,
          .delivered 0 ⟨"tasks.a", 7⟩,
          .yielded 0 ⟨"tasks.a", 7⟩] b := by
  have hStart :
      (lts Nat).Reachable [] (Broker.start : Broker Nat) :=
    Lts.Reachable.initial rfl
  have hFirst := hStart.step
    (@Step.subscribeGroup Nat _ granted "jobs.*" "workers")
  have hSecond := hFirst.step
    (@Step.subscribeGroup Nat _ granted "tasks.*" "workers")
  have hPublished := hSecond.step
    (@Step.publish Nat _ ⟨"tasks.a", 7⟩)
  have hDelivered := hPublished.step
    (@Step.deliver Nat _ 0 (.client "workers") [] [] []
      ⟨"tasks.a", 7⟩ _ rfl rfl rfl)
  have hYielded := hDelivered.step
    (@Step.yield Nat _ 0 (.client "workers") ⟨"tasks.a", 7⟩ []
      rfl)
  exact ⟨_, hYielded⟩

/- The `#` of a pattern is one of its binding key. -/
theorem logs_yield_nested :
    ∃ b,
      (lts Nat).Reachable
        [.subscribed "logs.#" (.ok 0),
          .published ⟨"logs.a.b", 7⟩,
          .delivered 0 ⟨"logs.a.b", 7⟩,
          .yielded 0 ⟨"logs.a.b", 7⟩] b := by
  have hStart :
      (lts Nat).Reachable [] (Broker.start : Broker Nat) :=
    Lts.Reachable.initial rfl
  have hFirst := hStart.step
    (@Step.subscribe Nat _ granted "logs.#")
  have hPublished := hFirst.step
    (@Step.publish Nat _ ⟨"logs.a.b", 7⟩)
  have hDelivered := hPublished.step
    (@Step.deliver Nat _ 0 (.generated 0) [] [] []
      ⟨"logs.a.b", 7⟩ _ rfl rfl rfl)
  have hYielded := hDelivered.step
    (@Step.yield Nat _ 0 (.generated 0) ⟨"logs.a.b", 7⟩ []
      rfl)
  exact ⟨_, hYielded⟩

/-
  A stream of a group yields what another call under its name
  asked for, and one whose pattern has a `#` what the key of
  the pattern matches.
-/
theorem streams_yield_other_subjects :
    (∃ trace b,
      (lts Nat).Reachable trace b ∧
        .groupSubscribed "jobs.*" "workers" (.ok 0) ∈ trace ∧
        .yielded 0 ⟨"tasks.a", 7⟩ ∈ trace ∧
        ¬ Matches "jobs.*" "tasks.a" ∧
        wildcardMatch "jobs.*" "tasks.a" = false) ∧
    (∃ trace b,
      (lts Nat).Reachable trace b ∧
        .subscribed "logs.#" (.ok 0) ∈ trace ∧
        .yielded 0 ⟨"logs.a.b", 7⟩ ∈ trace ∧
        wildcardMatch "logs.#" "logs.a.b" = false) := by
  refine ⟨?_, ?_⟩
  · rcases workers_yield_task with ⟨b, hReach⟩
    have hOther :
        wildcardMatch "jobs.*" "tasks.a" = false := by
      decide
    refine ⟨_, b, hReach, by simp, by simp, ?_, hOther⟩
    intro hMatches
    have hMatch := hMatches.2 (by decide)
    rw [hOther] at hMatch
    cases hMatch
  · rcases logs_yield_nested with ⟨b, hReach⟩
    exact ⟨_, b, hReach, by simp, by simp, by decide⟩

/- The task is for the pattern of the second call. -/
theorem yielded_subject_asked_for_task :
    ∃ pattern result,
      Event.groupSubscribed pattern "workers" result ∈
          ([.groupSubscribed "jobs.*" "workers" (.ok 0),
            .groupSubscribed "tasks.*" "workers" (.ok 1),
            .published ⟨"tasks.a", 7⟩,
            .delivered 0 ⟨"tasks.a", 7⟩] :
            List (Event Nat)) ∧
        ("workers" = "" → pattern = "jobs.*") ∧
        Matches pattern "tasks.a" := by
  rcases workers_yield_task with ⟨b, hReach⟩
  have hTrace :
      ([.groupSubscribed "jobs.*" "workers" (.ok 0),
          .groupSubscribed "tasks.*" "workers" (.ok 1),
          .published ⟨"tasks.a", 7⟩,
          .delivered 0 ⟨"tasks.a", 7⟩,
          .yielded 0 ⟨"tasks.a", 7⟩] : List (Event Nat)) =
        [.groupSubscribed "jobs.*" "workers" (.ok 0),
          .groupSubscribed "tasks.*" "workers" (.ok 1),
          .published ⟨"tasks.a", 7⟩,
          .delivered 0 ⟨"tasks.a", 7⟩] ++
          .yielded 0 ⟨"tasks.a", 7⟩ :: [] :=
    rfl
  exact (yielded_subject_asked_for hReach hTrace).2 "jobs.*"
    "workers" List.mem_cons_self

end RabbitMq

end Bus

end Qanat
