import Mathlib.Data.List.Flatten
import Qanat.Bus.Routing
import Qanat.Library.Lists

/-
  The routing table as a set of consumers, each with one
  label: the pattern of its fanout binding or the name of its
  queue.

  Main declarations:
    * `Binding.label`, `SubjectRouter.Subscribed`
    * `SubjectRouter.Valid`
    * `SubjectRouter.mem_route_iff`
-/

------------------------------------------------------------
-- Finding and Changing
------------------------------------------------------------

namespace Qanat

namespace Bus

/- The first element that is meant is changed in its place. -/
theorem modifyFirst_eq_some
    {α : Type} {p : α → Bool} {f : α → α} {l l' : List α}
    (hModify : modifyFirst p f l = some l') :
    ∃ front a back, l = front ++ a :: back ∧
      (∀ b ∈ front, p b = false) ∧ p a = true ∧
        l' = front ++ f a :: back := by
  induction l generalizing l' with
  | nil => cases hModify
  | cons a rest ih =>
      unfold modifyFirst at hModify
      by_cases hHere : p a = true
      · rw [if_pos hHere] at hModify
        cases hModify
        exact ⟨[], a, rest, rfl, nofun, hHere, rfl⟩
      · rw [if_neg hHere] at hModify
        rcases Option.map_eq_some_iff.mp hModify with
          ⟨rest', hRest, rfl⟩
        rcases ih hRest with
          ⟨front, b, back, rfl, hFront, hB, rfl⟩
        refine ⟨a :: front, b, back, rfl, ?_, hB, rfl⟩
        exact List.forall_mem_cons.mpr
          ⟨Bool.eq_false_iff.mpr hHere, hFront⟩

theorem modifyFirst_eq_none_iff
    {α : Type} {p : α → Bool} {f : α → α} {l : List α} :
    modifyFirst p f l = none ↔ ∀ a ∈ l, p a = false := by
  induction l with
  | nil => simp [modifyFirst]
  | cons a rest ih =>
      unfold modifyFirst
      by_cases hHere : p a = true
      · simp [hHere]
      · simp [hHere, ih]

end Bus

end Qanat

------------------------------------------------------------
-- Valid Tables
------------------------------------------------------------

namespace Qanat

namespace Bus

/- What the bindings of a table are told apart by. -/
inductive Label where
| fanout (pattern : String)
| group (queue : String)
deriving DecidableEq

def Binding.label (b : Binding) : Label :=
  match b.queue with
  | none => .fanout b.subjectPattern
  | some queue => .group queue

theorem Binding.isFanoutOf_iff
    {pattern : String} {b : Binding} :
    b.isFanoutOf pattern = true ↔
      b.label = .fanout pattern := by
  unfold isFanoutOf label
  cases hQueue : b.queue <;> simp

theorem Binding.isQueue_iff
    {queue : String} {b : Binding} :
    b.isQueue queue = true ↔ b.label = .group queue := by
  unfold isQueue label
  cases hQueue : b.queue <;> simp

theorem Binding.label_eq_fanout_iff
    {pattern : String} {b : Binding} :
    b.label = .fanout pattern ↔
      b.queue = none ∧ b.subjectPattern = pattern := by
  unfold label
  cases hQueue : b.queue <;> simp

theorem Binding.label_eq_group_iff
    {queue : String} {b : Binding} :
    b.label = .group queue ↔ b.queue = some queue := by
  unfold label
  cases hQueue : b.queue <;> simp

namespace SubjectRouter

/- The consumers of all bindings. -/
def consumers (router : SubjectRouter) : List ConsumerId :=
  router.bindings.flatMap Binding.consumers

/- The consumer is in a binding with the label. -/
def Subscribed
    (router : SubjectRouter) (id : ConsumerId)
    (label : Label) : Prop :=
  ∃ b ∈ router.bindings, b.label = label ∧ id ∈ b.consumers

structure Valid (router : SubjectRouter) : Prop where
  labels_nodup : (router.bindings.map Binding.label).Nodup
  consumers_nodup : router.consumers.Nodup
  consumers_lt :
    ∀ id ∈ router.consumers, id < router.nextId
  fanout_nonempty :
    ∀ b ∈ router.bindings, b.queue = none →
      b.consumers ≠ []

theorem mem_consumers_iff
    {router : SubjectRouter} {id : ConsumerId} :
    id ∈ router.consumers ↔
      ∃ label, router.Subscribed id label := by
  unfold consumers Subscribed
  rw [List.mem_flatMap]
  constructor
  · rintro ⟨b, hBinding, hMem⟩
    exact ⟨_, b, hBinding, rfl, hMem⟩
  · rintro ⟨_, b, hBinding, _, hMem⟩
    exact ⟨b, hBinding, hMem⟩

/- A consumer is in one binding. -/
theorem Valid.binding_unique
    {router : SubjectRouter} {b b' : Binding}
    {id : ConsumerId}
    (hValid : router.Valid)
    (hBinding : b ∈ router.bindings)
    (hOther : b' ∈ router.bindings)
    (hMem : id ∈ b.consumers)
    (hMem' : id ∈ b'.consumers) :
    b = b' :=
  Lists.eq_of_mem_flatMap hValid.consumers_nodup hBinding hOther
    hMem hMem'

theorem Valid.fresh
    {router : SubjectRouter}
    (hValid : router.Valid) :
    router.nextId ∉ router.consumers := by
  intro hMem
  exact Nat.lt_irrefl _ (hValid.consumers_lt _ hMem)

theorem Valid.new : new.Valid := by
  constructor <;> simp [SubjectRouter.new, consumers]

end SubjectRouter

end Bus

end Qanat

------------------------------------------------------------
-- Joining
------------------------------------------------------------

namespace Qanat

namespace Bus

namespace SubjectRouter

/- The table after a new consumer joined a binding. -/
def join
    (router : SubjectRouter) (bindings : List Binding) :
    SubjectRouter where
  bindings := bindings
  nextId := router.nextId + 1

/- A new consumer joins a binding that is there. -/
theorem Valid.push
    {router : SubjectRouter} {front back : List Binding}
    {b : Binding}
    (hValid : router.Valid)
    (hBindings : router.bindings = front ++ b :: back) :
    (router.join
      (front ++ b.push router.nextId :: back)).Valid := by
  have hPerm :
      (router.join
        (front ++ b.push router.nextId :: back)).consumers.Perm
          (router.nextId :: router.consumers) := by
    unfold consumers join
    rw [hBindings]
    simp only [List.flatMap_append, List.flatMap_cons,
      Binding.push]
    rw [List.append_assoc b.consumers, List.singleton_append,
      ← List.append_assoc, ← List.append_assoc]
    exact List.perm_middle
  constructor
  case labels_nodup =>
    have hLabels := hValid.labels_nodup
    rw [hBindings] at hLabels
    simpa [join, Binding.push, Binding.label] using hLabels
  case consumers_nodup =>
    rw [hPerm.nodup_iff, List.nodup_cons]
    exact ⟨hValid.fresh, hValid.consumers_nodup⟩
  case consumers_lt =>
    intro id hMem
    rw [hPerm.mem_iff, List.mem_cons] at hMem
    rcases hMem with rfl | hOld
    · exact Nat.lt_succ_self _
    · exact Nat.lt_succ_of_lt (hValid.consumers_lt id hOld)
  case fanout_nonempty =>
    intro b' hMem hQueue
    simp only [join, List.mem_append, List.mem_cons] at hMem
    have hOld :
        b' ∈ router.bindings ∨ b' = b.push router.nextId := by
      rw [hBindings]
      rcases hMem with hFront | hHere | hBack
      · exact Or.inl (by simp [hFront])
      · exact Or.inr hHere
      · exact Or.inl (by simp [hBack])
    rcases hOld with hOld | rfl
    · exact hValid.fanout_nonempty b' hOld hQueue
    · simp [Binding.push]

/- A new consumer joins with a binding of its own. -/
theorem Valid.append
    {router : SubjectRouter} {b : Binding}
    (hValid : router.Valid)
    (hLabel : ∀ b' ∈ router.bindings, b'.label ≠ b.label)
    (hNew : b.consumers = [router.nextId]) :
    (router.join (router.bindings ++ [b])).Valid := by
  have hConsumers :
      (router.join (router.bindings ++ [b])).consumers =
        router.consumers ++ [router.nextId] := by
    simp [consumers, join, hNew]
  constructor
  case labels_nodup =>
    unfold join
    rw [List.map_append, List.map_singleton,
      ← List.concat_eq_append]
    refine hValid.labels_nodup.concat ?_
    intro hMem
    rcases List.mem_map.mp hMem with ⟨b', hOld, hSame⟩
    exact hLabel b' hOld hSame
  case consumers_nodup =>
    rw [hConsumers, ← List.concat_eq_append]
    exact hValid.consumers_nodup.concat hValid.fresh
  case consumers_lt =>
    intro id hMem
    rw [hConsumers, List.mem_append,
      List.mem_singleton] at hMem
    rcases hMem with hOld | rfl
    · exact Nat.lt_succ_of_lt (hValid.consumers_lt id hOld)
    · exact Nat.lt_succ_self _
  case fanout_nonempty =>
    intro b' hMem hQueue
    simp only [join, List.mem_append,
      List.mem_singleton] at hMem
    rcases hMem with hOld | rfl
    · exact hValid.fanout_nonempty b' hOld hQueue
    · simp [hNew]

/- Who is subscribed after a consumer joined a binding. -/
theorem subscribed_push_iff
    {router : SubjectRouter} {front back : List Binding}
    {b : Binding}
    (hBindings : router.bindings = front ++ b :: back)
    (id : ConsumerId) (label : Label) :
    (router.join
        (front ++ b.push router.nextId :: back)).Subscribed
          id label ↔
      router.Subscribed id label ∨
        id = router.nextId ∧ label = b.label := by
  unfold Subscribed join
  rw [hBindings]
  constructor
  · rintro ⟨b', hMem, hLabel, hId⟩
    simp only [List.mem_append, List.mem_cons] at hMem
    rcases hMem with hFront | rfl | hBack
    · exact Or.inl ⟨b', by simp [hFront], hLabel, hId⟩
    · simp only [Binding.push, List.mem_append,
        List.mem_singleton] at hId
      rcases hId with hOld | hNew
      · exact Or.inl ⟨b, by simp, hLabel, hOld⟩
      · exact Or.inr ⟨hNew, hLabel.symm⟩
    · exact Or.inl ⟨b', by simp [hBack], hLabel, hId⟩
  · rintro (⟨b', hMem, hLabel, hId⟩ | ⟨rfl, rfl⟩)
    · simp only [List.mem_append, List.mem_cons] at hMem
      rcases hMem with hFront | rfl | hBack
      · exact ⟨b', by simp [hFront], hLabel, hId⟩
      · exact ⟨b'.push router.nextId, by simp, hLabel, by
          simp [Binding.push, hId]⟩
      · exact ⟨b', by simp [hBack], hLabel, hId⟩
    · exact ⟨b.push router.nextId, by simp, rfl, by
        simp [Binding.push]⟩

theorem subscribed_append_iff
    {router : SubjectRouter} {b : Binding}
    (hNew : b.consumers = [router.nextId])
    (id : ConsumerId) (label : Label) :
    (router.join (router.bindings ++ [b])).Subscribed id
        label ↔
      router.Subscribed id label ∨
        id = router.nextId ∧ label = b.label := by
  unfold Subscribed join
  constructor
  · rintro ⟨b', hMem, hLabel, hId⟩
    rcases List.mem_append.mp hMem with hOld | hLast
    · exact Or.inl ⟨b', hOld, hLabel, hId⟩
    · rw [List.mem_singleton.mp hLast, hNew,
        List.mem_singleton] at hId
      rw [List.mem_singleton.mp hLast] at hLabel
      exact Or.inr ⟨hId, hLabel.symm⟩
  · rintro (⟨b', hMem, hLabel, hId⟩ | ⟨rfl, rfl⟩)
    · exact ⟨b', List.mem_append_left _ hMem, hLabel, hId⟩
    · exact ⟨b, by simp, rfl, by simp [hNew]⟩

end SubjectRouter

end Bus

end Qanat

------------------------------------------------------------
-- Operations
------------------------------------------------------------

namespace Qanat

namespace Bus

/- Routing changes no more than the round-robin index. -/
theorem Binding.route_frame
    (b : Binding) (subject : String) :
    (b.route subject).1.queue = b.queue ∧
      (b.route subject).1.subjectPattern =
        b.subjectPattern ∧
      (b.route subject).1.consumers = b.consumers := by
  unfold route
  by_cases hMatch : wildcardMatch b.subjectPattern subject
  · rw [if_pos hMatch]
    cases hQueue : b.queue with
    | none => simp [hQueue]
    | some queue =>
        by_cases hEmpty : b.consumers.isEmpty = true
        · simp [hEmpty, hQueue]
        · simp [hEmpty]
  · rw [if_neg hMatch]
    simp

namespace SubjectRouter

/- A new fanout consumer. -/
theorem addFanout_spec
    {router : SubjectRouter}
    (hValid : router.Valid)
    (pattern : String) :
    (router.addFanout pattern).2 = router.nextId ∧
      (router.addFanout pattern).1.Valid ∧
      ∀ id label,
        (router.addFanout pattern).1.Subscribed id label ↔
          router.Subscribed id label ∨
            id = router.nextId ∧ label = .fanout pattern := by
  unfold addFanout allocId
  cases hModify : modifyFirst (Binding.isFanoutOf pattern)
      (Binding.push router.nextId) router.bindings with
  | some bindings =>
      simp only [hModify]
      rcases modifyFirst_eq_some hModify with
        ⟨front, b, back, hBindings, _, hLabel, rfl⟩
      rw [Binding.isFanoutOf_iff] at hLabel
      refine ⟨trivial, hValid.push hBindings, ?_⟩
      intro id label
      rw [← hLabel]
      exact subscribed_push_iff hBindings id label
  | none =>
      simp only [hModify]
      rw [modifyFirst_eq_none_iff] at hModify
      refine ⟨trivial, hValid.append ?_ rfl, ?_⟩
      · intro b hMem hSame
        have hHere := Binding.isFanoutOf_iff.mpr hSame
        rw [hModify b hMem] at hHere
        cases hHere
      · exact subscribed_append_iff rfl

/- The binding of a queue, found or made. -/
theorem bindQueue_spec
    {router router' : SubjectRouter} {pattern queue : String}
    (hValid : router.Valid)
    (hBind : router.bindQueue pattern queue = .ok router') :
    router'.Valid ∧
      router'.nextId = router.nextId ∧
      (∃ b ∈ router'.bindings, b.label = .group queue) ∧
      ∀ id label,
        router'.Subscribed id label ↔
          router.Subscribed id label := by
  unfold bindQueue at hBind
  cases hFind : router.bindings.find?
      (Binding.isQueue queue) with
  | some b =>
      simp only [hFind] at hBind
      by_cases hPattern : b.subjectPattern ≠ pattern
      · rw [if_pos hPattern] at hBind
        cases hBind
      · rw [if_neg hPattern] at hBind
        cases hBind
        have hLabel := Binding.isQueue_iff.mp
          (List.find?_some hFind)
        exact ⟨hValid, rfl,
          ⟨b, List.mem_of_find?_eq_some hFind, hLabel⟩,
          fun _ _ => Iff.rfl⟩
  | none =>
      simp only [hFind] at hBind
      cases hBind
      rw [List.find?_eq_none] at hFind
      refine ⟨?_, rfl, ⟨_, List.mem_append_right _
        (List.mem_singleton_self _), rfl⟩, ?_⟩
      · constructor
        case labels_nodup =>
          rw [List.map_append, List.map_singleton,
            ← List.concat_eq_append]
          refine hValid.labels_nodup.concat ?_
          intro hMem
          rcases List.mem_map.mp hMem with ⟨b, hOld, hSame⟩
          exact hFind b hOld (Binding.isQueue_iff.mpr hSame)
        case consumers_nodup =>
          simpa [consumers] using hValid.consumers_nodup
        case consumers_lt =>
          simpa [consumers] using hValid.consumers_lt
        case fanout_nonempty =>
          intro b hMem hQueue
          rcases List.mem_append.mp hMem with hOld | hNew
          · exact hValid.fanout_nonempty b hOld hQueue
          · rw [List.mem_singleton.mp hNew] at hQueue
            cases hQueue
      · intro id label
        simp [Subscribed, or_and_right, exists_or]

/- A new consumer of a queue that is bound. -/
theorem addConsumer_spec
    {router : SubjectRouter} {queue : String}
    (hValid : router.Valid)
    (hBound : ∃ b ∈ router.bindings, b.label = .group queue) :
    (router.addConsumer queue).2 = .ok router.nextId ∧
      (router.addConsumer queue).1.Valid ∧
      ∀ id label,
        (router.addConsumer queue).1.Subscribed id label ↔
          router.Subscribed id label ∨
            id = router.nextId ∧ label = .group queue := by
  unfold addConsumer allocId
  cases hModify : modifyFirst (Binding.isQueue queue)
      (Binding.push router.nextId) router.bindings with
  | some bindings =>
      simp only [hModify]
      rcases modifyFirst_eq_some hModify with
        ⟨front, b, back, hBindings, _, hLabel, rfl⟩
      rw [Binding.isQueue_iff] at hLabel
      refine ⟨trivial, hValid.push hBindings, ?_⟩
      intro id label
      rw [← hLabel]
      exact subscribed_push_iff hBindings id label
  | none =>
      rw [modifyFirst_eq_none_iff] at hModify
      rcases hBound with ⟨b, hMem, hLabel⟩
      have hHere := Binding.isQueue_iff.mpr hLabel
      rw [hModify b hMem] at hHere
      cases hHere

/- A change of bindings that keeps labels and consumers. -/
theorem Valid.map
    {router : SubjectRouter} {f : Binding → Binding}
    (hValid : router.Valid)
    (hFrame :
      ∀ b, (f b).queue = b.queue ∧
        (f b).subjectPattern = b.subjectPattern ∧
        (f b).consumers = b.consumers) :
    ({ router with bindings := router.bindings.map f } :
        SubjectRouter).Valid ∧
      ∀ id label,
        ({ router with bindings := router.bindings.map f } :
          SubjectRouter).Subscribed id label ↔
            router.Subscribed id label := by
  have hLabel : ∀ b, (f b).label = b.label := by
    intro b
    simp [Binding.label, hFrame b]
  have hConsumers :
      ({ router with bindings := router.bindings.map f } :
        SubjectRouter).consumers = router.consumers := by
    unfold consumers
    rw [List.flatMap_map]
    apply List.flatMap_congr
    intro b _
    exact (hFrame b).2.2
  refine ⟨?_, ?_⟩
  · constructor
    case labels_nodup =>
      rw [List.map_map]
      have hSame : Binding.label ∘ f = Binding.label :=
        funext hLabel
      rw [hSame]
      exact hValid.labels_nodup
    case consumers_nodup =>
      rw [hConsumers]
      exact hValid.consumers_nodup
    case consumers_lt =>
      rw [hConsumers]
      exact hValid.consumers_lt
    case fanout_nonempty =>
      intro b' hMem hQueue
      rcases List.mem_map.mp hMem with ⟨b, hOld, rfl⟩
      rw [(hFrame b).1] at hQueue
      rw [(hFrame b).2.2]
      exact hValid.fanout_nonempty b hOld hQueue
  · intro id label
    unfold Subscribed
    constructor
    · rintro ⟨b', hMem, hSame, hId⟩
      rcases List.mem_map.mp hMem with ⟨b, hOld, rfl⟩
      rw [hLabel] at hSame
      rw [(hFrame b).2.2] at hId
      exact ⟨b, hOld, hSame, hId⟩
    · rintro ⟨b, hOld, hSame, hId⟩
      refine ⟨f b, List.mem_map.mpr ⟨b, hOld, rfl⟩, ?_, ?_⟩
      · rw [hLabel, hSame]
      · rwa [(hFrame b).2.2]

/- Labels and consumers outlast a routing decision. -/
theorem route_spec
    {router : SubjectRouter}
    (hValid : router.Valid)
    (subject : String) :
    (router.route subject).1.Valid ∧
      ∀ id label,
        (router.route subject).1.Subscribed id label ↔
          router.Subscribed id label :=
  hValid.map (fun b => b.route_frame subject)

/- A consumer leaves the table. -/
theorem removeConsumer_spec
    {router : SubjectRouter}
    (hValid : router.Valid)
    (id : ConsumerId) :
    (router.removeConsumer id).Valid ∧
      ∀ c label,
        (router.removeConsumer id).Subscribed c label ↔
          router.Subscribed c label ∧ c ≠ id := by
  have hConsumers :
      (router.removeConsumer id).consumers =
        router.consumers.filter (fun c => c ≠ id) := by
    unfold consumers removeConsumer
    rw [Lists.flatMap_filter_of_nil, List.flatMap_map,
      List.filter_flatMap]
    intro b _ hDropped
    simp only [Bool.or_eq_false_iff, Bool.not_eq_false',
      List.isEmpty_iff] at hDropped
    exact hDropped.2
  refine ⟨?_, ?_⟩
  · constructor
    case labels_nodup =>
      have hSub := (List.filter_sublist
        (p := fun b : Binding =>
          b.queue.isSome || !b.consumers.isEmpty)
        (l := router.bindings.map (fun b =>
          { b with
            consumers :=
              b.consumers.filter (fun c => c ≠ id) }))).map
          Binding.label
      refine hSub.nodup ?_
      rw [List.map_map]
      exact hValid.labels_nodup
    case consumers_nodup =>
      rw [hConsumers]
      exact hValid.consumers_nodup.filter _
    case consumers_lt =>
      intro c hMem
      rw [hConsumers, List.mem_filter] at hMem
      exact hValid.consumers_lt c hMem.1
    case fanout_nonempty =>
      intro b hMem hQueue hEmpty
      simp [removeConsumer, List.mem_filter, hQueue,
        hEmpty] at hMem
  · intro c label
    unfold Subscribed removeConsumer
    constructor
    · rintro ⟨b', hMem, hLabel, hC⟩
      rcases List.mem_map.mp (List.mem_filter.mp hMem).1 with
        ⟨b, hOld, rfl⟩
      simp only [List.mem_filter, decide_eq_true_eq] at hC
      exact ⟨⟨b, hOld, hLabel, hC.1⟩, hC.2⟩
    · rintro ⟨⟨b, hOld, hLabel, hC⟩, hNe⟩
      refine ⟨{ b with consumers :=
        b.consumers.filter (fun c => c ≠ id) }, ?_, hLabel,
        by simp [hC, hNe]⟩
      refine List.mem_filter.mpr
        ⟨List.mem_map.mpr ⟨b, hOld, rfl⟩, ?_⟩
      have hKept : c ∈ b.consumers.filter (fun c => c ≠ id) :=
        by simp [hC, hNe]
      cases hFilter :
          b.consumers.filter (fun c => decide (c ≠ id)) with
      | nil =>
          rw [hFilter] at hKept
          cases hKept
      | cons first rest => simp

end SubjectRouter

end Bus

end Qanat

------------------------------------------------------------
-- Targets
------------------------------------------------------------

namespace Qanat

namespace Bus

theorem Binding.route_sublist
    (b : Binding) (subject : String) :
    List.Sublist (b.route subject).2 b.consumers := by
  unfold route
  by_cases hMatch : wildcardMatch b.subjectPattern subject
  · rw [if_pos hMatch]
    cases hQueue : b.queue with
    | none => exact List.Sublist.refl _
    | some queue =>
        by_cases hEmpty : b.consumers.isEmpty = true
        · simp [hEmpty]
        · simp only [hEmpty]
          cases hPicked : b.picked? with
          | none => exact List.nil_sublist _
          | some id =>
              exact List.singleton_sublist.mpr
                (List.mem_of_getElem? hPicked)
  · rw [if_neg hMatch]
    exact List.nil_sublist _

/- What a binding contributes to the targets of a subject. -/
theorem Binding.mem_route_iff
    {b : Binding} {subject : String} {id : ConsumerId} :
    id ∈ (b.route subject).2 ↔
      wildcardMatch b.subjectPattern subject = true ∧
        (b.queue = none ∧ id ∈ b.consumers ∨
          b.queue.isSome ∧ b.picked? = some id) := by
  unfold route
  by_cases hMatch : wildcardMatch b.subjectPattern subject
  · rw [if_pos hMatch]
    cases hQueue : b.queue with
    | none => simp [hMatch]
    | some queue =>
        by_cases hEmpty : b.consumers.isEmpty = true
        · have hNil := List.isEmpty_iff.mp hEmpty
          simp [hNil, picked?]
        · simp [hEmpty, hMatch]
  · rw [if_neg hMatch]
    simp [hMatch]

namespace SubjectRouter

/- The targets of a subject are some of the consumers. -/
theorem route_sublist
    (router : SubjectRouter) (subject : String) :
    List.Sublist (router.route subject).2
      router.consumers :=
  List.Sublist.flatMap_right _
    (fun b _ => b.route_sublist subject)

/- Whether a consumer is a target is up to its binding. -/
theorem Valid.mem_route_iff
    {router : SubjectRouter} {b : Binding}
    {id : ConsumerId}
    (hValid : router.Valid)
    (hBinding : b ∈ router.bindings)
    (hMem : id ∈ b.consumers)
    (subject : String) :
    id ∈ (router.route subject).2 ↔
      id ∈ (b.route subject).2 := by
  unfold route
  rw [List.mem_flatMap]
  constructor
  · rintro ⟨b', hOther, hTarget⟩
    have hMem' := (b'.route_sublist subject).subset hTarget
    rwa [hValid.binding_unique hBinding hOther hMem hMem']
  · intro hTarget
    exact ⟨b, hBinding, hTarget⟩

/- A fanout consumer is a target of what its pattern matches. -/
theorem Valid.fanout_mem_route_iff
    {router : SubjectRouter} {id : ConsumerId}
    {pattern : String}
    (hValid : router.Valid)
    (hSubscribed : router.Subscribed id (.fanout pattern))
    (subject : String) :
    id ∈ (router.route subject).2 ↔
      wildcardMatch pattern subject = true := by
  rcases hSubscribed with ⟨b, hBinding, hLabel, hMem⟩
  rcases Binding.label_eq_fanout_iff.mp hLabel with
    ⟨hQueue, rfl⟩
  rw [hValid.mem_route_iff hBinding hMem,
    Binding.mem_route_iff]
  simp [hQueue, hMem]

end SubjectRouter

end Bus

end Qanat
