import Mathlib.Data.List.Nodup
import Mathlib.Data.List.Perm.Basic

/-
  Interleavings of sequences that belong to different tags,
  and lists that have their common members in the same order.

  Main declarations:
    * `Interleaving.tagged`, `Interleaving.ofTag`
    * `Interleaving.perm_tagged`
    * `Agree`, `Agree.eq_of_subset`
-/

------------------------------------------------------------
-- Tags
------------------------------------------------------------

namespace Transition

namespace Interleaving

variable {ι α : Type*}

/- The work of several tags, one after the other. -/
def tagged
    (work : ι → List α) (tags : List ι) :
    List (ι × α) :=
  tags.flatMap (fun i => (work i).map (fun a => (i, a)))

theorem tagged_cons
    (work : ι → List α) (i : ι) (tags : List ι) :
    tagged work (i :: tags) =
      (work i).map (fun a => (i, a)) ++ tagged work tags := by
  simp [tagged]

theorem tagged_append
    (work : ι → List α) (first second : List ι) :
    tagged work (first ++ second) =
      tagged work first ++ tagged work second := by
  simp [tagged]

theorem tagged_congr
    {work work' : ι → List α} {tags : List ι}
    (hWork : ∀ i ∈ tags, work i = work' i) :
    tagged work tags = tagged work' tags := by
  unfold tagged
  apply List.flatMap_congr
  intro i hMem
  rw [hWork i hMem]

/- The work of the first tags is done first. -/
theorem tagged_mono
    {first second : List ι}
    (hPrefix : first <+: second)
    (work : ι → List α) :
    tagged work first <+: tagged work second := by
  rcases hPrefix with ⟨rest, rfl⟩
  rw [tagged_append]
  exact List.prefix_append _ _

theorem mem_tagged_iff
    {work : ι → List α} {tags : List ι} {i : ι} {a : α} :
    (i, a) ∈ tagged work tags ↔ i ∈ tags ∧ a ∈ work i := by
  unfold tagged
  simp only [List.mem_flatMap, List.mem_map, Prod.mk.injEq]
  constructor
  · rintro ⟨j, hTag, b, hWork, rfl, rfl⟩
    exact ⟨hTag, hWork⟩
  · rintro ⟨hTag, hWork⟩
    exact ⟨i, hTag, a, hWork, rfl, rfl⟩

/- The work of the tags without the tags. -/
theorem map_snd_tagged
    (work : ι → List α) (tags : List ι) :
    (tagged work tags).map Prod.snd = tags.flatMap work := by
  induction tags with
  | nil => rfl
  | cons i rest ih =>
      rw [tagged_cons, List.map_append, ih, List.flatMap_cons,
        List.map_map]
      simp [Function.comp_def]

/- Selecting items by their tags is selecting tags. -/
theorem filter_tagged
    (work : ι → List α) (tags : List ι)
    (p : ι → Bool) :
    (tagged work tags).filter (fun e => p e.1) =
      tagged work (tags.filter p) := by
  induction tags with
  | nil => rfl
  | cons i rest ih =>
      rw [tagged_cons, List.filter_append, ih]
      cases hKeep : p i with
      | true =>
          rw [List.filter_cons_of_pos hKeep, tagged_cons]
          congr 1
          simp [List.filter_map, Function.comp_def, hKeep]
      | false =>
          rw [List.filter_cons_of_neg (by simp [hKeep])]
          simp [List.filter_map, Function.comp_def, hKeep]

variable [DecidableEq ι]

/- The items of one tag. -/
def ofTag (i : ι) (items : List (ι × α)) : List α :=
  items.filterMap
    (fun e => if e.1 = i then some e.2 else none)

theorem mem_ofTag_iff
    {i : ι} {a : α} {items : List (ι × α)} :
    a ∈ ofTag i items ↔ (i, a) ∈ items := by
  unfold ofTag
  simp [List.mem_filterMap]

theorem ofTag_append
    (i : ι) (first second : List (ι × α)) :
    ofTag i (first ++ second) =
      ofTag i first ++ ofTag i second := by
  simp [ofTag]

theorem ofTag_map (i j : ι) (work : List α) :
    ofTag i (work.map (fun a => (j, a))) =
      if j = i then work else [] := by
  unfold ofTag
  by_cases hEq : j = i <;> simp [List.filterMap_map, hEq]

/- Selecting other tags as well does not matter to a tag. -/
theorem ofTag_filter
    {i : ι} {p : ι → Bool}
    (hKeep : p i = true)
    (items : List (ι × α)) :
    ofTag i (items.filter (fun e => p e.1)) =
      ofTag i items := by
  unfold ofTag
  rw [List.filterMap_filter]
  apply List.filterMap_congr
  intro e _
  by_cases hEq : e.1 = i <;> simp [hEq, hKeep]

/- A tag that is not there has no items. -/
theorem ofTag_eq_nil
    {i : ι} {items : List (ι × α)}
    (hAbsent : ∀ e ∈ items, e.1 ≠ i) :
    ofTag i items = [] := by
  unfold ofTag
  rw [List.filterMap_eq_nil_iff]
  intro e hMem
  simp [hAbsent e hMem]

theorem ofTag_tagged_of_notMem
    {work : ι → List α} {i : ι} {tags : List ι}
    (hAbsent : i ∉ tags) :
    ofTag i (tagged work tags) = [] := by
  apply ofTag_eq_nil
  rintro ⟨j, a⟩ hMem rfl
  exact hAbsent (mem_tagged_iff.mp hMem).1

/- A tag that is there once has its work. -/
theorem ofTag_tagged
    {work : ι → List α} {i : ι} {tags : List ι}
    (hNodup : tags.Nodup)
    (hMem : i ∈ tags) :
    ofTag i (tagged work tags) = work i := by
  induction tags with
  | nil => cases hMem
  | cons j rest ih =>
      rw [List.nodup_cons] at hNodup
      rw [tagged_cons, ofTag_append, ofTag_map]
      by_cases hEq : j = i
      · subst hEq
        rw [if_pos rfl, ofTag_tagged_of_notMem hNodup.1,
          List.append_nil]
      · have hRest : i ∈ rest := by
          rcases List.mem_cons.mp hMem with hHead | hTail
          · exact absurd hHead.symm hEq
          · exact hTail
        rw [if_neg hEq, ih hNodup.2 hRest]
        rfl

theorem ofTag_eq_map_filter
    (i : ι) (items : List (ι × α)) :
    (ofTag i items).map (fun a => (i, a)) =
      items.filter (fun e => e.1 = i) := by
  induction items with
  | nil => rfl
  | cons e rest ih =>
      rcases e with ⟨j, a⟩
      unfold ofTag at ih ⊢
      by_cases hEq : j = i
      · subst hEq
        simp [ih]
      · simp [hEq, ih]

/-
  An interleaving is, up to order, the work of its tags one
  after the other.
-/
theorem perm_tagged
    {items : List (ι × α)} {tags : List ι}
    (hNodup : tags.Nodup)
    (hTags : ∀ e ∈ items, e.1 ∈ tags) :
    items.Perm (tagged (fun i => ofTag i items) tags) := by
  induction tags generalizing items with
  | nil =>
      have hNil : items = [] :=
        List.eq_nil_iff_forall_not_mem.mpr
          (fun e hMem => by simpa using hTags e hMem)
      subst hNil
      exact List.Perm.refl _
  | cons i rest ih =>
      rw [List.nodup_cons] at hNodup
      rw [tagged_cons, ofTag_eq_map_filter]
      have hOthers :
          ∀ j ∈ rest,
            ofTag j items =
              ofTag j (items.filter (fun e => !(e.1 = i))) := by
        intro j hMem
        have hNe : j ≠ i := by
          rintro rfl
          exact hNodup.1 hMem
        exact (ofTag_filter (p := fun k => !(k = i))
          (by simp [hNe]) items).symm
      rw [tagged_congr hOthers]
      refine (List.filter_append_perm
        (fun e => decide (e.1 = i)) items).symm.trans ?_
      refine List.Perm.append_left _ (ih hNodup.2 ?_)
      intro e hMem
      rw [List.mem_filter] at hMem
      rcases List.mem_cons.mp (hTags e hMem.1) with
        hHead | hTail
      · simp [hHead] at hMem
      · exact hTail

end Interleaving

end Transition

------------------------------------------------------------
-- Agreement
------------------------------------------------------------

namespace Transition

variable {α : Type*} [DecidableEq α]

/- The lists have their common members in the same order. -/
def Agree (xs ys : List α) : Prop :=
  xs.filter (fun a => decide (a ∈ ys)) =
    ys.filter (fun a => decide (a ∈ xs))

namespace Agree

variable {xs ys front : List α} {a : α}

theorem symm (hAgree : Agree xs ys) : Agree ys xs :=
  Eq.symm hAgree

theorem nil (ys : List α) : Agree [] ys := by
  simp [Agree]

/- One list grows by a member the other does not have. -/
theorem append_fresh
    (hAgree : Agree xs ys)
    (hFresh : a ∉ ys) :
    Agree (xs ++ [a]) ys := by
  unfold Agree at hAgree ⊢
  rw [List.filter_append, hAgree,
    List.filter_cons_of_neg (by simpa using hFresh),
    List.filter_nil, List.append_nil]
  apply List.filter_congr
  intro b hMem
  have hNe : b ≠ a := by
    rintro rfl
    exact hFresh hMem
  simp [hNe]

/- It catches up with the last member of the other. -/
theorem append_last
    (hAgree : Agree xs (front ++ [a]))
    (hOnce : a ∉ front)
    (hFresh : a ∉ xs) :
    Agree (xs ++ [a]) (front ++ [a]) := by
  unfold Agree at hAgree ⊢
  have hFront :
      front.filter (fun b => decide (b ∈ xs ++ [a])) =
        front.filter (fun b => decide (b ∈ xs)) := by
    apply List.filter_congr
    intro b hMem
    have hNe : b ≠ a := by
      rintro rfl
      exact hOnce hMem
    simp [hNe]
  rw [List.filter_append, hAgree, List.filter_append,
    List.filter_append, hFront]
  simp [hFresh]

/- The other list may have a last member more. -/
theorem filter_mono
    (hAgree : Agree xs ys)
    (hFront : ∀ a ∈ ys.dropLast, a ∈ xs) :
    xs.filter (fun a => decide (a ∈ ys)) <+: ys := by
  unfold Agree at hAgree
  rw [hAgree]
  rcases List.eq_nil_or_concat ys with rfl | ⟨front, a, rfl⟩
  · exact List.prefix_refl _
  · rw [List.concat_eq_append] at hFront ⊢
    rw [List.dropLast_concat] at hFront
    have hSelf :
        front.filter (fun b => decide (b ∈ xs)) = front :=
      List.filter_eq_self.mpr
        (fun b hMem => by simpa using hFront b hMem)
    rw [List.filter_append, hSelf]
    by_cases hLast : a ∈ xs <;> simp [hLast]

/- A list is what a list that has its members has of them. -/
theorem eq_of_subset
    (hAgree : Agree xs ys)
    (hSubset : ∀ a ∈ ys, a ∈ xs) :
    xs.filter (fun a => decide (a ∈ ys)) = ys := by
  unfold Agree at hAgree
  rw [hAgree, List.filter_eq_self]
  intro a hMem
  simpa using hSubset a hMem

end Agree

end Transition
