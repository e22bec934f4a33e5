import Mathlib.Data.List.Basic

/-
  Lists that are read by position, flattened and split, and
  optional values that are related.
-/

------------------------------------------------------------
-- Positions
------------------------------------------------------------

namespace Lists

/- What a list holds after such an update. -/
theorem getElem?_set_eq_some
    {α : Type*}
    {l : List α}
    {i j : Nat}
    {a b x : α}
    (hOld : l[i]? = some a) :
    (l.set i b)[j]? = some x ↔
      (i = j ∧ x = b) ∨ (i ≠ j ∧ l[j]? = some x) := by
  rw [
    List.getElem?_set_of_lt' _ _
      (List.getElem?_eq_some_iff.mp hOld).1]
  by_cases hEq : i = j
  · simp [hEq, eq_comm]
  · simp [hEq]

/- An update that does not change the image. -/
theorem map_set_of_eq
    {α β : Type*} {f : α → β} {l : List α} {i : Nat} {a b : α}
    (hOld : l[i]? = some a)
    (hSame : f b = f a) :
    (l.set i b).map f = l.map f := by
  apply List.ext_getElem?
  intro j
  rw [List.getElem?_map,
    List.getElem?_set_of_lt' _ _
      (List.getElem?_eq_some_iff.mp hOld).1,
    List.getElem?_map]
  by_cases hEq : i = j
  · rw [if_pos hEq, ← hEq, hOld, Option.map_some,
      Option.map_some, hSame]
  · rw [if_neg hEq]

/- Positions are known by images that do not repeat. -/
theorem eq_of_nodup_map
    {α β : Type*} {f : α → β} {l : List α} {i j : Nat}
    {a b : α}
    (hOnce : (l.map f).Nodup)
    (hA : l[i]? = some a)
    (hB : l[j]? = some b)
    (hSame : f a = f b) :
    i = j := by
  have hBound : i < (l.map f).length := by
    rw [List.length_map]
    exact (List.getElem?_eq_some_iff.mp hA).1
  apply (List.getElem?_inj hBound hOnce).mp
  rw [List.getElem?_map, List.getElem?_map, hA, hB,
    Option.map_some, Option.map_some, hSame]

/- Reading a list with one element more. -/
theorem getElem?_append_singleton_eq_some
    {α : Type*}
    {l : List α}
    {a b : α}
    {j : Nat} :
    (l ++ [a])[j]? = some b ↔
      l[j]? = some b ∨ (j = l.length ∧ b = a) := by
  rcases Nat.lt_trichotomy j l.length with hLt | hEq | hGt
  · rw [List.getElem?_append_left hLt]
    constructor
    · exact Or.inl
    · rintro (h | ⟨hLength, _⟩)
      · exact h
      · omega
  · subst hEq
    simp [eq_comm]
  · rw [List.getElem?_eq_none (by simp; omega),
      List.getElem?_eq_none (by omega)]
    simp
    omega

/- What an update does to a selection, up to order. -/
theorem filterMap_set_perm
    {α β : Type*} (f : α → Option β) {l : List α} {i : Nat}
    {a : α}
    (hOld : l[i]? = some a)
    (b : α) :
    ((f a).toList ++ (l.set i b).filterMap f).Perm
      ((f b).toList ++ l.filterMap f) := by
  have hCons :
      ∀ (c : α) (rest : List α),
        (c :: rest).filterMap f =
          (f c).toList ++ rest.filterMap f := by
    intro c rest
    cases hSelected : f c <;> simp [hSelected]
  induction l generalizing i with
  | nil => simp at hOld
  | cons c rest ih =>
      cases i with
      | zero =>
          have hSame : c = a := by simpa using hOld
          subst hSame
          rw [List.set_cons_zero, hCons, hCons]
          exact List.perm_append_comm_assoc _ _ _
      | succ i =>
          rw [List.set_cons_succ, hCons, hCons]
          calc (f a).toList ++
                ((f c).toList ++ (rest.set i b).filterMap f)
            _ |>.Perm
                ((f c).toList ++ ((f a).toList ++
                  (rest.set i b).filterMap f)) :=
              List.perm_append_comm_assoc _ _ _
            _ |>.Perm
                ((f c).toList ++ ((f b).toList ++
                  rest.filterMap f)) :=
              (ih (by simpa using hOld)).append_left _
            _ |>.Perm
                ((f b).toList ++ ((f c).toList ++
                  rest.filterMap f)) :=
              List.perm_append_comm_assoc _ _ _

end Lists

------------------------------------------------------------
-- Parts
------------------------------------------------------------

namespace Lists

/- Dropping what contributes nothing. -/
theorem flatMap_filter_of_nil
    {α β : Type} {f : α → List β} {keep : α → Bool}
    {l : List α}
    (hNil : ∀ a ∈ l, keep a = false → f a = []) :
    (l.filter keep).flatMap f = l.flatMap f := by
  induction l with
  | nil => rfl
  | cons a rest ih =>
      have hRest := ih (fun b hMem => hNil b (by simp [hMem]))
      cases hKeep : keep a with
      | true => simp [hKeep, hRest]
      | false => simp [hKeep, hRest, hNil a (by simp) hKeep]

/- What is selected of one element. -/
theorem filterMap_singleton
    {α β : Type*} (f : α → Option β) (a : α) :
    [a].filterMap f = (f a).toList := by
  cases hSelected : f a <;> simp [hSelected]

/- The first of many is found by less, if it is among it. -/
theorem find?_eq_of_imp
    {α : Type*} {p q : α → Bool} {l : List α}
    (hLess : ∀ a, p a = true → q a = true)
    (hFirst : ∀ a, l.find? q = some a → p a = true) :
    l.find? p = l.find? q := by
  cases hFound : l.find? q with
  | none =>
      rw [List.find?_eq_none] at hFound ⊢
      exact fun a hMem hHere =>
        hFound a hMem (hLess a hHere)
  | some a =>
      have hHere := hFirst a hFound
      rcases List.find?_eq_some_iff_append.mp hFound with
        ⟨_, front, back, hSplit, hFront⟩
      refine List.find?_eq_some_iff_append.mpr
        ⟨hHere, front, back, hSplit, ?_⟩
      intro b hMem
      have hNot := hFront b hMem
      rw [Bool.not_eq_true'] at hNot ⊢
      rw [Bool.eq_false_iff]
      intro hEarly
      rw [hLess b hEarly] at hNot
      cases hNot

/- Selecting less selects a part. -/
theorem filterMap_sublist
    {α β : Type*} {f g : α → Option β}
    (hLess : ∀ a b, f a = some b → g a = some b)
    (l : List α) :
    (l.filterMap f).Sublist (l.filterMap g) := by
  induction l with
  | nil => exact List.Sublist.refl _
  | cons a rest ih =>
      cases hf : f a with
      | none =>
          rw [List.filterMap_cons_none hf]
          cases hg : g a with
          | none => rwa [List.filterMap_cons_none hg]
          | some c =>
              rw [List.filterMap_cons_some hg]
              exact ih.cons c
      | some b =>
          rw [List.filterMap_cons_some hf,
            List.filterMap_cons_some (hLess a b hf)]
          exact ih.cons_cons b

/- Where a list is read selectively, the list itself splits. -/
theorem exists_split_of_filterMap
    {α β : Type*} {f : α → Option β} {l : List α}
    {before after : List β} {b : β}
    (hSplit : l.filterMap f = before ++ b :: after) :
    ∃ earlier a later, l = earlier ++ a :: later ∧
      f a = some b ∧ earlier.filterMap f = before := by
  rcases List.filterMap_eq_append_iff.mp hSplit with
    ⟨front, back, rfl, hFront, hBack⟩
  rcases List.filterMap_eq_cons_iff.mp hBack with
    ⟨skipped, a, later, rfl, hSkipped, ha, _⟩
  refine ⟨front ++ skipped, a, later, by simp, ha, ?_⟩
  rw [List.filterMap_append, hFront,
    List.filterMap_eq_nil_iff.mpr hSkipped, List.append_nil]

/- A member of one list of many is in no other of them. -/
theorem eq_of_mem_flatMap
    {α β : Type} {f : α → List β} {l : List α} {a b : α}
    {x : β}
    (hNodup : (l.flatMap f).Nodup)
    (ha : a ∈ l) (hb : b ∈ l)
    (hxa : x ∈ f a) (hxb : x ∈ f b) :
    a = b := by
  induction l with
  | nil => cases ha
  | cons c rest ih =>
      rw [List.flatMap_cons, List.nodup_append] at hNodup
      have hRest :
          ∀ d ∈ rest, x ∈ f c → x ∈ f d → False := by
        intro d hMem hxc hxd
        exact hNodup.2.2 x hxc x
          (List.mem_flatMap.mpr ⟨d, hMem, hxd⟩) rfl
      rcases List.mem_cons.mp ha with rfl | ha'
      · rcases List.mem_cons.mp hb with rfl | hb'
        · rfl
        · exact (hRest b hb' hxa hxb).elim
      · rcases List.mem_cons.mp hb with rfl | hb'
        · exact (hRest a ha' hxb hxa).elim
        · exact ih hNodup.2.1 ha' hb'

/- A place is known by the name of what stands there. -/
theorem eq_of_split
    {α β : Type*} {name : α → Option β} {x y : α} {b : β}
    {before before' after after' : List α}
    (hOnce :
      ((before ++ x :: after).filterMap name).Nodup)
    (hSplit : before ++ x :: after = before' ++ y :: after')
    (hx : name x = some b) (hy : name y = some b) :
    before = before' ∧ x = y ∧ after = after' := by
  induction before generalizing before' with
  | nil =>
      cases before' with
      | nil =>
          rcases List.cons.inj hSplit with ⟨rfl, rfl⟩
          exact ⟨rfl, rfl, rfl⟩
      | cons z rest =>
          rcases List.cons.inj hSplit with ⟨rfl, rfl⟩
          rw [List.nil_append, List.filterMap_cons_some hx,
            List.nodup_cons] at hOnce
          exact (hOnce.1 (List.mem_filterMap.mpr
            ⟨y, by simp, hy⟩)).elim
  | cons z rest ih =>
      cases before' with
      | nil =>
          rcases List.cons.inj hSplit with ⟨rfl, rfl⟩
          rw [List.cons_append, List.filterMap_cons_some hy,
            List.nodup_cons] at hOnce
          exact (hOnce.1 (List.mem_filterMap.mpr
            ⟨x, by simp, hx⟩)).elim
      | cons z' rest' =>
          rcases List.cons.inj hSplit with ⟨rfl, hRest⟩
          have hOnce' :
              ((rest ++ x :: after).filterMap name).Nodup :=
            List.Nodup.sublist
              ((List.sublist_cons_self _ _).filterMap name)
              hOnce
          rcases ih hOnce' hRest with ⟨rfl, hxy, hAfter⟩
          exact ⟨rfl, hxy, hAfter⟩

/- A member is known by a name that does not repeat. -/
theorem eq_of_nodup_filterMap
    {α β : Type*} {name : α → Option β} {l : List α} {x y : α}
    {b : β}
    (hOnce : (l.filterMap name).Nodup)
    (hMem : x ∈ l) (hMem' : y ∈ l)
    (hx : name x = some b) (hy : name y = some b) :
    x = y := by
  rcases List.mem_iff_append.mp hMem with
    ⟨before, after, hSplit⟩
  rcases List.mem_iff_append.mp hMem' with
    ⟨before', after', hSplit'⟩
  rw [hSplit] at hOnce
  exact (eq_of_split hOnce (hSplit.symm.trans hSplit') hx
    hy).2.1

/- A list of copies ends with one of them. -/
theorem getLast?_eq_of_forall
    {α : Type*} {l : List α} {a : α}
    (hMem : a ∈ l) (hAll : ∀ b ∈ l, b = a) :
    l.getLast? = some a := by
  cases hLast : l.getLast? with
  | none =>
      rw [List.getLast?_eq_none_iff.mp hLast] at hMem
      cases hMem
  | some b =>
      rw [hAll b (List.mem_of_getLast? hLast)]

/- What is split on is in none of the parts. -/
theorem not_mem_of_mem_splitOn
    {α : Type} [DecidableEq α] {separator : α}
    {text part : List α}
    (hMem : part ∈ text.splitOn separator) :
    separator ∉ part := by
  induction text generalizing part with
  | nil =>
      rw [List.splitOn_nil, List.mem_singleton] at hMem
      subst hMem
      exact List.not_mem_nil
  | cons first rest ih =>
      rw [List.splitOn_cons_eq_if_modifyHead] at hMem
      by_cases hSeparator : first = separator
      · rw [if_pos (beq_iff_eq.mpr hSeparator)] at hMem
        rcases List.mem_cons.mp hMem with rfl | hRest
        · exact List.not_mem_nil
        · exact ih hRest
      · rw [if_neg (fun h => hSeparator (beq_iff_eq.mp h))]
          at hMem
        cases hParts : rest.splitOn separator with
        | nil => exact (List.splitOn_ne_nil _ _ hParts).elim
        | cons head tail =>
            rw [hParts, List.modifyHead_cons] at hMem
            rw [hParts] at ih
            rcases List.mem_cons.mp hMem with rfl | hTail
            · rw [List.mem_cons, not_or]
              exact ⟨Ne.symm hSeparator,
                ih List.mem_cons_self⟩
            · exact ih (List.mem_cons_of_mem _ hTail)

end Lists

------------------------------------------------------------
-- Optional Values
------------------------------------------------------------

namespace Options

theorem rel_refl
    {α : Type*}
    {R : α → α → Prop}
    (hRefl : ∀ a, R a a)
    (a : Option α) :
    Option.Rel R a a := by
  cases a with
  | none => exact .none
  | some a => exact .some (hRefl a)

/- Related values go on to related values. -/
theorem rel_bind
    {α β γ δ : Type*}
    {R : α → β → Prop}
    {S : γ → δ → Prop}
    {a : Option α}
    {b : Option β}
    {f : α → Option γ}
    {g : β → Option δ}
    (hRel : Option.Rel R a b)
    (hNext : ∀ x y, R x y → Option.Rel S (f x) (g y)) :
    Option.Rel S (a.bind f) (b.bind g) := by
  cases hRel with
  | none => exact .none
  | some h => exact hNext _ _ h

end Options
