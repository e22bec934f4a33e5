import Mathlib.Data.List.AList

/-
  Finite maps read in the order of their entries.

  The order stands for the one in which an unordered map is
  iterated.  What is looked up by its key does not depend on
  it; the first entry whose key has a property may.

  Main declarations:
    * `FiniteMap.retain`
    * `FiniteMap.lookup_retain`
    * `FiniteMap.lookup_foldl_insert`
    * `FiniteMap.gather`, `FiniteMap.mem_gather_iff`
    * `FiniteMap.find?_insert_of_not`
    * `FiniteMap.perm_of_lookup`, `FiniteMap.perm_insert`
    * `FiniteMap.Iteration`
-/

------------------------------------------------------------
-- Keys with a Property
------------------------------------------------------------

namespace FiniteMap

variable {α : Type*} {β : α → Type*}

/- The entries whose keys are to be kept. -/
def retain (keep : α → Bool) (m : AList β) : AList β where
  entries := m.entries.filter (fun entry => keep entry.1)
  nodupKeys := m.nodupKeys.sublist List.filter_sublist

@[simp]
theorem entries_retain (keep : α → Bool) (m : AList β) :
    (retain keep m).entries =
      m.entries.filter (fun entry => keep entry.1) :=
  rfl

@[simp]
theorem mem_retain
    {keep : α → Bool} {m : AList β} {key : α} :
    key ∈ retain keep m ↔ keep key = true ∧ key ∈ m := by
  simp only [AList.mem_keys, AList.keys, List.keys,
    entries_retain, List.mem_map, List.mem_filter]
  constructor
  · rintro ⟨entry, ⟨hMem, hKeep⟩, rfl⟩
    exact ⟨hKeep, entry, hMem, rfl⟩
  · rintro ⟨hKeep, entry, hMem, rfl⟩
    exact ⟨entry, ⟨hMem, hKeep⟩, rfl⟩

variable [DecidableEq α]

@[simp]
theorem lookup_retain
    (keep : α → Bool) (m : AList β) (key : α) :
    (retain keep m).lookup key =
      if keep key then m.lookup key else none := by
  by_cases hKeep : keep key = true
  · rw [if_pos hKeep]
    apply Option.ext
    intro value
    rw [← Option.mem_def, ← Option.mem_def,
      AList.mem_lookup_iff, AList.mem_lookup_iff,
      entries_retain, List.mem_filter]
    exact and_iff_left hKeep
  · rw [if_neg hKeep, AList.lookup_eq_none, mem_retain]
    exact fun hMem => hKeep hMem.1

/- Inserting one entry after the other, keys not repeated. -/
theorem lookup_foldl_insert
    {l : List (Sigma β)} (hKeys : l.NodupKeys)
    (m : AList β) (key : α) :
    (l.foldl (fun m entry => m.insert entry.1 entry.2)
        m).lookup key =
      (l.dlookup key).or (m.lookup key) := by
  induction l generalizing m with
  | nil => rfl
  | cons entry rest ih =>
      rcases entry with ⟨first, value⟩
      rw [List.nodupKeys_cons] at hKeys
      rw [List.foldl_cons, ih hKeys.2]
      by_cases hSame : key = first
      · subst hSame
        have hNone : rest.dlookup key = none :=
          List.dlookup_eq_none.mpr hKeys.1
        rw [hNone, AList.lookup_insert,
          List.dlookup_cons_eq]
        rfl
      · rw [AList.lookup_insert_ne hSame,
          List.dlookup_cons_ne _ _ hSame]

/- The first key with a property survives the others. -/
theorem find?_kerase_of_not
    {property : α → Bool} {key : α} {l : List (Sigma β)}
    (hKey : property key = false) :
    (List.kerase key l).find?
        (fun entry => property entry.1) =
      l.find? (fun entry => property entry.1) := by
  induction l with
  | nil => rfl
  | cons entry rest ih =>
      by_cases hSame : key = entry.1
      · have hEntry : property entry.1 = false := by
          rw [← hSame, hKey]
        rw [List.kerase_cons_eq hSame,
          List.find?_cons_of_neg (by simp [hEntry])]
      · rw [List.kerase_cons_ne hSame, List.find?_cons,
          List.find?_cons, ih]

/- What is found has the property and is looked up. -/
theorem of_find?_eq_some
    {property : α → Bool} {m : AList β} {key : α}
    {value : β key}
    (hFound :
      m.entries.find? (fun entry => property entry.1) =
        some ⟨key, value⟩) :
    property key = true ∧ m.lookup key = some value := by
  have hProperty : property key = true :=
    List.find?_some (p := fun entry : Sigma β =>
      property entry.1) hFound
  exact ⟨hProperty, AList.mem_lookup_iff.mpr
    (List.mem_of_find?_eq_some hFound)⟩

/- The only key with a property is found in any order. -/
theorem find?_of_only
    {property : α → Bool} {key : α} {m : AList β}
    {value : β key}
    (hLookup : m.lookup key = some value)
    (hKey : property key = true)
    (hOnly : ∀ other, other ≠ key →
      property other = true → m.lookup other = none) :
    m.entries.find? (fun entry => property entry.1) =
      some ⟨key, value⟩ := by
  have hMem : (⟨key, value⟩ : Sigma β) ∈ m.entries :=
    AList.mem_lookup_iff.mp hLookup
  cases hFound :
      m.entries.find? (fun entry => property entry.1) with
  | none =>
      exact absurd hKey
        (List.find?_eq_none.mp hFound _ hMem)
  | some entry =>
      rcases entry with ⟨other, value'⟩
      rcases of_find?_eq_some hFound with
        ⟨hProperty, hLookup'⟩
      by_cases hSame : other = key
      · subst hSame
        rw [hLookup, Option.some.injEq] at hLookup'
        rw [hLookup']
      · rw [hOnly other hSame hProperty] at hLookup'
        cases hLookup'

theorem find?_of_none
    {property : α → Bool} {m : AList β}
    (hNone : ∀ key, property key = true →
      m.lookup key = none) :
    m.entries.find? (fun entry => property entry.1) =
      none := by
  rw [List.find?_eq_none]
  rintro ⟨key, value⟩ hMem hProperty
  have hLookup : m.lookup key = some value :=
    AList.mem_lookup_iff.mpr hMem
  rw [hNone key hProperty] at hLookup
  cases hLookup

theorem find?_insert_of_not
    {property : α → Bool} {key : α}
    (hKey : property key = false)
    (value : β key) (m : AList β) :
    (m.insert key value).entries.find?
        (fun entry => property entry.1) =
      m.entries.find? (fun entry => property entry.1) := by
  rw [AList.entries_insert,
    List.find?_cons_of_neg (by simp [hKey]),
    find?_kerase_of_not hKey]

/- What is inserted stands first. -/
theorem find?_insert_of_pos
    {property : α → Bool} {key : α}
    (hKey : property key = true)
    (value : β key) (m : AList β) :
    (m.insert key value).entries.find?
        (fun entry => property entry.1) =
      some ⟨key, value⟩ := by
  rw [AList.entries_insert]
  exact List.find?_cons_of_pos hKey

theorem find?_erase_of_not
    {property : α → Bool} {key : α}
    (hKey : property key = false) (m : AList β) :
    (m.erase key).entries.find?
        (fun entry => property entry.1) =
      m.entries.find? (fun entry => property entry.1) :=
  find?_kerase_of_not hKey

end FiniteMap

------------------------------------------------------------
-- Collecting a List
------------------------------------------------------------

namespace FiniteMap

variable {ι α γ : Type*} [DecidableEq α]

/- The elements of a list that are kept, under their keys. -/
def gather
    (keep : ι → Bool) (key : ι → α) (value : ι → γ)
    (l : List ι) (m : AList (fun _ : α => γ)) :
    AList (fun _ : α => γ) :=
  l.foldl
    (fun m i =>
      if keep i then m.insert (key i) (value i) else m) m

variable {keep : ι → Bool} {key : ι → α} {value : ι → γ}

theorem mem_gather_iff
    {l : List ι} {m : AList (fun _ : α => γ)} {k : α} :
    k ∈ gather keep key value l m ↔
      (∃ i ∈ l, keep i = true ∧ key i = k) ∨ k ∈ m := by
  unfold gather
  induction l generalizing m with
  | nil => simp
  | cons i rest ih =>
      rw [List.foldl_cons, ih]
      by_cases hKeep : keep i = true
      · rw [if_pos hKeep, AList.mem_insert]
        simp only [List.mem_cons, exists_eq_or_imp, hKeep,
          true_and, @eq_comm _ k]
        exact or_left_comm.trans or_assoc.symm
      · rw [if_neg hKeep]
        simp [hKeep]

/- What is found was there or is the value of an element. -/
theorem exists_of_lookup_gather
    {l : List ι} {m : AList (fun _ : α => γ)} {k : α} {v : γ}
    (hLookup :
      (gather keep key value l m).lookup k = some v) :
    (∃ i ∈ l, keep i = true ∧ key i = k ∧ value i = v) ∨
      m.lookup k = some v := by
  unfold gather at hLookup
  induction l generalizing m with
  | nil => exact Or.inr hLookup
  | cons i rest ih =>
      rw [List.foldl_cons] at hLookup
      rcases ih hLookup with ⟨j, hMem, hFound⟩ | hBefore
      · exact Or.inl
          ⟨j, List.mem_cons_of_mem _ hMem, hFound⟩
      · split at hBefore
        · rename_i hKeep
          by_cases hSame : k = key i
          · subst hSame
            rw [AList.lookup_insert, Option.some.injEq]
              at hBefore
            exact Or.inl
              ⟨i, List.mem_cons_self, hKeep, rfl, hBefore⟩
          · rw [AList.lookup_insert_ne hSame] at hBefore
            exact Or.inr hBefore
        · exact Or.inr hBefore

end FiniteMap

------------------------------------------------------------
-- Orders of Iteration
------------------------------------------------------------

namespace FiniteMap

variable {α : Type*} {β : α → Type*} [DecidableEq α]

theorem perm_of_lookup
    {m m' : AList β}
    (hLookup : ∀ key, m.lookup key = m'.lookup key) :
    m.entries.Perm m'.entries := by
  apply List.lookup_ext m.nodupKeys m'.nodupKeys
  intro key value
  rw [← AList.lookup, ← AList.lookup, hLookup]

/- A map is the rest of it and one of its entries. -/
theorem perm_insert
    {m rest : AList β} {key : α} {value : β key}
    (hLookup : m.lookup key = some value)
    (hRest : ∀ other, other ≠ key →
      m.lookup other = rest.lookup other) :
    m.entries.Perm (rest.insert key value).entries := by
  apply perm_of_lookup
  intro other
  by_cases hSame : other = key
  · subst hSame
    rw [AList.lookup_insert, hLookup]
  · rw [AList.lookup_insert_ne hSame, hRest other hSame]

theorem lookup_of_perm
    {m m' : AList β} (hPerm : m.entries.Perm m'.entries)
    (key : α) :
    m.lookup key = m'.lookup key :=
  AList.perm_lookup hPerm

/- An unordered map may be iterated in any order. -/
structure Iteration (β : α → Type*) where
  order : AList β → AList β
  perm : ∀ m, (order m).entries.Perm m.entries

namespace Iteration

@[simp]
theorem lookup_order
    (iteration : Iteration β) (m : AList β) (key : α) :
    (iteration.order m).lookup key = m.lookup key :=
  lookup_of_perm (iteration.perm m) key

/- The order in which the entries stand. -/
def identity : Iteration β where
  order m := m
  perm _ := List.Perm.refl _

/- A key that comes first, if it is there. -/
def first (key : α) : Iteration β where
  order m :=
    match m.lookup key with
    | some value => m.insert key value
    | none => m
  perm m := by
    cases hLookup : m.lookup key with
    | none => exact List.Perm.refl _
    | some value =>
        exact (perm_insert hLookup (fun _ _ => rfl)).symm

theorem order_first
    {key : α} {m : AList β} {value : β key}
    (hLookup : m.lookup key = some value) :
    (first key).order m = m.insert key value := by
  change (match m.lookup key with
    | some value => m.insert key value
    | none => m) = _
  rw [hLookup]

end Iteration

end FiniteMap
