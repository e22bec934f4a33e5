import Mathlib.Data.Int.CardIntervalMod

/-
  Choosing from a list in turn, starting at any position.

  Main declarations:
    * `Rotation.turn?`, `Rotation.turns`
    * `Rotation.getElem?_turns`
    * `Rotation.count_turns`
-/

------------------------------------------------------------
-- Turns
------------------------------------------------------------

namespace Rotation

variable {α : Type*}

/- The element whose turn comes after `n` others. -/
def turn? (l : List α) (n : Nat) : Option α :=
  l[n % l.length]?

/- The elements of `m` turns, after `start` others. -/
def turns (l : List α) : Nat → Nat → List α
| _, 0 => []
| start, m + 1 =>
    (turn? l start).toList ++ turns l (start + 1) m

theorem exists_turn?
    {l : List α} (hNonempty : l ≠ []) (n : Nat) :
    ∃ a ∈ l, turn? l n = some a := by
  have hBound : n % l.length < l.length :=
    Nat.mod_lt n (List.length_pos_of_ne_nil hNonempty)
  exact ⟨l[n % l.length], List.getElem_mem hBound,
    List.getElem?_eq_getElem hBound⟩

theorem length_turns
    {l : List α} (hNonempty : l ≠ []) (start m : Nat) :
    (turns l start m).length = m := by
  induction m generalizing start with
  | zero => rfl
  | succ m ih =>
      rcases exists_turn? hNonempty start with ⟨a, _, hTurn⟩
      rw [turns, List.length_append, hTurn, ih]
      exact Nat.add_comm 1 m

/- The turns run through the list cyclically. -/
theorem getElem?_turns
    {l : List α} (hNonempty : l ≠ [])
    {start m i : Nat} (hBound : i < m) :
    (turns l start m)[i]? =
      l[(start + i) % l.length]? := by
  induction m generalizing start i with
  | zero => cases hBound
  | succ m ih =>
      rcases exists_turn? hNonempty start with ⟨a, _, hTurn⟩
      rw [turns, hTurn]
      cases i with
      | zero => exact hTurn.symm
      | succ i =>
          have hNext :
              (turns l (start + 1) m)[i]? =
                l[(start + 1 + i) % l.length]? :=
            ih (Nat.lt_of_succ_lt_succ hBound)
          rwa [Nat.add_right_comm] at hNext

end Rotation

------------------------------------------------------------
-- Counting
------------------------------------------------------------

namespace Rotation

variable {α : Type*} [DecidableEq α]

/- An element is chosen when its position comes round. -/
theorem count_turns_eq
    {l : List α} {j : Nat} {a : α}
    (hNodup : l.Nodup) (hHere : l[j]? = some a)
    (start m : Nat) :
    (turns l start m).count a =
      m.count (fun i => (start + i) % l.length = j) := by
  have hBound : j < l.length :=
    (List.getElem?_eq_some_iff.mp hHere).1
  have hNonempty : l ≠ [] := by
    rintro rfl
    cases hHere
  have hTurn :
      ∀ n, turn? l n = some a ↔ n % l.length = j := by
    intro n
    constructor
    · intro hSame
      have hPosition : j = n % l.length :=
        (List.getElem?_inj hBound hNodup).mp
          (hHere.trans hSame.symm)
      exact hPosition.symm
    · intro hSame
      rw [turn?, hSame, hHere]
  induction m generalizing start with
  | zero => rfl
  | succ m ih =>
      have hShift :
          ∀ i, (start + (i + 1)) % l.length = j ↔
            (start + 1 + i) % l.length = j := by
        intro i
        rw [Nat.add_right_comm, Nat.add_assoc]
      rcases exists_turn? hNonempty start with ⟨b, _, hb⟩
      have hHead :
          [b].count a =
            if start % l.length = j then 1 else 0 := by
        rw [List.count_singleton]
        simp only [← hTurn, hb, beq_iff_eq,
          Option.some.injEq]
      rw [turns, List.count_append, ih, hb,
        Option.toList_some, hHead, Nat.count_succ']
      simp only [hShift, Nat.add_zero]
      exact Nat.add_comm _ _

/- Residues from any position on, counted. -/
theorem count_mod
    {k j : Nat} (hBound : j < k) (start m : Nat) :
    m.count (fun i => (start + i) % k = j) = m / k ∨
      m.count (fun i => (start + i) % k = j) =
        (m + k - 1) / k := by
  have hPositive : 0 < k := Nat.zero_lt_of_lt hBound
  let v := j + (k - start % k)
  have hBack : start + v ≡ j [MOD k] := by
    have hRest : start % k < k := Nat.mod_lt start hPositive
    have hSum :
        start + v = j + k * (start / k + 1) := by
      have hDiv := Nat.div_add_mod start k
      rw [Nat.mul_add, Nat.mul_one]
      dsimp only [v]
      omega
    rw [hSum]
    exact Nat.add_mul_mod_self_left j k _
  have hShift :
      ∀ i, (start + i) % k = j ↔ i ≡ v [MOD k] := by
    intro i
    constructor
    · intro hSame
      have hThere : start + i ≡ j [MOD k] := by
        rw [Nat.ModEq, hSame, Nat.mod_eq_of_lt hBound]
      exact Nat.ModEq.add_left_cancel' start
        (hThere.trans hBack.symm)
    · intro hSame
      have hThere := (hSame.add_left start).trans hBack
      rwa [Nat.ModEq, Nat.mod_eq_of_lt hBound] at hThere
  simp only [hShift]
  rw [Nat.count_modEq_card m hPositive]
  by_cases hMore : v % k < m % k
  · right
    rw [if_pos hMore]
    have hDiv := Nat.div_add_mod m k
    have hSum :
        m + k - 1 = k * (m / k + 1) + (m % k - 1) := by
      rw [Nat.mul_add, Nat.mul_one]
      omega
    have hRest : m % k - 1 < k := by
      have hLt := Nat.mod_lt m hPositive
      omega
    rw [hSum, Nat.mul_add_div hPositive,
      Nat.div_eq_of_lt hRest, Nat.add_zero]
  · left
    rw [if_neg hMore, Nat.add_zero]

/- In `m` turns each has had its part of them. -/
theorem count_turns
    {l : List α} {a : α}
    (hNodup : l.Nodup) (hMem : a ∈ l) (start m : Nat) :
    (turns l start m).count a = m / l.length ∨
      (turns l start m).count a =
        (m + l.length - 1) / l.length := by
  rcases List.mem_iff_getElem?.mp hMem with ⟨j, hHere⟩
  rw [count_turns_eq hNodup hHere]
  exact count_mod (List.getElem?_eq_some_iff.mp hHere).1
    start m

end Rotation
