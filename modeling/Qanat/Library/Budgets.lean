import Mathlib.Algebra.BigOperators.Group.List.Basic
import Mathlib.Algebra.Ring.Nat
import Qanat.Library.Progress

/-
  Systems that live on what they have left.

  With a measure the steps of one kind come to an end.  With
  a budget every step spends at least one unit of what the
  state has left and of what its label pays in.  Runs are then
  as long as what has been paid in allows, and whatever the
  system goes on to do for nothing comes to an end.

  Main declarations:
    * `Lts.Measure`, `Lts.Stuck`
    * `Lts.Measure.continues_le`
    * `Lts.Measure.exists_stuck`
    * `Lts.Budget`, `Lts.Budget.length_le`
-/

------------------------------------------------------------
-- Sums over Lists
------------------------------------------------------------

namespace Lists

/- A sum after the update of an existing position. -/
theorem sum_map_set
    {α : Type*} (f : α → Nat) {l : List α} {i : Nat} {a : α}
    (hOld : l[i]? = some a)
    (b : α) :
    ((l.set i b).map f).sum + f a = (l.map f).sum + f b := by
  induction l generalizing i with
  | nil => simp at hOld
  | cons c rest ih =>
      cases i with
      | zero =>
          have hSame : c = a := by simpa using hOld
          subst hSame
          simp only [List.set_cons_zero, List.map_cons,
            List.sum_cons]
          omega
      | succ i =>
          have hRest := ih (by simpa using hOld)
          simp only [List.set_cons_succ, List.map_cons,
            List.sum_cons]
          omega

/- A sum after the update of one of its summands. -/
theorem sum_map_update
    {α : Type*} {f g : α → Nat} {l : List α} {a : α}
    (hOnce : l.Nodup)
    (hSame : ∀ b, b ≠ a → g b = f b) :
    (a ∈ l → (l.map g).sum + f a = (l.map f).sum + g a) ∧
      (a ∉ l → (l.map g).sum = (l.map f).sum) := by
  have hOthers : ∀ rest : List α, a ∉ rest →
      (rest.map g).sum = (rest.map f).sum := by
    intro rest hNot
    congr 1
    apply List.map_congr_left
    intro b hMem
    exact hSame b (fun hEq => hNot (hEq ▸ hMem))
  refine ⟨?_, hOthers l⟩
  intro hMem
  induction l with
  | nil => cases hMem
  | cons b rest ih =>
      have hRest := List.nodup_cons.mp hOnce
      simp only [List.map_cons, List.sum_cons]
      rcases List.mem_cons.mp hMem with rfl | hLater
      · rw [hOthers rest hRest.1]
        omega
      · have hNe : b ≠ a :=
          fun hEq => hRest.1 (hEq ▸ hLater)
        have hSum := ih hRest.2 hLater
        rw [hSame b hNe]
        omega

end Lists

------------------------------------------------------------
-- Measures
------------------------------------------------------------

namespace Transition

namespace Lts

variable {σ ε : Type*}

/- No step with a label of `P` can be made. -/
def Stuck (M : Lts σ ε) (P : ε → Prop) (s : σ) : Prop :=
  ∀ e s', M.step s e s' → ¬ P e

/- What is left for the labels of `P`. -/
structure Measure (M : Lts σ ε) (P : ε → Prop) where
  left : σ → Nat
  spend :
    ∀ trace s e s', M.Reachable trace s → M.step s e s' →
      P e → left s' + 1 ≤ left s

variable {M : Lts σ ε} {P : ε → Prop}

namespace Measure

/- What goes on lives on what is left. -/
theorem continues_le
    (measure : M.Measure P)
    {trace more : List ε} {s s' : σ}
    (hReach : M.Reachable trace s)
    (hMore : M.Continues P s more s') :
    more.length + measure.left s' ≤ measure.left s := by
  induction hMore generalizing trace with
  | refl => simp
  | @step s s' s'' e more hStep hLabel _ ih =>
      have hSpent :=
        measure.spend trace s e s' hReach hStep hLabel
      have hRest := ih (hReach.step hStep)
      simp only [List.length_cons]
      omega

/- From every reachable state it can go on to the end. -/
theorem exists_stuck
    (measure : M.Measure P)
    {trace : List ε} {s : σ}
    (hReach : M.Reachable trace s) :
    ∃ more s', M.Continues P s more s' ∧ M.Stuck P s' := by
  -- every step leaves less, so there is a last one
  induction hLeft : measure.left s using Nat.strongRecOn
    generalizing trace s with
  | ind n ih =>
      by_cases hStuck : M.Stuck P s
      · exact ⟨[], s, .refl, hStuck⟩
      · unfold Stuck at hStuck
        push Not at hStuck
        rcases hStuck with ⟨e, s', hStep, hLabel⟩
        have hSpent :=
          measure.spend trace s e s' hReach hStep hLabel
        rcases ih (measure.left s') (by omega)
            (hReach.step hStep) rfl with
          ⟨more, s'', hMore, hEnd⟩
        exact ⟨e :: more, s'', .step hStep hLabel hMore, hEnd⟩

end Measure

end Lts

end Transition

------------------------------------------------------------
-- Budgets
------------------------------------------------------------

namespace Transition

namespace Lts

variable {σ ε : Type*}

/- What a state has left, and what a label pays in. -/
structure Budget (M : Lts σ ε) where
  left : σ → Nat
  paid : ε → Nat
  spend :
    ∀ trace s e s', M.Reachable trace s → M.step s e s' →
      left s' + 1 ≤ left s + paid e

variable {M : Lts σ ε} {P : ε → Prop}

namespace Budget

/- A run is no longer than what has been paid for it. -/
theorem length_le
    (budget : M.Budget) {first : Nat}
    (hFirst : ∀ s, M.initial s → budget.left s ≤ first)
    {trace : List ε} {s : σ}
    (hReach : M.Reachable trace s) :
    trace.length + budget.left s ≤
      first + (trace.map budget.paid).sum := by
  induction hReach with
  | initial hInit => simpa using hFirst _ hInit
  | @step trace s s' e hReach hNext ih =>
      have hSpent := budget.spend trace s e s' hReach hNext
      simp only [List.length_append, List.map_append,
        List.sum_append, List.length_singleton,
        List.map_singleton, List.sum_singleton]
      omega

/- What is done for nothing lives on what is left. -/
def measure
    (budget : M.Budget)
    (hFree : ∀ e, P e → budget.paid e = 0) :
    M.Measure P where
  left := budget.left
  spend := by
    intro trace s e s' hReach hStep hLabel
    have hSpent := budget.spend trace s e s' hReach hStep
    rwa [hFree e hLabel] at hSpent

theorem continues_le
    (budget : M.Budget)
    (hFree : ∀ e, P e → budget.paid e = 0)
    {trace more : List ε} {s s' : σ}
    (hReach : M.Reachable trace s)
    (hMore : M.Continues P s more s') :
    more.length + budget.left s' ≤ budget.left s :=
  (budget.measure hFree).continues_le hReach hMore

theorem exists_stuck
    (budget : M.Budget)
    (hFree : ∀ e, P e → budget.paid e = 0)
    {trace : List ε} {s : σ}
    (hReach : M.Reachable trace s) :
    ∃ more s', M.Continues P s more s' ∧ M.Stuck P s' :=
  (budget.measure hFree).exists_stuck hReach

end Budget

end Lts

end Transition
