import Mathlib.Algebra.Ring.Nat
import Mathlib.Data.List.Nodup
import Qanat.Library.Lists
import Qanat.Library.Lts

/-
  What a system takes in, holds and gives out.

  Each step accounts for what it takes in and gives out by
  what the state holds before and after it; a run then
  accounts for everything.

  Main declarations:
    * `Lts.Reachable.fifo`
    * `Lts.Reachable.conserved`
    * `Lts.Reachable.counted`, `Counters.nodup_numbers`
-/

------------------------------------------------------------
-- Accounting for Whole Runs
------------------------------------------------------------

namespace Transition

namespace Lts

variable {σ ε κ : Type*} {M : Lts σ ε}

/- A channel: what has gone in comes out in its order. -/
theorem Reachable.fifo
    (sent taken : ε → Option κ)
    (queue : σ → List κ)
    (hInitial : ∀ s, M.initial s → queue s = [])
    (hStep :
      ∀ trace s e s', M.Reachable trace s → M.step s e s' →
        queue s ++ (sent e).toList =
          (taken e).toList ++ queue s')
    {trace : List ε}
    {s : σ}
    (hReach : M.Reachable trace s) :
    trace.filterMap sent =
      trace.filterMap taken ++ queue s := by
  induction hReach with
  | initial hInit =>
      simp [hInitial _ hInit]
  | @step trace s s' e hReach hNext ih =>
      rw [List.filterMap_append, Lists.filterMap_singleton,
        List.filterMap_append, Lists.filterMap_singleton, ih,
        List.append_assoc, hStep _ _ _ _ hReach hNext,
        List.append_assoc]

/- A store: what has gone in comes out in any order. -/
theorem Reachable.conserved
    (input output : ε → List κ)
    (held : σ → List κ)
    (hInitial : ∀ s, M.initial s → held s = [])
    (hStep :
      ∀ s e s', M.step s e s' →
        (held s ++ input e).Perm (output e ++ held s'))
    {trace : List ε}
    {s : σ}
    (hReach : M.Reachable trace s) :
    (trace.flatMap input).Perm
      (trace.flatMap output ++ held s) := by
  induction hReach with
  | initial hInit =>
      simp [hInitial _ hInit]
  | @step trace s s' e hReach hNext ih =>
      have hMoved := hStep _ _ _ hNext
      calc (trace ++ [e]).flatMap input
        _ = trace.flatMap input ++ input e := by simp
        _ |>.Perm
            (trace.flatMap output ++ held s ++ input e) :=
          ih.append_right _
        _ = trace.flatMap output ++ (held s ++ input e) :=
          List.append_assoc _ _ _
        _ |>.Perm
            (trace.flatMap output ++ (output e ++ held s')) :=
          hMoved.append_left _
        _ = (trace ++ [e]).flatMap output ++ held s' := by
          simp

end Lts

end Transition

------------------------------------------------------------
-- Counters
------------------------------------------------------------

namespace Transition

namespace Counters

/- What a wrapping counter gives out from `first` on. -/
def numbers (first : UInt64) (n : Nat) : List UInt64 :=
  (List.range n).map (fun i => first + UInt64.ofNat i)

theorem numbers_succ (first : UInt64) (n : Nat) :
    numbers first (n + 1) =
      numbers first n ++ [first + UInt64.ofNat n] := by
  simp [numbers, List.range_succ]

/- It repeats itself only after a whole round. -/
theorem nodup_numbers
    {first : UInt64} {n : Nat}
    (hRound : n ≤ 2 ^ 64) :
    (numbers first n).Nodup := by
  apply List.Nodup.map_on _ List.nodup_range
  intro i hi j hj hSame
  have hOffset : UInt64.ofNat i = UInt64.ofNat j := by
    simpa using hSame
  have hNat := congrArg UInt64.toNat hOffset
  rw [UInt64.toNat_ofNat_of_lt' (by
      have := List.mem_range.mp hi
      simp [UInt64.size]
      omega),
    UInt64.toNat_ofNat_of_lt' (by
      have := List.mem_range.mp hj
      simp [UInt64.size]
      omega)] at hNat
  exact hNat

end Counters

namespace Lts

variable {σ ε : Type*} {M : Lts σ ε}

/- The numbers taken in a run come one after the other. -/
theorem Reachable.counted
    (taken : ε → Option UInt64)
    (next : σ → UInt64)
    (hStep :
      ∀ s e s', M.step s e s' →
        (taken e = none ∧ next s' = next s) ∨
          (taken e = some (next s) ∧ next s' = next s + 1))
    {trace : List ε}
    {s : σ}
    (hReach : M.Reachable trace s) :
    ∃ first,
      trace.filterMap taken =
          Counters.numbers first
            (trace.filterMap taken).length ∧
        next s =
          first +
            UInt64.ofNat (trace.filterMap taken).length := by
  induction hReach with
  | @initial s hInit =>
      exact ⟨next s, by simp [Counters.numbers], by simp⟩
  | @step trace s s' e hReach hNext ih =>
      rcases ih with ⟨first, hNumbers, hLast⟩
      refine ⟨first, ?_⟩
      rw [List.filterMap_append, Lists.filterMap_singleton]
      rcases hStep s e s' hNext with
        ⟨hNone, hKept⟩ | ⟨hSome, hMore⟩
      · rw [hNone, hKept]
        simpa using ⟨hNumbers, hLast⟩
      · rw [hSome, hMore, hLast]
        simp only [Option.toList_some, List.length_append,
          List.length_singleton]
        rw [Counters.numbers_succ, ← hNumbers]
        refine ⟨rfl, ?_⟩
        rw [UInt64.add_assoc]
        congr 1
        simp

end Lts

end Transition
