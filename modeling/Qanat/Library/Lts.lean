import Mathlib.Data.List.Basic

/-
  Labelled transition systems whose runs record their
  labels.

  A run is described by the list of labels it has produced
  and the state it has reached.  Invariants may speak about
  both, so facts about the order of events and facts about
  the current state are proved by the same induction.

  Main declarations:
    * `Lts`, `Lts.Reachable`
    * `Lts.Reachable.invariant`
    * `Lts.Reachable.simulate`, `Lts.Reachable.component`
    * `Lts.Reachable.before`, `Lts.Reachable.step_of_mem`
    * `Lts.restrict`, `Lts.reachable_map_iff`
    * `Precedes`
-/

------------------------------------------------------------
-- Systems and Runs
------------------------------------------------------------

namespace Transition

/- A labelled transition system. -/
structure Lts (σ ε : Type*) where
  initial : σ → Prop
  step : σ → ε → σ → Prop

namespace Lts

variable {σ ε σ' ε' : Type*}

/-
  `M.Reachable trace s`: some run of `M` has produced the
  labels `trace`, oldest first, and is now in state `s`.
-/
inductive Reachable
    (M : Lts σ ε) : List ε → σ → Prop where
| initial {s : σ} :
    M.initial s → Reachable M [] s
| step {trace : List ε} {s s' : σ} {e : ε} :
    Reachable M trace s → M.step s e s' →
      Reachable M (trace ++ [e]) s'

/-
  What holds initially and is kept by every step of a run
  holds of every reachable trace and state.
-/
theorem Reachable.invariant
    {M : Lts σ ε}
    {P : List ε → σ → Prop}
    (hInitial : ∀ s, M.initial s → P [] s)
    (hStep :
      ∀ trace s e s', M.Reachable trace s → P trace s →
        M.step s e s' → P (trace ++ [e]) s')
    {trace : List ε}
    {s : σ}
    (hReach : M.Reachable trace s) :
    P trace s := by
  induction hReach with
  | initial hInit =>
      exact hInitial _ hInit
  | step hReach hNext ih =>
      exact hStep _ _ _ _ hReach ih hNext

/- The rule for invariants that ignore the trace. -/
theorem Reachable.stateInvariant
    {M : Lts σ ε}
    {P : σ → Prop}
    (hInitial : ∀ s, M.initial s → P s)
    (hStep : ∀ s e s', P s → M.step s e s' → P s')
    {trace : List ε}
    {s : σ}
    (hReach : M.Reachable trace s) :
    P s :=
  hReach.invariant (P := fun _ s => P s) hInitial
    (fun _ s e s' _ hs hNext => hStep s e s' hs hNext)

/-
  Forward simulation.  `label` says which labels of `M` the
  abstract system sees; the others must leave the abstract
  state as it is.
-/
theorem Reachable.simulate
    {M : Lts σ ε}
    {N : Lts σ' ε'}
    (label : ε → Option ε')
    (R : List ε → σ → σ' → Prop)
    (hInitial :
      ∀ s, M.initial s → ∃ t, N.initial t ∧ R [] s t)
    (hStep :
      ∀ trace s e s' t, M.Reachable trace s →
        R trace s t → M.step s e s' →
          ∃ t', R (trace ++ [e]) s' t' ∧
            (label e).elim (t' = t)
              (fun e' => N.step t e' t'))
    {trace : List ε}
    {s : σ}
    (hReach : M.Reachable trace s) :
    ∃ t, N.Reachable (trace.filterMap label) t ∧
      R trace s t := by
  induction hReach with
  | initial hInit =>
      rcases hInitial _ hInit with ⟨t, hT, hR⟩
      exact ⟨t, Reachable.initial hT, hR⟩
  | @step trace s s' e hReach hNext ih =>
      rcases ih with ⟨t, hT, hR⟩
      rcases hStep _ _ _ _ _ hReach hR hNext with
        ⟨t', hR', hMove⟩
      refine ⟨t', ?_, hR'⟩
      rw [List.filterMap_append]
      cases hLabel : label e with
      | none =>
          have hSame : t' = t := by
            simpa [hLabel] using hMove
          subst hSame
          simpa [hLabel] using hT
      | some e' =>
          have hAbstract : N.step t e' t' := by
            simpa [hLabel] using hMove
          simpa [hLabel] using hT.step hAbstract

/-
  A component: the part of the state that `view` shows makes
  a step of its own, or none, in every step of the system.
-/
theorem Reachable.component
    {M : Lts σ ε}
    {N : Lts σ' ε'}
    (view : σ → σ')
    (label : ε → Option ε')
    (hInitial : ∀ s, M.initial s → N.initial (view s))
    (hStep :
      ∀ s e s', M.step s e s' →
        (label e).elim (view s' = view s)
          (fun e' => N.step (view s) e' (view s')))
    {trace : List ε}
    {s : σ}
    (hReach : M.Reachable trace s) :
    N.Reachable (trace.filterMap label) (view s) := by
  have hRun := hReach.simulate label
    (N := N) (fun _ s t => t = view s) ?initial ?step
  case initial =>
    intro s hInit
    exact ⟨view s, hInitial s hInit, rfl⟩
  case step =>
    rintro trace s e s' t _ rfl hNext
    exact ⟨view s', rfl, hStep s e s' hNext⟩
  rcases hRun with ⟨t, hComponent, rfl⟩
  exact hComponent

/- The state of a run just before one of its labels. -/
theorem Reachable.before
    {M : Lts σ ε}
    {trace : List ε}
    {s : σ}
    (hReach : M.Reachable trace s)
    {earlier later : List ε}
    {e : ε}
    (hTrace : trace = earlier ++ e :: later) :
    ∃ r r', M.Reachable earlier r ∧ M.step r e r' := by
  induction hReach generalizing later with
  | initial _ =>
      have hLength := congrArg List.length hTrace
      simp at hLength
  | @step trace s s' e' hReach hNext ih =>
      rcases List.eq_nil_or_concat later with
        rfl | ⟨front, last, rfl⟩
      · have hBoth : trace = earlier ∧ e' = e := by
          simpa using hTrace
        rcases hBoth with ⟨rfl, rfl⟩
        exact ⟨s, s', hReach, hNext⟩
      · apply ih
        have hBoth :
            trace ++ [e'] =
              (earlier ++ e :: front) ++ [last] := by
          rw [hTrace]
          simp
        exact (List.append_inj' hBoth rfl).1

/- Every label of a run is that of one of its steps. -/
theorem Reachable.step_of_mem
    {M : Lts σ ε}
    {trace : List ε}
    {s : σ}
    (hReach : M.Reachable trace s)
    {e : ε}
    (hMem : e ∈ trace) :
    ∃ earlier later r r', trace = earlier ++ e :: later ∧
      M.Reachable earlier r ∧ M.step r e r' := by
  rcases List.mem_iff_append.mp hMem with
    ⟨earlier, later, hTrace⟩
  rcases hReach.before hTrace with ⟨r, r', hBefore, hStep⟩
  exact ⟨earlier, later, r, r', hTrace, hBefore, hStep⟩

/- The runs of which every step meets a condition. -/
def restrict (M : Lts σ ε) (P : σ → ε → Prop) :
    Lts σ ε where
  initial := M.initial
  step s e s' := M.step s e s' ∧ P s e

theorem Reachable.of_restrict
    {M : Lts σ ε} {P : σ → ε → Prop}
    {trace : List ε} {s : σ}
    (hReach : (M.restrict P).Reachable trace s) :
    M.Reachable trace s := by
  induction hReach with
  | initial hInit => exact .initial hInit
  | step _ hNext ih => exact ih.step hNext.1

/-
  If some labels of a system stand for the steps of another
  one, then its runs with these labels only are the runs of
  the other.
-/
theorem reachable_map_iff
    {M : Lts σ ε} {N : Lts σ ε'} {f : ε → ε'}
    (hInitial : ∀ s, N.initial s ↔ M.initial s)
    (hStep : ∀ s e s', N.step s (f e) s' ↔ M.step s e s')
    {trace : List ε} {s : σ} :
    N.Reachable (trace.map f) s ↔ M.Reachable trace s := by
  constructor
  · intro hReach
    generalize hTrace : trace.map f = labels at hReach
    induction hReach generalizing trace with
    | initial hInit =>
        rw [List.map_eq_nil_iff.mp hTrace]
        exact .initial ((hInitial _).mp hInit)
    | step _ hNext ih =>
        rcases List.map_eq_append_iff.mp hTrace with
          ⟨before, last, rfl, hBefore, hLast⟩
        rcases List.map_eq_singleton_iff.mp hLast with
          ⟨e, rfl, rfl⟩
        exact (ih hBefore).step ((hStep _ _ _).mp hNext)
  · intro hReach
    induction hReach with
    | initial hInit => exact .initial ((hInitial _).mpr hInit)
    | step _ hNext ih =>
        rw [List.map_append]
        exact ih.step ((hStep _ _ _).mpr hNext)

end Lts

end Transition

------------------------------------------------------------
-- Order of Events
------------------------------------------------------------

namespace Transition

variable {α β : Type*}

/-
  `x` occurs in the trace somewhere before an occurrence
  of `y`.
-/
def Precedes (x y : α) (trace : List α) : Prop :=
  [x, y].Sublist trace

instance [DecidableEq α] (x y : α) (trace : List α) :
    Decidable (Precedes x y trace) := by
  unfold Precedes
  infer_instance

theorem not_precedes_nil (x y : α) :
    ¬ Precedes x y [] := by
  simp [Precedes]

/- One more event orders itself after everything before it. -/
theorem precedes_append_singleton_iff
    {x y z : α}
    {trace : List α} :
    Precedes x y (trace ++ [z]) ↔
      Precedes x y trace ∨ (x ∈ trace ∧ y = z) := by
  unfold Precedes
  constructor
  · intro hSub
    rcases List.sublist_append_iff.mp hSub with
      ⟨l₁, l₂, hSplit, hLeft, hRight⟩
    rcases l₁ with _ | ⟨a, _ | ⟨b, rest⟩⟩
    · have hLength := hRight.length_le
      simp only [List.nil_append] at hSplit
      simp [← hSplit] at hLength
    · simp only [List.cons_append, List.nil_append,
        List.cons.injEq] at hSplit
      rcases hSplit with ⟨rfl, rfl⟩
      exact Or.inr ⟨List.singleton_sublist.mp hLeft, by
        simpa using List.singleton_sublist.mp hRight⟩
    · simp only [List.cons_append, List.cons.injEq] at hSplit
      rcases hSplit with ⟨rfl, rfl, hNil⟩
      have hEmpty : rest = [] ∧ l₂ = [] := by
        simpa using hNil.symm
      rw [hEmpty.1] at hLeft
      exact Or.inl hLeft
  · rintro (hOld | ⟨hMem, rfl⟩)
    · exact hOld.trans (List.sublist_append_left _ _)
    · exact (List.singleton_sublist.mpr hMem).append
        (List.Sublist.refl [y])

theorem Precedes.append_right
    {x y : α}
    {trace : List α}
    (hOld : Precedes x y trace)
    (z : α) :
    Precedes x y (trace ++ [z]) :=
  precedes_append_singleton_iff.mpr (Or.inl hOld)

theorem Precedes.mem_left
    {x y : α}
    {trace : List α}
    (h : Precedes x y trace) :
    x ∈ trace :=
  h.subset (by simp)

/- The later event has an occurrence after the earlier one. -/
theorem precedes_iff_split
    {x y : α}
    {trace : List α} :
    Precedes x y trace ↔
      ∃ before after,
        trace = before ++ y :: after ∧ x ∈ before := by
  constructor
  · intro h
    unfold Precedes at h
    rcases List.cons_sublist_iff.mp h with
      ⟨front, back, rfl, hx, hBack⟩
    rcases List.mem_iff_append.mp
        (List.singleton_sublist.mp hBack) with
      ⟨middle, after, rfl⟩
    exact ⟨front ++ middle, after, by simp, by simp [hx]⟩
  · rintro ⟨before, after, rfl, hx⟩
    exact (List.singleton_sublist.mpr hx).append
      (List.singleton_sublist.mpr (by simp))

/- Order survives the projection of a trace. -/
theorem Precedes.filterMap
    {x y : α}
    {trace : List α}
    (h : Precedes x y trace)
    {f : α → Option β}
    {x' y' : β}
    (hx : f x = some x')
    (hy : f y = some y') :
    Precedes x' y' (trace.filterMap f) := by
  have hSub := List.Sublist.filterMap f h
  simpa [Precedes, hx, hy] using hSub

/-
  An order seen in a projection comes from events that
  project to the two ends.
-/
theorem Precedes.of_filterMap
    {trace : List α}
    {f : α → Option β}
    {x' y' : β}
    (h : Precedes x' y' (trace.filterMap f)) :
    ∃ x y, f x = some x' ∧ f y = some y' ∧
      Precedes x y trace := by
  unfold Precedes at h
  rcases List.sublist_filterMap_iff.mp h with
    ⟨source, hSub, hMap⟩
  have hPair : ∃ x y, f x = some x' ∧ f y = some y' ∧
      [x, y].Sublist source := by
    clear hSub h
    induction source with
    | nil => simp at hMap
    | cons z rest ih =>
        cases hz : f z with
        | none =>
            rw [List.filterMap_cons_none hz] at hMap
            rcases ih hMap with ⟨x, y, hx, hy, hSub⟩
            exact ⟨x, y, hx, hy, hSub.cons z⟩
        | some z' =>
            rw [List.filterMap_cons_some hz] at hMap
            rcases List.cons.inj hMap with ⟨rfl, hRest⟩
            have hMem : y' ∈ rest.filterMap f := by
              rw [← hRest]
              simp
            rcases List.mem_filterMap.mp hMem with
              ⟨y, hy, hyImage⟩
            exact ⟨z, y, hz, hyImage,
              (List.singleton_sublist.mpr hy).cons_cons z⟩
  rcases hPair with ⟨x, y, hx, hy, hPair⟩
  exact ⟨x, y, hx, hy, hPair.trans hSub⟩

end Transition
