import Qanat.Library.Lts

/-
  What a system can go on to do by itself.

  A continuation uses only labels of a kind: those of the
  system's own moves, say, and none of its environment's.

  Main declarations:
    * `Lts.Continues`
    * `Lts.Continues.trans`
    * `Lts.Reachable.continue`
-/

------------------------------------------------------------
-- Continuations
------------------------------------------------------------

namespace Transition

namespace Lts

variable {σ ε : Type*}

/- From `s` the labels `more`, all of `P`, can lead to `s'`. -/
inductive Continues (M : Lts σ ε) (P : ε → Prop) :
    σ → List ε → σ → Prop where
| refl {s : σ} : Continues M P s [] s
| step {s s' s'' : σ} {e : ε} {more : List ε} :
    M.step s e s' → P e → Continues M P s' more s'' →
      Continues M P s (e :: more) s''

variable {M : Lts σ ε} {P : ε → Prop}

theorem Continues.one
    {s s' : σ} {e : ε}
    (hStep : M.step s e s')
    (hLabel : P e) :
    M.Continues P s [e] s' :=
  .step hStep hLabel .refl

theorem Continues.trans
    {s s' s'' : σ} {first second : List ε}
    (hFirst : M.Continues P s first s')
    (hSecond : M.Continues P s' second s'') :
    M.Continues P s (first ++ second) s'' := by
  induction hFirst with
  | refl => exact hSecond
  | step hStep hLabel _ ih =>
      exact .step hStep hLabel (ih hSecond)

theorem Continues.mono
    {Q : ε → Prop} {s s' : σ} {more : List ε}
    (hMore : M.Continues P s more s')
    (hKind : ∀ e, P e → Q e) :
    M.Continues Q s more s' := by
  induction hMore with
  | refl => exact .refl
  | step hStep hLabel _ ih =>
      exact .step hStep (hKind _ hLabel) ih

/- What its steps keep, a continuation keeps. -/
theorem Continues.keeps
    {Q : σ → Prop} {s s' : σ} {more : List ε}
    (hMore : M.Continues P s more s')
    (hStep : ∀ s e s', P e → Q s → M.step s e s' → Q s')
    (hHolds : Q s) :
    Q s' := by
  induction hMore with
  | refl => exact hHolds
  | step hNext hLabel _ ih =>
      exact ih (hStep _ _ _ hLabel hHolds hNext)

/- A run with a continuation is a run. -/
theorem Reachable.continue
    {trace more : List ε} {s s' : σ}
    (hReach : M.Reachable trace s)
    (hMore : M.Continues P s more s') :
    M.Reachable (trace ++ more) s' := by
  induction hMore generalizing trace with
  | refl => simpa using hReach
  | @step s s' s'' e more hStep _ _ ih =>
      have hRest := ih (hReach.step hStep)
      rwa [List.append_assoc] at hRest

end Lts

end Transition
