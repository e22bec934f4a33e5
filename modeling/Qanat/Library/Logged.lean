import Mathlib.Data.List.Infix

/-
  Computations that perform effects and may unwind.

  A computation is what an execution of it shows: the effects
  it performed, oldest first, and the value it returned
  unless it unwound.

  Main declarations:
    * `Logged`, `Logged.perform`, `Logged.ofOption`
    * `Logged.forM_of_returns`
    * `Logged.forM_append`, `Logged.effects_forM_mono`
-/

------------------------------------------------------------
-- Logged Computations
------------------------------------------------------------

namespace Transition

structure Logged (ε α : Type) where
  effects : List ε
  outcome : Option α

namespace Logged

variable {ε α β : Type}

/- Nothing runs after a computation that unwinds. -/
instance : Monad (Logged ε) where
  pure a := ⟨[], some a⟩
  bind x f :=
    match x.outcome with
    | none => ⟨x.effects, none⟩
    | some a => ⟨x.effects ++ (f a).effects, (f a).outcome⟩

/- Perform one effect. -/
def perform (e : ε) : Logged ε Unit where
  effects := [e]
  outcome := some ()

/- A silent computation; `none` unwinds. -/
def ofOption (outcome : Option α) : Logged ε α where
  effects := []
  outcome := outcome

@[simp] theorem pure_eq (a : α) :
    (pure a : Logged ε α) = ⟨[], some a⟩ := rfl

theorem bind_of_outcome_some
    {x : Logged ε α}
    {a : α}
    (hOutcome : x.outcome = some a)
    (f : α → Logged ε β) :
    x >>= f =
      ⟨x.effects ++ (f a).effects, (f a).outcome⟩ := by
  change
    (match x.outcome with
      | none => (⟨x.effects, none⟩ : Logged ε β)
      | some a =>
          ⟨x.effects ++ (f a).effects, (f a).outcome⟩) = _
  rw [hOutcome]

theorem bind_of_outcome_none
    {x : Logged ε α}
    (hOutcome : x.outcome = none)
    (f : α → Logged ε β) :
    x >>= f = ⟨x.effects, none⟩ := by
  change
    (match x.outcome with
      | none => (⟨x.effects, none⟩ : Logged ε β)
      | some a =>
          ⟨x.effects ++ (f a).effects, (f a).outcome⟩) = _
  rw [hOutcome]

@[simp] theorem mk_some_bind
    (effects : List ε) (a : α) (f : α → Logged ε β) :
    (⟨effects, some a⟩ : Logged ε α) >>= f =
      ⟨effects ++ (f a).effects, (f a).outcome⟩ :=
  bind_of_outcome_some rfl f

@[simp] theorem mk_none_bind
    (effects : List ε) (f : α → Logged ε β) :
    (⟨effects, none⟩ : Logged ε α) >>= f =
      ⟨effects, none⟩ :=
  bind_of_outcome_none rfl f

/- A loop whose bodies all return performs their effects. -/
theorem forM_of_returns
    {l : List α}
    {f : α → Logged ε Unit}
    (hReturns : ∀ a ∈ l, (f a).outcome = some ()) :
    l.forM f =
      ⟨l.flatMap (fun a => (f a).effects), some ()⟩ := by
  induction l with
  | nil => rfl
  | cons a rest ih =>
      change (f a >>= fun _ => rest.forM f) = _
      rw [bind_of_outcome_some (hReturns a (by simp)),
        ih (fun b hMem => hReturns b (by simp [hMem]))]
      simp

theorem forM_cons
    (a : α) (l : List α) (f : α → Logged ε Unit) :
    (a :: l).forM f = f a >>= fun _ => l.forM f := rfl

/- A loop goes on if what it has done so far has returned. -/
theorem forM_append
    (l l' : List α) (f : α → Logged ε Unit) :
    (l ++ l').forM f = l.forM f >>= fun _ => l'.forM f := by
  induction l with
  | nil =>
      change l'.forM f = ⟨[], some ()⟩ >>= fun _ => l'.forM f
      rw [mk_some_bind]
      rfl
  | cons a rest ih =>
      rw [List.cons_append, forM_cons, forM_cons, ih]
      cases hFirst : (f a).outcome with
      | none =>
          rw [bind_of_outcome_none hFirst,
            bind_of_outcome_none hFirst, mk_none_bind]
      | some value =>
          rw [bind_of_outcome_some hFirst,
            bind_of_outcome_some hFirst]
          cases hRest : (rest.forM f).outcome with
          | none =>
              rw [bind_of_outcome_none hRest,
                bind_of_outcome_none rfl]
          | some value =>
              rw [bind_of_outcome_some hRest,
                bind_of_outcome_some rfl, List.append_assoc]

/- What a loop does first it does first in a longer one. -/
theorem effects_forM_mono
    (l l' : List α) (f : α → Logged ε Unit) :
    (l.forM f).effects <+: ((l ++ l').forM f).effects := by
  rw [forM_append]
  cases hFirst : (l.forM f).outcome with
  | none => rw [bind_of_outcome_none hFirst]
  | some value =>
      rw [bind_of_outcome_some hFirst]
      exact List.prefix_append _ _

end Logged

end Transition
