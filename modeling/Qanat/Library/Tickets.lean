import Mathlib.Logic.Function.Basic
import Qanat.Library.Lts

/-
  Tickets: values issued under a name and redeemed by it.

  Redeeming takes the ticket away, so of all who redeem a
  name after one issue only the first finds the value.

  Main declarations:
    * `Tickets.lts`, `Tickets.Open`
    * `Tickets.redeemed_iff`
    * `Tickets.redeemed_iff_of_once`
-/

------------------------------------------------------------
-- Issuing and Redeeming
------------------------------------------------------------

namespace Transition

namespace Tickets

variable {α β : Type*}

inductive Event (α β : Type*) where
| issued (name : α) (value : β)
| redeemed (name : α) (found : Option β)

def Event.name : Event α β → α
| .issued name _ => name
| .redeemed name _ => name

def Event.issue? : Event α β → Option α
| .issued name _ => some name
| .redeemed _ _ => none

section System

variable [DecidableEq α]

/- A state is the table of the open tickets. -/
inductive Step :
    (α → Option β) → Event α β → (α → Option β) → Prop where
| issue {table : α → Option β} (name : α) (value : β) :
    Step table (.issued name value)
      (Function.update table name (some value))
| redeem {table : α → Option β} (name : α) :
    Step table (.redeemed name (table name))
      (Function.update table name none)

def lts (α β : Type*) [DecidableEq α] :
    Lts (α → Option β) (Event α β) where
  initial table := table = fun _ => none
  step := Step

end System

theorem step_redeem
    [DecidableEq α] (table : α → Option β) {name : α}
    {found : Option β} (hFound : table name = found) :
    (lts α β).step table (.redeemed name found)
      (Function.update table name none) := by
  subst hFound
  exact .redeem name

/- Who finds nothing changes nothing. -/
theorem step_miss
    [DecidableEq α] (table : α → Option β) {name : α}
    (hNone : table name = none) :
    (lts α β).step table (.redeemed name none) table := by
  have hMove := step_redeem table hNone
  rwa [← hNone, Function.update_eq_self, hNone] at hMove

/- The last event of the ticket was that it was issued. -/
def Open (name : α) (value : β) (trace : List (Event α β)) :
    Prop :=
  ∃ before between,
    trace = before ++ .issued name value :: between ∧
      ∀ e ∈ between, e.name ≠ name

theorem Open.mem
    {name : α} {value : β} {trace : List (Event α β)}
    (hOpen : Open name value trace) :
    Event.issued name value ∈ trace := by
  rcases hOpen with ⟨before, between, rfl, _⟩
  simp

/- One more event opens its own ticket and keeps the others. -/
theorem open_append_singleton_iff
    {name : α} {value : β} {trace : List (Event α β)}
    {e : Event α β} :
    Open name value (trace ++ [e]) ↔
      e = .issued name value ∨
        (e.name ≠ name ∧ Open name value trace) := by
  constructor
  · rintro ⟨before, between, hTrace, hBetween⟩
    rcases List.eq_nil_or_concat between with
      rfl | ⟨front, last, rfl⟩
    · have hBoth : trace = before ∧
          e = .issued name value := by
        simpa using hTrace
      exact Or.inl hBoth.2
    · have hSplit :
          trace ++ [e] =
            (before ++ .issued name value :: front) ++
              [last] := by
        rw [hTrace]
        simp
      rcases List.append_inj' hSplit rfl with ⟨hFront, hLast⟩
      have hEq : e = last := by simpa using hLast
      subst hEq
      refine Or.inr ⟨hBetween e (by simp), before, front,
        hFront, ?_⟩
      intro e' hMem
      exact hBetween e' (by simp [hMem])
  · rintro (rfl | ⟨hOther, before, between, rfl, hBetween⟩)
    · exact ⟨trace, [], rfl, by simp⟩
    · refine ⟨before, between ++ [e], by simp, ?_⟩
      intro e' hMem
      rcases List.mem_append.mp hMem with hOld | hNew
      · exact hBetween e' hOld
      · rw [List.mem_singleton.mp hNew]
        exact hOther

end Tickets

end Transition

------------------------------------------------------------
-- What Is Found
------------------------------------------------------------

namespace Transition

namespace Tickets

variable {α β : Type*} [DecidableEq α]

/- The table lists the open tickets. -/
theorem table_eq_some_iff
    {trace : List (Event α β)} {table : α → Option β}
    (hReach : (lts α β).Reachable trace table)
    (name : α) (value : β) :
    table name = some value ↔ Open name value trace := by
  induction hReach with
  | @initial table hInitial =>
      have hEmpty : table = fun _ => none := hInitial
      simp [hEmpty, Open]
  | @step trace table table' e hReach hStep ih =>
      rw [open_append_singleton_iff, ← ih]
      cases hStep with
      | issue issued value' =>
          by_cases hName : name = issued
          · subst hName
            simp [Event.name]
          · simp [Event.name, hName, Ne.symm hName]
      | redeem redeemed =>
          by_cases hName : name = redeemed
          · subst hName
            simp [Event.name]
          · simp [Event.name, hName, Ne.symm hName]

/- Who redeems a name finds the value of the open ticket. -/
theorem redeemed_iff
    {trace earlier later : List (Event α β)}
    {table : α → Option β} {name : α} {found : Option β}
    (hReach : (lts α β).Reachable trace table)
    (hTrace : trace = earlier ++ .redeemed name found :: later)
    (value : β) :
    found = some value ↔ Open name value earlier := by
  rcases hReach.before hTrace with ⟨r, r', hBefore, hStep⟩
  have hFound : r name = found := by
    cases hStep
    rfl
  rw [← hFound]
  exact table_eq_some_iff hBefore name value

/- A ticket issued once and never found is still open. -/
theorem open_iff_of_once
    {trace : List (Event α β)} {table : α → Option β}
    (hReach : (lts α β).Reachable trace table)
    (hOnce : (trace.filterMap Event.issue?).Nodup)
    (name : α) (value : β) :
    Open name value trace ↔
      Event.issued name value ∈ trace ∧
        ∀ other, Event.redeemed name (some other) ∉ trace := by
  induction hReach with
  | initial _ => simp [Open]
  | @step trace table table' e hReach hStep ih =>
      rw [List.filterMap_append, List.nodup_append] at hOnce
      have hOld := ih hOnce.1
      rw [open_append_singleton_iff, hOld]
      cases hStep with
      | issue issued value' =>
          -- an issued name has no earlier event that found it
          have hFresh :
              ∀ v, Event.issued issued v ∉ trace := by
            intro v hMem
            exact hOnce.2.2 issued
              (List.mem_filterMap.mpr ⟨_, hMem, rfl⟩) issued
              (by simp [Event.issue?]) rfl
          have hUnfound :
              ∀ v, Event.redeemed issued (some v) ∉ trace := by
            intro v hMem
            rcases List.mem_iff_append.mp hMem with
              ⟨earlier, later, hTrace⟩
            have hOpen :=
              (redeemed_iff hReach hTrace v).mp rfl
            exact hFresh v (by simp [hTrace, hOpen.mem])
          by_cases hName : issued = name
          · subst hName
            simp [Event.name, hFresh, hUnfound, eq_comm]
          · have hNe : name ≠ issued := Ne.symm hName
            simp [Event.name, hName, hNe]
      | redeem redeemed =>
          by_cases hName : redeemed = name
          · subst hName
            have hTable :=
              table_eq_some_iff hReach redeemed
            simp only [Event.name, ne_eq, not_true_eq_false,
              false_and, or_false, reduceCtorEq, false_iff,
              not_and, List.mem_append, List.mem_singleton]
            intro hIssued hNone
            have hMem :
                Event.issued redeemed value ∈ trace := by
              simpa using hIssued
            have hOpen : Open redeemed value trace :=
              hOld.mpr ⟨hMem, fun other hFound =>
                hNone other (Or.inl hFound)⟩
            exact hNone value
              (Or.inr (by rw [(hTable value).mpr hOpen]))
          · have hNe : name ≠ redeemed := Ne.symm hName
            simp [Event.name, hName, hNe]

/-
  If every name is issued at most once, its value is found
  by the first who redeems it after that, and by nobody else.
-/
theorem redeemed_iff_of_once
    {trace earlier later : List (Event α β)}
    {table : α → Option β} {name : α} {found : Option β}
    (hReach : (lts α β).Reachable trace table)
    (hOnce : (trace.filterMap Event.issue?).Nodup)
    (hTrace : trace = earlier ++ .redeemed name found :: later)
    (value : β) :
    found = some value ↔
      Event.issued name value ∈ earlier ∧
        ∀ other,
          Event.redeemed name (some other) ∉ earlier := by
  rcases hReach.before hTrace with ⟨r, r', hBefore, _⟩
  rw [redeemed_iff hReach hTrace value]
  apply open_iff_of_once hBefore
  rw [hTrace, List.filterMap_append, List.nodup_append]
    at hOnce
  exact hOnce.1

end Tickets

end Transition
