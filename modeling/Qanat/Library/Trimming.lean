import Mathlib.Data.List.DropRight

/-
  The part of a list before a separator, without what is
  blank at its ends.

  Main declarations:
    * `Trimming.strip`, `Trimming.field`
    * `Trimming.field_idempotent`
    * `Trimming.field_eq_self_of_map`
-/

------------------------------------------------------------
-- Blank Ends
------------------------------------------------------------

namespace Trimming

variable {α β : Type*}

/- A list without the blanks at its ends. -/
def strip (blank : α → Bool) (l : List α) : List α :=
  (l.dropWhile blank).rdropWhile blank

theorem strip_sublist (blank : α → Bool) (l : List α) :
    (strip blank l).Sublist l :=
  have hPrefix : strip blank l <+: l.dropWhile blank :=
    List.rdropWhile_prefix blank (l.dropWhile blank)
  hPrefix.sublist.trans (l.dropWhile_suffix blank).sublist

theorem strip_idempotent (blank : α → Bool) (l : List α) :
    strip blank (strip blank l) = strip blank l := by
  have hHead :
      (strip blank l).dropWhile blank = strip blank l := by
    rw [List.dropWhile_eq_self_iff]
    intro hLength
    have hPrefix : strip blank l <+: l.dropWhile blank :=
      List.rdropWhile_prefix blank (l.dropWhile blank)
    have hInside : 0 < (l.dropWhile blank).length :=
      Nat.lt_of_lt_of_le hLength hPrefix.length_le
    rw [hPrefix.getElem hLength]
    exact List.dropWhile_get_zero_not blank l hInside
  change ((strip blank l).dropWhile blank).rdropWhile blank =
    strip blank l
  rw [hHead]
  exact List.rdropWhile_idempotent blank (l.dropWhile blank)

/- Blanks are known by what a list is mapped to. -/
theorem strip_map
    {blank : α → Bool} {blank' : β → Bool} {f : α → β}
    (hBlank : ∀ a, blank' (f a) = blank a) (l : List α) :
    strip blank' (l.map f) = (strip blank l).map f := by
  have hSame : blank' ∘ f = blank := funext hBlank
  unfold strip List.rdropWhile
  rw [List.dropWhile_map, hSame, ← List.map_reverse,
    List.dropWhile_map, hSame, List.map_reverse]

end Trimming

------------------------------------------------------------
-- First Fields
------------------------------------------------------------

namespace Trimming

variable {α β : Type*}

/- What stands before the first separator, stripped. -/
def field (separator blank : α → Bool) (l : List α) :
    List α :=
  strip blank (l.takeWhile (fun a => !separator a))

variable {separator blank : α → Bool}

theorem field_sublist (l : List α) :
    (field separator blank l).Sublist l :=
  have hPrefix :
      l.takeWhile (fun a => !separator a) <+: l :=
    List.takeWhile_prefix _
  (strip_sublist blank _).trans hPrefix.sublist

theorem field_idempotent (l : List α) :
    field separator blank (field separator blank l) =
      field separator blank l := by
  have hWhole :
      (field separator blank l).takeWhile
          (fun a => !separator a) =
        field separator blank l := by
    rw [List.takeWhile_eq_self_iff]
    intro a hMem
    have hTaken :
        a ∈ l.takeWhile (fun a => !separator a) :=
      (strip_sublist blank _).subset hMem
    exact List.mem_takeWhile_imp
      (p := fun a => !separator a) hTaken
  change strip blank ((field separator blank l).takeWhile
    (fun a => !separator a)) = _
  rw [hWhole]
  exact strip_idempotent blank _

theorem field_map
    {separator' blank' : β → Bool} {f : α → β}
    (hSeparator : ∀ a, separator' (f a) = separator a)
    (hBlank : ∀ a, blank' (f a) = blank a) (l : List α) :
    field separator' blank' (l.map f) =
      (field separator blank l).map f := by
  have hSame :
      (fun b => !separator' b) ∘ f =
        fun a => !separator a := by
    funext a
    simp [hSeparator]
  unfold field
  rw [List.takeWhile_map, hSame, strip_map hBlank]

/- What looks like a field is a field of its own. -/
theorem field_eq_self_of_map
    {f : α → α}
    (hSeparator : ∀ a, separator (f a) = separator a)
    (hBlank : ∀ a, blank (f a) = blank a)
    {l other : List α}
    (hSame :
      l.map f = (field separator blank other).map f) :
    field separator blank l = l := by
  have hMap :
      (field separator blank l).map f = l.map f := by
    calc (field separator blank l).map f
      _ = field separator blank (l.map f) :=
        (field_map hSeparator hBlank l).symm
      _ = field separator blank
            ((field separator blank other).map f) := by
        rw [hSame]
      _ = (field separator blank
            (field separator blank other)).map f :=
        field_map hSeparator hBlank _
      _ = l.map f := by rw [field_idempotent, hSame]
  have hLength := congrArg List.length hMap
  rw [List.length_map, List.length_map] at hLength
  exact (field_sublist l).eq_of_length hLength

end Trimming
