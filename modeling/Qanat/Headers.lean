import Mathlib.Data.List.Induction
import Qanat.Library.FiniteMaps
import Qanat.Router.Message

/-
  The headers that the library itself reads and writes.

  The entries of a map stand in the order in which it is
  iterated.

  Main declarations:
    * `Headers.collect`, `Headers.lookup_collect`
    * `Headers.contentType`, `Headers.setContentType`
    * `Headers.lookup_setContentType`
-/

------------------------------------------------------------
-- The Content Type of a Map of Headers
------------------------------------------------------------

namespace Qanat

namespace Headers

open Router (eqIgnoreAsciiCase)

/- The name is a `content-type`, whatever its letter case. -/
def IsContentType (name : String) : Bool :=
  eqIgnoreAsciiCase name "content-type"

/- `content_type`. -/
def contentType (headers : Headers) : Option String :=
  (headers.entries.find?
    (fun header => IsContentType header.1)).map (·.2)

/-
  Collecting into a map: a later header of a name replaces
  an earlier one.
-/
def collect (headers : List (String × String)) : Headers :=
  headers.foldl
    (fun collected header =>
      collected.insert header.1 header.2) ∅

/- The last header of a name is the one that is collected. -/
theorem lookup_collect
    (headers : List (String × String)) (name : String) :
    (collect headers).lookup name =
      (headers.filter
        (fun header => header.1 = name)).getLast?.map
          (·.2) := by
  induction headers using List.reverseRecOn with
  | nil => rfl
  | append_singleton front last ih =>
      have hLast :
          collect (front ++ [last]) =
            (collect front).insert last.1 last.2 := by
        simp [collect]
      rw [hLast, List.filter_append]
      by_cases hSame : last.1 = name
      · subst hSame
        rw [AList.lookup_insert]
        simp
      · rw [AList.lookup_insert_ne (Ne.symm hSame), ih]
        simp [hSame]

/- `set_content_type`. -/
def setContentType (headers : Headers) (value : String) :
    Headers :=
  (FiniteMap.retain (fun name => !IsContentType name)
    headers).insert "content-type" value

theorem isContentType_canonical :
    IsContentType "content-type" = true := by
  simp [IsContentType, eqIgnoreAsciiCase]

/- The other headers are kept. -/
theorem lookup_setContentType
    {headers : Headers} {value name : String}
    (hName : IsContentType name = false) :
    (setContentType headers value).lookup name =
      headers.lookup name := by
  have hNe : name ≠ "content-type" := by
    rintro rfl
    rw [isContentType_canonical] at hName
    cases hName
  unfold setContentType
  rw [AList.lookup_insert_ne hNe, FiniteMap.lookup_retain,
    hName]
  rfl

/- Exactly one name is left for the content type. -/
theorem mem_setContentType_iff
    {headers : Headers} {value name : String}
    (hName : IsContentType name = true) :
    name ∈ setContentType headers value ↔
      name = "content-type" := by
  unfold setContentType
  rw [AList.mem_insert, FiniteMap.mem_retain, hName]
  simp

/- Headers of other names do not change it. -/
theorem contentType_insert_of_not
    {name : String} (hName : IsContentType name = false)
    (value : String) (headers : Headers) :
    contentType (headers.insert name value) =
      contentType headers := by
  unfold contentType
  rw [FiniteMap.find?_insert_of_not hName]

theorem contentType_erase_of_not
    {name : String} (hName : IsContentType name = false)
    (headers : Headers) :
    contentType (headers.erase name) =
      contentType headers := by
  unfold contentType
  rw [FiniteMap.find?_erase_of_not hName]

theorem contentType_setContentType
    (headers : Headers) (value : String) :
    contentType (setContentType headers value) =
      some value := by
  unfold contentType setContentType
  rw [FiniteMap.find?_insert_of_pos isContentType_canonical]
  rfl

end Headers

end Qanat
