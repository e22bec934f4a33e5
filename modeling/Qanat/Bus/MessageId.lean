import Qanat.Bus.ExternalBus

/-
  What `ensure_message_id` makes of the spellings of a name.

  An id that is found replaces all of them; if the first one
  has an empty value, the others stay beside the fresh id.

  Main declarations:
    * `EnsuresId`, `FindsId`
    * `ensuresId_iff`
    * `ensuresId_in_every_order_iff`
-/

------------------------------------------------------------
-- Canonical Headers
------------------------------------------------------------

namespace Qanat

namespace Bus

/- What is expected of the id and of the headers with it. -/
structure EnsuresId (fresh : String) (headers : Headers) :
    Prop where
  nonempty : (ensureMessageId fresh headers).1 ≠ ""
  lookup :
    (ensureMessageId fresh headers).2.lookup messageIdHeader =
      some (ensureMessageId fresh headers).1
  canonical : CanonicalId (ensureMessageId fresh headers).2
  unrelated :
    ∀ name, IsMessageId name = false →
      (ensureMessageId fresh headers).2.lookup name =
        headers.lookup name
  kept :
    (∃ name value, IsMessageId name = true ∧
        headers.lookup name = some value ∧ value ≠ "") →
      ∃ name, IsMessageId name = true ∧
        headers.lookup name =
          some (ensureMessageId fresh headers).1
  again :
    ∀ (iteration : HeaderIteration) (fresh' : String),
      (ensureMessageId fresh'
          (iteration.order
            (ensureMessageId fresh headers).2)).1 =
        (ensureMessageId fresh headers).1 ∧
      ∀ name,
        (ensureMessageId fresh'
            (iteration.order
              (ensureMessageId fresh headers).2)).2.lookup
          name =
        (ensureMessageId fresh headers).2.lookup name

/- The spelling that comes first has a value. -/
def FindsId (headers : Headers) : Prop :=
  ∃ header,
    headers.entries.find?
        (fun header => IsMessageId header.1) = some header ∧
      header.2 ≠ ""

theorem findsId_iff
    {headers : Headers} :
    FindsId headers ↔
      ∃ id, messageIdFromHeaders headers = some id := by
  unfold FindsId messageIdFromHeaders
  cases headers.entries.find?
      (fun header => IsMessageId header.1) with
  | none => simp
  | some header => simp [Option.filter]

/- An id that is found has a spelling of its own. -/
theorem lookup_of_messageIdFromHeaders
    {headers : Headers} {id : String}
    (hFound : messageIdFromHeaders headers = some id) :
    ∃ name, IsMessageId name = true ∧
      headers.lookup name = some id := by
  unfold messageIdFromHeaders at hFound
  rcases Option.filter_eq_some_iff.mp hFound with ⟨hValue, _⟩
  rcases Option.map_eq_some_iff.mp hValue with
    ⟨⟨name, value⟩, hFirst, rfl⟩
  exact ⟨name, FiniteMap.of_find?_eq_some hFirst⟩

theorem lookup_ensureMessageId_of_not
    {name : String} (hName : IsMessageId name = false)
    (fresh : String) (headers : Headers) :
    (ensureMessageId fresh headers).2.lookup name =
      headers.lookup name := by
  have hNe : name ≠ messageIdHeader := by
    rintro rfl
    rw [isMessageId_canonical] at hName
    cases hName
  unfold ensureMessageId
  cases messageIdFromHeaders headers with
  | none => exact AList.lookup_insert_ne hNe
  | some id =>
      dsimp only
      rw [AList.lookup_insert_ne hNe, FiniteMap.lookup_retain,
        hName]
      rfl

/- Headers that identify the id do so ever after. -/
theorem Identifies.ensures
    {headers : Headers} {fresh : String}
    (hIdentifies :
      Identifies (ensureMessageId fresh headers).2
        (ensureMessageId fresh headers).1)
    (hKept :
      (∃ name value, IsMessageId name = true ∧
          headers.lookup name = some value ∧ value ≠ "") →
        ∃ name, IsMessageId name = true ∧
          headers.lookup name =
            some (ensureMessageId fresh headers).1) :
    EnsuresId fresh headers where
  nonempty := hIdentifies.nonempty
  lookup := hIdentifies.lookup
  canonical := hIdentifies.canonical
  unrelated := fun _ hName =>
    lookup_ensureMessageId_of_not hName fresh headers
  kept := hKept
  again := by
    intro iteration fresh'
    have hAgain := hIdentifies.congr
      (fun name => iteration.lookup_order
        (ensureMessageId fresh headers).2 name)
    rcases hAgain.ensured fresh' with ⟨hId, hLookup⟩
    refine ⟨hId, ?_⟩
    intro name
    rw [hLookup, iteration.lookup_order]

/- An id that is found is the one that is left. -/
theorem ensuresId_of_found
    {headers : Headers} {id : String} (fresh : String)
    (hFound : messageIdFromHeaders headers = some id) :
    EnsuresId fresh headers := by
  have hId : (ensureMessageId fresh headers).1 = id := by
    unfold ensureMessageId
    rw [hFound]
  have hIdentifies :=
    identifies_ensureMessageId fresh hFound
  rw [← hId] at hIdentifies
  apply hIdentifies.ensures
  intro _
  rw [hId]
  exact lookup_of_messageIdFromHeaders hFound

/- A fresh id takes the place of the only spelling. -/
theorem ensuresId_of_canonical
    {headers : Headers} {fresh : String}
    (hFresh : fresh ≠ "")
    (hCanonical : CanonicalId headers)
    (hNone : messageIdFromHeaders headers = none) :
    EnsuresId fresh headers := by
  have hEnsured :
      ensureMessageId fresh headers =
        (fresh, headers.insert messageIdHeader fresh) := by
    unfold ensureMessageId
    rw [hNone]
  apply Identifies.ensures
  · rw [hEnsured]
    exact hCanonical.identifies_insert hFresh
  · rintro ⟨name, value, hName, hLookup, hValue⟩
    have hOwn : name = messageIdHeader := by
      by_contra hOther
      rw [hCanonical name hOther hName] at hLookup
      cases hLookup
    rw [hOwn] at hLookup
    have hIdentifies : Identifies headers value :=
      ⟨hValue, hLookup, hCanonical⟩
    rw [hIdentifies.found] at hNone
    cases hNone

/-
  The headers of a message are made canonical exactly if the
  first spelling of the id has a value or if no spelling but
  its own is there.
-/
theorem ensuresId_iff
    {fresh : String} (hFresh : fresh ≠ "")
    (headers : Headers) :
    EnsuresId fresh headers ↔
      FindsId headers ∨ CanonicalId headers := by
  rw [findsId_iff]
  cases hFound : messageIdFromHeaders headers with
  | some id =>
      exact iff_of_true (ensuresId_of_found fresh hFound)
        (Or.inl ⟨id, rfl⟩)
  | none =>
      constructor
      · intro hEnsures
        right
        intro name hOther hName
        have hCanonical := hEnsures.canonical name hOther hName
        unfold ensureMessageId at hCanonical
        rw [hFound] at hCanonical
        rwa [AList.lookup_insert_ne hOther] at hCanonical
      · rintro (⟨id, hSome⟩ | hCanonical)
        · cases hSome
        · exact ensuresId_of_canonical hFresh hCanonical
            hFound

/- A spelling with an empty value stays beside the new id. -/
def emptySpelling : Headers :=
  (∅ : Headers).insert "Qanat-Message-Id" ""

theorem empty_spelling_stays :
    ¬ EnsuresId "fresh" emptySpelling := by
  intro hEnsures
  have hNone := hEnsures.canonical "Qanat-Message-Id"
    (by decide) (by decide)
  revert hNone
  decide

theorem ensuresId_iff_spelled :
    EnsuresId "fresh"
      ((∅ : Headers).insert "Qanat-Message-Id" "7") :=
  (ensuresId_iff (by decide) _).mpr
    (Or.inl ⟨⟨"Qanat-Message-Id", "7"⟩, by decide, by decide⟩)

end Bus

end Qanat

------------------------------------------------------------
-- Every Order of Iteration
------------------------------------------------------------

namespace Qanat

namespace Bus

theorem canonicalId_order_iff
    {headers : Headers} (iteration : HeaderIteration) :
    CanonicalId (iteration.order headers) ↔
      CanonicalId headers := by
  unfold CanonicalId
  simp only [FiniteMap.Iteration.lookup_order]

/-
  In every order, a map is made canonical exactly if none of
  the spellings is empty or if there is no other spelling.
-/
theorem ensuresId_in_every_order_iff
    {fresh : String} (hFresh : fresh ≠ "")
    (headers : Headers) :
    (∀ iteration : HeaderIteration,
        EnsuresId fresh (iteration.order headers)) ↔
      (∀ name, IsMessageId name = true →
        headers.lookup name ≠ some "") ∨
      CanonicalId headers := by
  simp only [ensuresId_iff hFresh, canonicalId_order_iff]
  constructor
  · intro hEvery
    by_contra hNeither
    rw [not_or] at hNeither
    rcases hNeither with ⟨hEmpty, hOther⟩
    push Not at hEmpty
    rcases hEmpty with ⟨name, hName, hLookup⟩
    rcases hEvery (FiniteMap.Iteration.first name) with
      ⟨header, hFirst, hValue⟩ | hCanonical
    · rw [FiniteMap.Iteration.order_first hLookup,
        FiniteMap.find?_insert_of_pos hName] at hFirst
      cases hFirst
      exact hValue rfl
    · exact hOther hCanonical
  · rintro (hFull | hCanonical) iteration
    · cases hFirst :
          (iteration.order headers).entries.find?
            (fun header => IsMessageId header.1) with
      | none =>
          right
          intro name _ hName
          by_contra hThere
          rcases Option.ne_none_iff_exists'.mp hThere with
            ⟨value, hLookup⟩
          rw [← iteration.lookup_order] at hLookup
          exact List.find?_eq_none.mp hFirst _
            (AList.mem_lookup_iff.mp hLookup) hName
      | some header =>
          left
          refine ⟨header, hFirst, ?_⟩
          rcases FiniteMap.of_find?_eq_some hFirst with
            ⟨hName, hLookup⟩
          rw [iteration.lookup_order] at hLookup
          intro hEmpty
          rw [hEmpty] at hLookup
          exact hFull header.1 hName hLookup
    · exact Or.inr hCanonical

end Bus

end Qanat
