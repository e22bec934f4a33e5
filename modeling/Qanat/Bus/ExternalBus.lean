import Qanat.Bus.Message

/-
  What the byte-oriented buses do before they publish and
  after they have received.

  A map of headers is read in an order of iteration, which
  may be another one every time.

  Main declarations:
    * `dispatchRawHeaders`
    * `CanonicalId`, `Identifies`
    * `Identifies.found`, `Identifies.ensured`
-/

------------------------------------------------------------
-- Publishing
------------------------------------------------------------

namespace Qanat

namespace Bus

open FiniteMap (Iteration)

/- The order in which a map of headers is iterated. -/
abbrev HeaderIteration :=
  Iteration (fun _ : String => String)

/- The headers that the default `dispatch_raw` publishes. -/
def dispatchRawHeaders (message : RawMessage) : Headers :=
  message.headers.insert messageIdHeader
    message.envelope.messageId

end Bus

end Qanat

------------------------------------------------------------
-- Canonical Message Ids
------------------------------------------------------------

namespace Qanat

namespace Bus

/- The id is under no other name that differs in its case. -/
def CanonicalId (headers : Headers) : Prop :=
  ∀ name, name ≠ messageIdHeader →
    IsMessageId name = true → headers.lookup name = none

theorem isMessageId_canonical :
    IsMessageId messageIdHeader = true := by
  decide

/- The names of ids and of content types are apart. -/
theorem isContentType_of_isMessageId
    {name : String} (hName : IsMessageId name = true) :
    Headers.IsContentType name = false := by
  unfold IsMessageId Router.eqIgnoreAsciiCase at hName
  unfold Headers.IsContentType Router.eqIgnoreAsciiCase
  rw [decide_eq_true_iff] at hName
  rw [hName]
  decide

theorem CanonicalId.congr
    {headers headers' : Headers}
    (hCanonical : CanonicalId headers)
    (hLookup : ∀ name,
      headers'.lookup name = headers.lookup name) :
    CanonicalId headers' := by
  intro name hOther hName
  rw [hLookup, hCanonical name hOther hName]

theorem CanonicalId.insert
    {headers : Headers}
    (hCanonical : CanonicalId headers) (value : String) :
    CanonicalId (headers.insert messageIdHeader value) := by
  intro name hOther hName
  rw [AList.lookup_insert_ne hOther,
    hCanonical name hOther hName]

/- The headers have the id and under its own name only. -/
structure Identifies (headers : Headers) (id : String) :
    Prop where
  nonempty : id ≠ ""
  lookup : headers.lookup messageIdHeader = some id
  canonical : CanonicalId headers

theorem Identifies.congr
    {headers headers' : Headers} {id : String}
    (hIdentifies : Identifies headers id)
    (hLookup : ∀ name,
      headers'.lookup name = headers.lookup name) :
    Identifies headers' id where
  nonempty := hIdentifies.nonempty
  lookup := by rw [hLookup, hIdentifies.lookup]
  canonical := hIdentifies.canonical.congr hLookup

/- Inserting an id makes canonical headers identify it. -/
theorem CanonicalId.identifies_insert
    {headers : Headers} {id : String}
    (hCanonical : CanonicalId headers) (hId : id ≠ "") :
    Identifies (headers.insert messageIdHeader id) id where
  nonempty := hId
  lookup := AList.lookup_insert headers
  canonical := hCanonical.insert id

end Bus

end Qanat

------------------------------------------------------------
-- Finding and Ensuring an Id
------------------------------------------------------------

namespace Qanat

namespace Bus

/- The id is found in every order of iteration. -/
theorem Identifies.found
    {headers : Headers} {id : String}
    (hIdentifies : Identifies headers id) :
    messageIdFromHeaders headers = some id := by
  unfold messageIdFromHeaders
  rw [FiniteMap.find?_of_only hIdentifies.lookup
    isMessageId_canonical hIdentifies.canonical]
  have hNonempty : (!id.isEmpty) = true := by
    simpa using hIdentifies.nonempty
  simp [Option.filter, hNonempty]

/- An id that is found is not empty. -/
theorem ne_of_messageIdFromHeaders
    {headers : Headers} {id : String}
    (hFound : messageIdFromHeaders headers = some id) :
    id ≠ "" := by
  unfold messageIdFromHeaders at hFound
  rcases Option.filter_eq_some_iff.mp hFound with
    ⟨_, hNonempty⟩
  rintro rfl
  revert hNonempty
  decide

/- The id that is ensured is under its own name. -/
theorem lookup_ensureMessageId
    (fresh : String) (headers : Headers) :
    (ensureMessageId fresh headers).2.lookup messageIdHeader =
      some (ensureMessageId fresh headers).1 := by
  unfold ensureMessageId
  cases messageIdFromHeaders headers <;>
    exact AList.lookup_insert _

/- Headers that identify a message are left as they are. -/
theorem Identifies.ensured
    {headers : Headers} {id : String}
    (hIdentifies : Identifies headers id) (fresh : String) :
    (ensureMessageId fresh headers).1 = id ∧
      ∀ name,
        (ensureMessageId fresh headers).2.lookup name =
          headers.lookup name := by
  unfold ensureMessageId
  rw [hIdentifies.found]
  refine ⟨rfl, ?_⟩
  intro name
  by_cases hName : name = messageIdHeader
  · rw [hName, AList.lookup_insert, hIdentifies.lookup]
  · rw [AList.lookup_insert_ne hName, FiniteMap.lookup_retain]
    cases hVariant : IsMessageId name with
    | true =>
        rw [hIdentifies.canonical name hName hVariant]
        rfl
    | false => rfl

/- If an id is found, the others are dropped. -/
theorem identifies_ensureMessageId
    {headers : Headers} {id : String} (fresh : String)
    (hFound : messageIdFromHeaders headers = some id) :
    Identifies (ensureMessageId fresh headers).2 id := by
  have hLookup := lookup_ensureMessageId fresh headers
  unfold ensureMessageId at hLookup ⊢
  rw [hFound] at hLookup ⊢
  refine ⟨ne_of_messageIdFromHeaders hFound, hLookup, ?_⟩
  intro name hOther hName
  rw [AList.lookup_insert_ne hOther, FiniteMap.lookup_retain,
    hName]
  rfl

/- An id that comes first is the one that is found. -/
theorem messageIdFromHeaders_first
    {headers : Headers} {id : String}
    (hLookup : headers.lookup messageIdHeader = some id)
    (hId : id ≠ "") :
    messageIdFromHeaders
        ((FiniteMap.Iteration.first messageIdHeader).order
          headers) =
      some id := by
  rw [FiniteMap.Iteration.order_first hLookup]
  unfold messageIdFromHeaders
  rw [FiniteMap.find?_insert_of_pos isMessageId_canonical]
  have hNonempty : (!id.isEmpty) = true := by
    simpa using hId
  simp [Option.filter, hNonempty]

end Bus

end Qanat
