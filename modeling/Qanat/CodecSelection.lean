import Qanat.Codec
import Qanat.Library.Lists
import Qanat.Library.Trimming

/-
  Which codec of a stack a content type selects.

  Only the content type that is asked for is stripped of its
  parameters, and only `application/msgpack` itself has an
  alias; so codecs have to be registered under such names.

  Main declarations:
    * `normalType`, `Canonical`
    * `canonical_iff`
    * `CodecCollection.latest`
    * `HeaderAwareCodec.Built`, `HeaderAwareCodec.Selects`
    * `HeaderAwareCodec.Coherent`
    * `HeaderAwareCodec.coherent_iff`
-/

------------------------------------------------------------
-- Media Types
------------------------------------------------------------

namespace Qanat

open Router (toAsciiLowercase eqIgnoreAsciiCase isWhitespace)

/-
  The media type of a content type, in lower case and with
  the alias resolved.
-/
def normalType (value : String) : String :=
  let type := toAsciiLowercase (Codec.mediaType value)
  if type = "application/x-msgpack" then
    "application/msgpack"
  else
    type

/- A name under which a codec is found by its media type. -/
def Canonical (type : String) : Prop :=
  Codec.mediaType type = type ∧
    (normalType type = "application/msgpack" →
      type = "application/msgpack")

theorem mediaType_eq_field (value : String) :
    Codec.mediaType value =
      String.ofList
        (Trimming.field (fun c => c = ';') isWhitespace
          value.toList) := by
  unfold Codec.mediaType Trimming.field
  simp only [decide_not]
  rfl

theorem toNat_toLower (c : Char) :
    c.toLower.toNat =
      if 65 ≤ c.toNat ∧ c.toNat ≤ 90 then c.toNat + 32
      else c.toNat := by
  unfold Char.toLower
  by_cases hUpper : c.val ≥ 'A'.val ∧ c.val ≤ 'Z'.val
  · have hBoth : 65 ≤ c.toNat ∧ c.toNat ≤ 90 := hUpper
    have hSum :
        (c.val + 32).toNat = (c.toNat + 32) % 4294967296 :=
      UInt32.toNat_add c.val 32
    have hFits : c.toNat + 32 < 4294967296 := by omega
    rw [if_pos hBoth, dif_pos hUpper]
    exact hSum.trans (Nat.mod_eq_of_lt hFits)
  · have hNot : ¬ (65 ≤ c.toNat ∧ c.toNat ≤ 90) := hUpper
    rw [if_neg hNot, dif_neg hUpper]

/- Letters are neither blanks nor separators. -/
theorem isWhitespace_toLower (c : Char) :
    isWhitespace c.toLower = isWhitespace c := by
  unfold isWhitespace
  rw [toNat_toLower]
  split
  · rw [Bool.eq_iff_iff]
    simp only [Bool.or_eq_true, Bool.and_eq_true,
      decide_eq_true_eq, List.contains_iff_mem, List.mem_cons,
      List.not_mem_nil, or_false]
    omega
  · rfl

theorem semicolon_toLower (c : Char) :
    decide (c.toLower = ';') = decide (c = ';') := by
  have hIff : ∀ d : Char, d = ';' ↔ d.toNat = 59 :=
    fun d => Char.toNat_inj.symm
  rw [decide_eq_decide, hIff, hIff, toNat_toLower]
  split <;> omega

/- A name that is a media type has no parameters. -/
theorem mediaType_eq_self
    {type name : String}
    (hSame :
      eqIgnoreAsciiCase type (Codec.mediaType name) = true) :
    Codec.mediaType type = type := by
  have hLower :
      type.toList.map Char.toLower =
        (Trimming.field (fun c => c = ';') isWhitespace
          name.toList).map Char.toLower := by
    unfold eqIgnoreAsciiCase toAsciiLowercase at hSame
    rw [decide_eq_true_iff, String.ofList_inj,
      mediaType_eq_field, String.toList_ofList] at hSame
    exact hSame
  rw [mediaType_eq_field,
    Trimming.field_eq_self_of_map semicolon_toLower
      isWhitespace_toLower hLower, String.ofList_toList]

theorem matchesContentType_iff
    {type name : String} :
    matchesContentType type name = true ↔
      toAsciiLowercase type =
          toAsciiLowercase (Codec.mediaType name) ∨
        type = "application/msgpack" ∧
          toAsciiLowercase (Codec.mediaType name) =
            "application/x-msgpack" := by
  have hLower :
      toAsciiLowercase "application/x-msgpack" =
        "application/x-msgpack" := by decide
  unfold matchesContentType eqIgnoreAsciiCase
  rw [Bool.or_eq_true, Bool.and_eq_true, decide_eq_true_iff,
    decide_eq_true_iff, decide_eq_true_iff, hLower]

theorem normalType_msgPack :
    normalType "application/msgpack" =
      "application/msgpack" := by
  decide

theorem normalType_alias :
    normalType "application/x-msgpack" =
      "application/msgpack" := by
  decide

/- What matches has the same media type. -/
theorem normalType_eq_of_matches
    {type name : String}
    (hMatches : matchesContentType type name = true) :
    normalType type = normalType name := by
  rcases matchesContentType_iff.mp hMatches with
    hLower | ⟨rfl, hAlias⟩
  · unfold normalType
    rw [mediaType_eq_self (decide_eq_true hLower), hLower]
  · rw [normalType_msgPack]
    unfold normalType
    rw [if_pos hAlias]

/- A canonical name matches all spellings of its type. -/
theorem Canonical.matches
    {type name : String}
    (hCanonical : Canonical type)
    (hSame : normalType type = normalType name) :
    matchesContentType type name = true := by
  rcases hCanonical with ⟨hBare, hOwn⟩
  rw [matchesContentType_iff]
  by_cases hAlias :
      toAsciiLowercase (Codec.mediaType name) =
        "application/x-msgpack"
  · right
    refine ⟨hOwn ?_, hAlias⟩
    rw [hSame]
    unfold normalType
    rw [if_pos hAlias]
  · left
    have hName :
        normalType name =
          toAsciiLowercase (Codec.mediaType name) := by
      unfold normalType
      rw [if_neg hAlias]
    rw [← hName, ← hSame]
    have hNotAlias :
        toAsciiLowercase type ≠ "application/x-msgpack" := by
      intro hType
      have hMsgPack :
          normalType type = "application/msgpack" := by
        unfold normalType
        rw [hBare, if_pos hType]
      rw [hOwn hMsgPack] at hType
      revert hType
      decide
    unfold normalType
    rw [hBare, if_neg hNotAlias]

/-
  Canonical names are exactly those that match every content
  type of their media type.
-/
theorem canonical_iff
    {type : String} :
    Canonical type ↔
      ∀ name, normalType type = normalType name →
        matchesContentType type name = true := by
  constructor
  · exact fun hCanonical _ hSame => hCanonical.matches hSame
  · intro hAll
    have hMsgPack :
        normalType type = "application/msgpack" →
          type = "application/msgpack" := by
      intro hType
      have hBare := hAll "application/msgpack"
        (hType.trans normalType_msgPack.symm)
      have hAlias := hAll "application/x-msgpack"
        (hType.trans normalType_alias.symm)
      rw [matchesContentType_iff] at hBare hAlias
      rcases hBare with hLower | ⟨hExact, _⟩
      · rcases hAlias with hOther | ⟨hExact, _⟩
        · rw [hLower] at hOther
          exact absurd hOther (by decide)
        · exact hExact
      · exact hExact
    refine ⟨?_, hMsgPack⟩
    rcases matchesContentType_iff.mp (hAll type rfl) with
      hLower | ⟨hExact, _⟩
    · exact mediaType_eq_self (decide_eq_true hLower)
    · rw [hExact]
      decide

end Qanat

------------------------------------------------------------
-- Stacks
------------------------------------------------------------

namespace Qanat

namespace CodecCollection

variable {Ser De : Type → Type}

theorem contains_eq
    (codecs : CodecCollection Ser De) (name : String) :
    codecs.contains name = (codecs.select name).isSome := by
  have hWalk : ∀ codecs : CodecCollection Ser De,
      codecs.contains name =
        (codecs.select name).elim false (fun _ => true) := by
    refine eq_select rfl ?_
    intro codec rest
    rw [CodecCollection.contains]
    cases matchesContentType codec.contentType name <;> rfl
  rw [hWalk]
  cases codecs.select name <;> rfl

theorem encodeSelected_eq
    {T : Type} (name : String) (ser : Ser T) (value : T) :
    ∀ codecs : CodecCollection Ser De,
      codecs.encodeSelected name ser value =
        (codecs.select name).elim
          (.error (unsupported name))
          (fun codec => codec.encode ser value) :=
  eq_select rfl (fun _ _ => rfl)

theorem canonicalType_eq
    (codecs : CodecCollection Ser De) (name : String) :
    codecs.canonicalType name =
      (codecs.select name).map Codec.contentType := by
  have hWalk : ∀ codecs : CodecCollection Ser De,
      codecs.canonicalType name =
        (codecs.select name).elim none
          (fun codec => some codec.contentType) :=
    eq_select rfl (fun _ _ => rfl)
  rw [hWalk]
  cases codecs.select name <;> rfl

/- The codec of a media type that was registered last. -/
def latest
    (codecs : CodecCollection Ser De) (name : String) :
    Option (Codec Ser De) :=
  codecs.find? (fun codec =>
    normalType codec.contentType = normalType name)

variable {codecs : CodecCollection Ser De}
variable {codec : Codec Ser De} {name : String}

theorem normalType_of_latest
    (hLatest : codecs.latest name = some codec) :
    normalType codec.contentType = normalType name := by
  unfold latest at hLatest
  have hHere := List.find?_some hLatest
  exact of_decide_eq_true hHere

theorem latest_congr
    {other : String}
    (hSame : normalType name = normalType other) :
    codecs.latest name = codecs.latest other := by
  unfold latest
  rw [hSame]

/- Nothing is selected but a codec of the media type. -/
theorem select_of_latest
    (hCanonical :
      ∀ codec, codecs.latest name = some codec →
        Canonical codec.contentType) :
    codecs.select name = codecs.latest name := by
  unfold select latest
  apply Lists.find?_eq_of_imp
  · intro codec hMatches
    rw [decide_eq_true_iff]
    exact normalType_eq_of_matches hMatches
  · intro codec hLatest
    exact (hCanonical codec hLatest).matches
      (normalType_of_latest hLatest)

/-
  The latest codec of each media type is selected exactly if
  all of these have canonical names.
-/
theorem select_eq_latest_iff
    (codecs : CodecCollection Ser De) :
    (∀ name, codecs.select name = codecs.latest name) ↔
      ∀ codec,
        codecs.latest codec.contentType = some codec →
          Canonical codec.contentType := by
  constructor
  · intro hAll codec hLatest
    rw [canonical_iff]
    intro name hSame
    have hSelected : codecs.select name = some codec := by
      rw [hAll, ← latest_congr hSame, hLatest]
    unfold select at hSelected
    have hHere := List.find?_some hSelected
    exact hHere
  · intro hCanonical name
    apply select_of_latest
    intro codec hLatest
    apply hCanonical
    rw [latest_congr (normalType_of_latest hLatest), hLatest]

end CodecCollection

end Qanat

------------------------------------------------------------
-- Registered Stacks
------------------------------------------------------------

namespace Qanat

namespace HeaderAwareCodec

variable {Ser De : Type → Type}

/- What the constructors and the two operations can make. -/
inductive Built :
    HeaderAwareCodec Ser De → Prop where
| new (codec : Codec Ser De) : Built (new codec)
| ofDefault
    (features : Features) (formats : Formats Ser De) :
    Built (ofDefault features formats)
| register
    {stack : HeaderAwareCodec Ser De}
    (codec : Codec Ser De) :
    Built stack → Built (stack.register codec)
| withDefaultContentType
    {stack stack' : HeaderAwareCodec Ser De}
    {name : String} :
    Built stack →
      stack.withDefaultContentType name = .ok stack' →
        Built stack'

/-
  What a stack does with the codec that is selected by its
  own content type or by a given one.
-/
structure Selects (stack : HeaderAwareCodec Ser De) :
    Prop where
  encode :
    ∀ {T : Type} (ser : Ser T) (value : T),
      stack.toCodec.encode ser value =
        (stack.codecs.select stack.default).elim
          (.error (unsupported stack.default))
          (fun codec => codec.encode ser value)
  decode :
    ∀ {T : Type} (de : De T) (bytes : Bytes),
      stack.toCodec.decode de bytes =
        (stack.codecs.select stack.default).elim
          (.error (unsupported stack.default))
          (fun codec => codec.decode de bytes)
  decodeWithContentType :
    ∀ {T : Type} (name : String) (de : De T) (bytes : Bytes),
      stack.decodeWithContentType de bytes (some name) =
        (stack.codecs.select name).elim
          (.error (unsupported name))
          (fun codec => codec.decode de bytes)
  withDefaultContentType :
    ∀ name, stack.withDefaultContentType name =
      (stack.codecs.select name).elim
        (.error (unsupported name))
        (fun codec =>
          .ok { stack with default := codec.contentType })
  contains :
    ∀ name, stack.codecs.contains name =
      (stack.codecs.select name).isSome

/-
  What is expected of a stack: its own content type selects
  a codec, the given one if it is the only one, and every
  content type the latest codec of its media type.
-/
structure Coherent (stack : HeaderAwareCodec Ser De) :
    Prop where
  registered :
    ∃ codec ∈ stack.codecs,
      stack.codecs.select stack.default = some codec
  own :
    ∀ codec, stack = new codec →
      stack.codecs.select stack.default = some codec
  latest :
    ∀ name, stack.codecs.select name =
      stack.codecs.latest name

/- The traversals of a stack agree. -/
theorem selects (stack : HeaderAwareCodec Ser De) :
    stack.Selects where
  encode := fun ser value =>
    CodecCollection.encodeSelected_eq stack.default ser value
      stack.codecs
  decode := fun de bytes =>
    CodecCollection.decodeSelected_eq_elim stack.default de
      bytes stack.codecs
  decodeWithContentType := fun name de bytes =>
    CodecCollection.decodeSelected_eq_elim name de bytes
      stack.codecs
  withDefaultContentType := by
    intro name
    unfold HeaderAwareCodec.withDefaultContentType
    rw [CodecCollection.canonicalType_eq]
    cases stack.codecs.select name <;> rfl
  contains := stack.codecs.contains_eq

/- The default is the media type of a registered codec. -/
theorem Built.exists_default
    {stack : HeaderAwareCodec Ser De}
    (hBuilt : Built stack) :
    ∃ codec ∈ stack.codecs,
      normalType codec.contentType =
        normalType stack.default := by
  induction hBuilt with
  | new codec => exact ⟨codec, List.mem_singleton_self _, rfl⟩
  | ofDefault features formats =>
      refine ⟨jsonCodec formats.json, ?_, rfl⟩
      change jsonCodec formats.json ∈
        builtinCodecs features formats
      unfold builtinCodecs
      cases features.cbor <;> cases features.msgpack <;> simp
  | register codec _ ih =>
      rcases ih with ⟨found, hMem, hSame⟩
      exact ⟨found, List.mem_cons_of_mem _ hMem, hSame⟩
  | @withDefaultContentType stack stack' name _ hDefault _ =>
      rw [stack.selects.withDefaultContentType] at hDefault
      cases hSelect : stack.codecs.select name with
      | none =>
          rw [hSelect] at hDefault
          cases hDefault
      | some codec =>
          rw [hSelect] at hDefault
          cases hDefault
          exact ⟨codec, List.mem_of_find?_eq_some hSelect, rfl⟩

/-
  Encoding and decoding use the codecs that are selected, and
  these are the ones to be expected exactly if the latest
  codec of each media type has a canonical content type.
-/
theorem coherent_iff
    {stack : HeaderAwareCodec Ser De}
    (hBuilt : Built stack) :
    stack.Selects ∧
    (stack.Coherent ↔
      ∀ codec,
        stack.codecs.latest codec.contentType = some codec →
          Canonical codec.contentType) := by
  refine ⟨stack.selects, ?_⟩
  rw [← CodecCollection.select_eq_latest_iff]
  constructor
  · exact fun hCoherent => hCoherent.latest
  · intro hLatest
    refine ⟨?_, ?_, hLatest⟩
    · rcases hBuilt.exists_default with ⟨codec, hMem, hSame⟩
      rw [hLatest]
      cases hFound : stack.codecs.latest stack.default with
      | none =>
          have hNone :=
            List.find?_eq_none.mp hFound codec hMem
          exact (hNone (decide_eq_true hSame)).elim
      | some found =>
          exact ⟨found, List.mem_of_find?_eq_some hFound, rfl⟩
    · rintro codec rfl
      rw [hLatest]
      change List.find? _ [codec] = some codec
      exact List.find?_cons_of_pos (decide_eq_true rfl)

/- A codec for orders under a name of its own. -/
def orderCodec (type : String) :
    Codec (fun _ => Unit) (fun _ => Unit) where
  encode := fun _ _ => .ok [1]
  decode := fun _ _ => .error (.serialization "no value")
  contentType := type

def versioned : String := "application/order+json; version=1"

/-
  With parameters in its name, a codec is never selected: the
  only codec of a stack cannot encode.
-/
theorem parameters_never_selected :
    Built (new (orderCodec versioned)) ∧
      ¬ (new (orderCodec versioned)).Coherent ∧
      (new (orderCodec versioned)).toCodec.encode () 7 =
        .error (unsupported versioned) := by
  have hNone :
      (new (orderCodec versioned)).codecs.select versioned =
        none := by
    change List.find? _ [_] = none
    rw [List.find?_eq_none]
    intro codec hMem
    rw [List.mem_singleton.mp hMem]
    change ¬ matchesContentType versioned versioned = true
    decide
  refine ⟨Built.new _, ?_, ?_⟩
  · rintro ⟨⟨codec, _, hSelected⟩, _, _⟩
    cases hNone.symm.trans hSelected
  · refine ((new (orderCodec versioned)).selects.encode _
      _).trans ?_
    change Option.elim ((new (orderCodec
      versioned)).codecs.select versioned) _ _ = _
    rw [hNone]
    rfl

theorem coherent_iff_bare :
    (new (orderCodec "application/order+json")).Coherent := by
  apply (coherent_iff (Built.new _)).2.mpr
  intro codec hLatest
  have hMem : codec ∈
      [orderCodec "application/order+json"] :=
    List.mem_of_find?_eq_some hLatest
  rw [List.mem_singleton.mp hMem]
  change Canonical "application/order+json"
  exact ⟨by decide, by decide⟩

end HeaderAwareCodec

end Qanat
