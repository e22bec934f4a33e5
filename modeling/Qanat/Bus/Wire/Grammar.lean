import Mathlib.Algebra.BigOperators.Group.List.Basic
import Qanat.Bus.Wire.Parser

/-
  The grammar of the frames, and what encoding and decoding
  make of it.

  Main declarations:
    * `Wire.IsFrame`, `Wire.parseFrame_eq_some_iff`
    * `Wire.Fits`, `Wire.parseFrame_encode`
    * `Wire.fits_of_parseFrame`
    * `Wire.decode_encode`, `Wire.decode_accepts_frames`
-/

------------------------------------------------------------
-- Frames
------------------------------------------------------------

namespace Qanat

namespace Bus

namespace Wire

open ByteString
open Headers (collect)

/- The section of the headers. -/
def encodeSection (headers : List (String × String)) :
    Bytes :=
  toBeBytes headers.length ++
    headers.flatMap
      (fun header => encodeEntry header.1 header.2)

/-
  Two lengths, the subject, a section of headers that the
  second length spans, and the payload.
-/
structure IsFrame
    (bytes : Bytes) (frame : DecodedFrame)
    (headers : List (String × String)) : Prop where
  subjectFits : (utf8 frame.subject).length < 4294967296
  sectionFits : (encodeSection headers).length < 4294967296
  bytes :
    bytes =
      toBeBytes (utf8 frame.subject).length ++
        toBeBytes (encodeSection headers).length ++
        utf8 frame.subject ++ encodeSection headers ++
        frame.payload
  headers :
    frame.headers =
      if headers = [] then none else some (collect headers)

/- Every part of a section is shorter than the section. -/
theorem fits_of_section
    {headers : List (String × String)} {bound : Nat}
    (hFits : (encodeSection headers).length < bound) :
    headers.length < bound ∧
      ∀ header ∈ headers,
        (utf8 header.1).length < bound ∧
          (utf8 header.2).length < bound := by
  rw [encodeSection, List.length_append, length_toBeBytes]
    at hFits
  have hCount := length_flatMap_encodeEntry headers
  refine ⟨by omega, ?_⟩
  intro header hMem
  have hEntry :
      (encodeEntry header.1 header.2).length ≤
        (headers.flatMap
          (fun header =>
            encodeEntry header.1 header.2)).length := by
    have hPart :
        encodeEntry header.1 header.2 ∈
          headers.map
            (fun header => encodeEntry header.1 header.2) :=
      List.mem_map.mpr ⟨header, hMem, rfl⟩
    rw [List.flatMap_def]
    exact (List.sublist_flatten_of_mem hPart).length_le
  rw [length_encodeEntry] at hEntry
  constructor <;> omega

theorem parseHeaders_encodeSection
    {headers : List (String × String)}
    (hFits : (encodeSection headers).length < 4294967296) :
    parseHeaders (encodeSection headers) =
      some
        (if headers = [] then none
        else some (collect headers)) := by
  rcases fits_of_section hFits with ⟨hCount, hEntries⟩
  have hParse := parseEntries_encode headers [] hEntries
  rw [List.append_nil] at hParse
  unfold parseHeaders encodeSection
  apply Option.bind_eq_some_iff.mpr
  refine ⟨_, readU32_toBeBytes_of_lt hCount _, ?_⟩
  apply Option.bind_eq_some_iff.mpr
  exact ⟨_, hParse, rfl⟩

theorem parseHeaders_eq_some
    {bytes : Bytes} {parsed : Option Headers}
    (hParse : parseHeaders bytes = some parsed) :
    ∃ headers,
      bytes = encodeSection headers ∧
        parsed =
          if headers = [] then none
          else some (collect headers) := by
  unfold parseHeaders at hParse
  rcases Option.bind_eq_some_iff.mp hParse with
    ⟨⟨count, afterCount⟩, hCount, hEntries⟩
  rcases Option.bind_eq_some_iff.mp hEntries with
    ⟨⟨headers, rest⟩, hHeaders, hEnd⟩
  rcases parseEntries_eq_some hHeaders with
    ⟨hLength, hBytes⟩
  dsimp only at hEnd
  split at hEnd
  · rename_i hRest
    cases hEnd
    refine ⟨headers, ?_, rfl⟩
    rw [(readU32_eq_some hCount).1, hBytes, hRest,
      List.append_nil, ← hLength]
    rfl
  · cases hEnd

/- What is decoded are exactly the frames. -/
theorem parseFrame_eq_some_iff
    {bytes : Bytes} {frame : DecodedFrame} :
    parseFrame bytes = some frame ↔
      ∃ headers, IsFrame bytes frame headers := by
  constructor
  · intro hParse
    unfold parseFrame at hParse
    rcases Option.bind_eq_some_iff.mp hParse with
      ⟨⟨subjectLength, afterOne⟩, hOne, hParse⟩
    rcases Option.bind_eq_some_iff.mp hParse with
      ⟨⟨headersLength, afterTwo⟩, hTwo, hParse⟩
    rcases Option.bind_eq_some_iff.mp hParse with
      ⟨⟨subjectBytes, afterSubject⟩, hSubjectBytes, hParse⟩
    rcases Option.bind_eq_some_iff.mp hParse with
      ⟨⟨section', payload⟩, hSection, hParse⟩
    rcases Option.bind_eq_some_iff.mp hParse with
      ⟨subject, hSubject, hParse⟩
    rcases Option.bind_eq_some_iff.mp hParse with
      ⟨parsed, hHeaders, hParse⟩
    cases hParse
    rcases parseHeaders_eq_some hHeaders with
      ⟨headers, rfl, hParsed⟩
    rcases readU32_eq_some hOne with ⟨hBytes, hOneFits⟩
    rcases readU32_eq_some hTwo with ⟨hAfterOne, hTwoFits⟩
    rcases takeExact_eq_some hSubjectBytes with
      ⟨hAfterTwo, hSubjectLength⟩
    rcases takeExact_eq_some hSection with
      ⟨hAfterSubject, hSectionLength⟩
    have hText := fromUtf8_eq_some hSubject
    subst hText hSubjectLength hSectionLength
    refine ⟨headers, hOneFits, hTwoFits, ?_, hParsed⟩
    rw [hBytes, hAfterOne, hAfterTwo, hAfterSubject]
    simp
  · rintro ⟨headers, hSubject, hSection, rfl, hHeaders⟩
    rw [List.append_assoc, List.append_assoc,
      List.append_assoc]
    unfold parseFrame
    apply Option.bind_eq_some_iff.mpr
    refine ⟨_, readU32_toBeBytes_of_lt hSubject _, ?_⟩
    apply Option.bind_eq_some_iff.mpr
    refine ⟨_, readU32_toBeBytes_of_lt hSection _, ?_⟩
    apply Option.bind_eq_some_iff.mpr
    refine ⟨_, takeExact_append rfl _, ?_⟩
    apply Option.bind_eq_some_iff.mpr
    refine ⟨_, takeExact_append rfl _, ?_⟩
    apply Option.bind_eq_some_iff.mpr
    refine ⟨_, fromUtf8_utf8 _, ?_⟩
    apply Option.bind_eq_some_iff.mpr
    refine ⟨_, parseHeaders_encodeSection hSection, ?_⟩
    rw [← hHeaders]
    rfl

end Wire

end Bus

end Qanat

------------------------------------------------------------
-- Encoded Messages
------------------------------------------------------------

namespace Qanat

namespace Bus

namespace Wire

open ByteString
open Headers (collect)

/- The headers in the order in which they are written. -/
def pairs : Option Headers → List (String × String)
| none => []
| some headers =>
    headers.entries.map (fun header => (header.1, header.2))

theorem encodeHeaders_eq (headers : Option Headers) :
    encodeHeaders headers = encodeSection (pairs headers) := by
  cases headers with
  | none => rfl
  | some headers =>
      rw [encodeHeaders, encodeSection, pairs,
        List.length_map, List.flatMap_map]

/- The lengths do not overflow. -/
def Fits (subject : String) (headers : Option Headers) :
    Prop :=
  (utf8 subject).length < 4294967296 ∧
    (encodeHeaders headers).length < 4294967296

instance (subject : String) (headers : Option Headers) :
    Decidable (Fits subject headers) := by
  unfold Fits
  infer_instance

theorem parseFrame_encode
    {subject : String} {headers : Option Headers}
    (hFits : Fits subject headers) (payload : Bytes) :
    parseFrame (encode subject headers payload) =
      some
        { subject := subject
          headers :=
            if pairs headers = [] then none
            else some (collect (pairs headers))
          payload := payload } := by
  rcases hFits with ⟨hSubject, hSection⟩
  rw [encodeHeaders_eq] at hSection
  rw [parseFrame_eq_some_iff]
  refine ⟨pairs headers, hSubject, hSection, ?_, rfl⟩
  rw [encode, encodeHeaders_eq]

/- What is collected are the headers that were written. -/
theorem lookup_collect_pairs
    (headers : Headers) (name : String) :
    (collect (pairs (some headers))).lookup name =
      headers.lookup name := by
  have hLookup := FiniteMap.lookup_foldl_insert
    headers.nodupKeys ∅ name
  rw [AList.lookup_empty, Option.or_none] at hLookup
  rw [collect, pairs, List.foldl_map]
  exact hLookup

/- No headers are collected to an empty map. -/
theorem getD_collect_pairs (headers : Option Headers) :
    (if pairs headers = [] then none
      else some (collect (pairs headers))).getD ∅ =
      collect (pairs headers) := by
  by_cases hNil : pairs headers = []
  · rw [if_pos hNil, hNil]
    rfl
  · rw [if_neg hNil]
    rfl

/- The lengths do not depend on the order of the headers. -/
theorem Fits.congr
    {subject : String} {headers headers' : Headers}
    (hFits : Fits subject (some headers))
    (hPerm : headers'.entries.Perm headers.entries) :
    Fits subject (some headers') := by
  have hLength : ∀ m : Headers,
      (encodeHeaders (some m)).length =
        4 + (m.entries.map (fun header =>
          (encodeEntry header.1 header.2).length)).sum := by
    intro m
    rw [encodeHeaders, List.length_append, length_toBeBytes,
      List.length_flatMap]
  refine ⟨hFits.1, ?_⟩
  rw [hLength, (hPerm.map _).sum_eq, ← hLength]
  exact hFits.2

/-
  A message that is decoded with its own payload did not
  overflow: the lengths that are written down are too short
  otherwise.
-/
theorem fits_of_parseFrame
    {subject : String} {headers : Option Headers}
    {payload : Bytes} {frame : DecodedFrame}
    (hParse :
      parseFrame (encode subject headers payload) = some frame)
    (hPayload : frame.payload = payload) :
    Fits subject headers := by
  rcases parseFrame_eq_some_iff.mp hParse with
    ⟨written, hFrame⟩
  have hBytes := hFrame.bytes
  have hLength := congrArg List.length hBytes
  simp only [encode, List.length_append, length_toBeBytes,
    hPayload] at hLength
  simp only [encode, List.append_assoc] at hBytes
  -- the two numbers in front of both strings of bytes
  have hSubject := congrArg readU32 hBytes
  rw [readU32_toBeBytes, readU32_toBeBytes,
    Option.some.injEq, Prod.mk.injEq] at hSubject
  rcases hSubject with ⟨hSubject, hRest⟩
  have hSection := congrArg readU32 hRest
  rw [readU32_toBeBytes, readU32_toBeBytes,
    Option.some.injEq, Prod.mk.injEq] at hSection
  have hSubjectFits := hFrame.subjectFits
  have hSectionFits := hFrame.sectionFits
  constructor <;> omega

end Wire

end Bus

end Qanat

------------------------------------------------------------
-- Encoding and Decoding
------------------------------------------------------------

namespace Qanat

namespace Bus

namespace Wire

open ByteString
open Headers (collect)

variable {max : Nat}

/- Nothing is written for no headers at all. -/
theorem pairs_eq_nil_iff (headers : Option Headers) :
    pairs headers = [] ↔ headers.getD ∅ = ∅ := by
  cases headers with
  | none => exact iff_of_true rfl rfl
  | some headers =>
      rw [pairs, List.map_eq_nil_iff, Option.getD_some,
        AList.ext_iff]
      rfl

/-
  The lengths of a buffer in memory are numbers of the
  machine.  A message whose lengths fit is decoded to itself,
  whatever the order of its headers; a map without headers is
  decoded to none.
-/
theorem decode_encode
    {subject : String} {headers : Option Headers}
    (hFits : Fits subject headers) (payload : Bytes)
    (hMemory : (encode subject headers payload).length ≤ max) :
    ∃ decoded,
      decode max (encode subject headers payload) =
        .ok
          { subject := subject
            headers := decoded
            payload := payload } ∧
      (decoded = none ↔ headers.getD ∅ = ∅) ∧
      ∀ name,
        (decoded.getD ∅).lookup name =
          (headers.getD ∅).lookup name := by
  rw [decode_eq (Or.inl hMemory), parseFrame_encode hFits]
  refine ⟨_, rfl, ?_, ?_⟩
  · rw [← pairs_eq_nil_iff]
    by_cases hNil : pairs headers = []
    · simp [hNil]
    · simp [hNil]
  · intro name
    rw [getD_collect_pairs]
    cases headers with
    | none => rfl
    | some headers => exact lookup_collect_pairs headers name

/- A message with two headers, on a 32-bit machine. -/
theorem decode_encode_orders :
    ∃ decoded,
      decode 4294967295
          (encode "orders"
            (some (collect [("id", "α"), ("", "")])) [7]) =
        .ok
          { subject := "orders"
            headers := decoded
            payload := [7] } ∧
      (decoded.getD ∅).lookup "id" = some "α" := by
  have hFits :
      Fits "orders"
        (some (collect [("id", "α"), ("", "")])) := by
    decide
  have hMemory :
      (encode "orders"
        (some (collect [("id", "α"), ("", "")]))
        [7]).length ≤ 4294967295 := by
    decide
  rcases decode_encode hFits [7] hMemory with
    ⟨decoded, hDecoded, _, hLookup⟩
  exact ⟨decoded, hDecoded, (hLookup "id").trans (by decide)⟩

/-
  No operation of `decode` leaves its buffer or overflows,
  and what is decoded are exactly the frames.
-/
theorem decode_accepts_frames
    {buf : Bytes} (hMemory : buf.length ≤ max) :
    decode max buf ≠ .error .outOfRange ∧
      ∀ frame, decode max buf = .ok frame ↔
        ∃ headers, IsFrame buf frame headers := by
  rw [decode_eq (Or.inl hMemory)]
  constructor
  · cases parseFrame buf <;> nofun
  · intro frame
    rw [← parseFrame_eq_some_iff]
    cases parseFrame buf with
    | none => exact iff_of_false nofun nofun
    | some parsed =>
        change Except.ok parsed = Except.ok frame ↔ _
        rw [Except.ok.injEq, Option.some.injEq]

/- A name that is given twice has its later value. -/
theorem decode_accepts_frames_twice :
    decode 4294967295
        (toBeBytes 1 ++ toBeBytes 24 ++ utf8 "s" ++
          (toBeBytes 2 ++
            (encodeEntry "k" "a" ++ encodeEntry "k" "b"))) =
      .ok
        { subject := "s"
          headers := some (collect [("k", "b")])
          payload := [] } := by
  refine ((decode_accepts_frames (by decide)).2 _).mpr ?_
  refine ⟨[("k", "a"), ("k", "b")], ?_, ?_, ?_, ?_⟩
  · decide
  · decide
  · decide
  · rfl

end Wire

end Bus

end Qanat
