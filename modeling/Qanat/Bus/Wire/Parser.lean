import Qanat.Bus.Wire.Model

/-
  Decoding by positions as parsing from the front.

  The parser takes bytes off the front of what is left, so
  it has no positions and cannot leave the buffer.

  Main declarations:
    * `Wire.parseEntry`, `Wire.parseFrame`
    * `Wire.decodeEntries_eq`, `Wire.decode_eq`
-/

------------------------------------------------------------
-- Reading from the Front
------------------------------------------------------------

namespace Qanat

namespace Bus

namespace Wire

open ByteString
open Headers (collect)

/- The same by what is left of the bytes. -/
def parseEntry (bytes : Bytes) :
    Option ((String × String) × Bytes) := do
  let (keyLength, bytes) ← readU32 bytes
  let (valueLength, bytes) ← readU32 bytes
  let (key, bytes) ← takeExact keyLength bytes
  let (value, bytes) ← takeExact valueLength bytes
  let key ← fromUtf8 key
  let value ← fromUtf8 value
  pure ((key, value), bytes)

def parseEntries :
    Nat → Bytes → Option (List (String × String) × Bytes)
| 0, bytes => pure ([], bytes)
| count + 1, bytes => do
    let (header, bytes) ← parseEntry bytes
    let (headers, bytes) ← parseEntries count bytes
    pure (header :: headers, bytes)

def parseHeaders (bytes : Bytes) :
    Option (Option Headers) := do
  let (count, bytes) ← readU32 bytes
  let (headers, bytes) ← parseEntries count bytes
  if bytes = [] then
    pure
      (if headers = [] then none else some (collect headers))
  else
    none

def parseFrame (bytes : Bytes) : Option DecodedFrame := do
  let (subjectLength, bytes) ← readU32 bytes
  let (headersLength, bytes) ← readU32 bytes
  let (subject, bytes) ← takeExact subjectLength bytes
  let (headers, payload) ← takeExact headersLength bytes
  let subject ← fromUtf8 subject
  let headers ← parseHeaders headers
  pure { subject, headers, payload }

/- What is read as a header is an encoded header. -/
theorem parseEntry_eq_some
    {bytes rest : Bytes} {header : String × String}
    (hParse : parseEntry bytes = some (header, rest)) :
    bytes = encodeEntry header.1 header.2 ++ rest := by
  unfold parseEntry at hParse
  rcases Option.bind_eq_some_iff.mp hParse with
    ⟨⟨keyLength, afterKey⟩, hKeyLength, hParse⟩
  rcases Option.bind_eq_some_iff.mp hParse with
    ⟨⟨valueLength, afterValue⟩, hValueLength, hParse⟩
  rcases Option.bind_eq_some_iff.mp hParse with
    ⟨⟨keyBytes, afterBytes⟩, hKeyBytes, hParse⟩
  rcases Option.bind_eq_some_iff.mp hParse with
    ⟨⟨valueBytes, last⟩, hValueBytes, hParse⟩
  rcases Option.bind_eq_some_iff.mp hParse with
    ⟨key, hKey, hParse⟩
  rcases Option.bind_eq_some_iff.mp hParse with
    ⟨value, hValue, hParse⟩
  cases hParse
  rcases takeExact_eq_some hKeyBytes with ⟨hSplit, hOne⟩
  rcases takeExact_eq_some hValueBytes with ⟨hSplit', hTwo⟩
  rw [(readU32_eq_some hKeyLength).1,
    (readU32_eq_some hValueLength).1, hSplit, hSplit',
    ← hOne, ← hTwo, fromUtf8_eq_some hKey,
    fromUtf8_eq_some hValue]
  simp [encodeEntry]

theorem parseEntry_encodeEntry
    {key value : String} (rest : Bytes)
    (hKey : (utf8 key).length < 4294967296)
    (hValue : (utf8 value).length < 4294967296) :
    parseEntry (encodeEntry key value ++ rest) =
      some ((key, value), rest) := by
  have hSplit :
      encodeEntry key value ++ rest =
        toBeBytes (utf8 key).length ++
          (toBeBytes (utf8 value).length ++
            (utf8 key ++ (utf8 value ++ rest))) := by
    simp [encodeEntry]
  unfold parseEntry
  rw [hSplit]
  apply Option.bind_eq_some_iff.mpr
  refine ⟨_, readU32_toBeBytes_of_lt hKey _, ?_⟩
  apply Option.bind_eq_some_iff.mpr
  refine ⟨_, readU32_toBeBytes_of_lt hValue _, ?_⟩
  apply Option.bind_eq_some_iff.mpr
  refine ⟨_, takeExact_append rfl _, ?_⟩
  apply Option.bind_eq_some_iff.mpr
  refine ⟨_, takeExact_append rfl _, ?_⟩
  apply Option.bind_eq_some_iff.mpr
  refine ⟨_, fromUtf8_utf8 _, ?_⟩
  apply Option.bind_eq_some_iff.mpr
  exact ⟨_, fromUtf8_utf8 _, rfl⟩

theorem parseEntries_eq_some
    {count : Nat} {bytes rest : Bytes}
    {headers : List (String × String)}
    (hParse :
      parseEntries count bytes = some (headers, rest)) :
    headers.length = count ∧
      bytes =
        headers.flatMap
          (fun header => encodeEntry header.1 header.2) ++
          rest := by
  induction count generalizing bytes headers with
  | zero =>
      cases hParse
      exact ⟨rfl, rfl⟩
  | succ count ih =>
      unfold parseEntries at hParse
      rcases Option.bind_eq_some_iff.mp hParse with
        ⟨⟨header, afterOne⟩, hOne, hParse⟩
      rcases Option.bind_eq_some_iff.mp hParse with
        ⟨⟨others, last⟩, hOthers, hParse⟩
      cases hParse
      rcases ih hOthers with ⟨rfl, hBytes⟩
      refine ⟨rfl, ?_⟩
      rw [parseEntry_eq_some hOne, hBytes,
        List.flatMap_cons, List.append_assoc]

theorem parseEntries_encode
    (headers : List (String × String)) (rest : Bytes)
    (hFits : ∀ header ∈ headers,
      (utf8 header.1).length < 4294967296 ∧
        (utf8 header.2).length < 4294967296) :
    parseEntries headers.length
        (headers.flatMap
          (fun header => encodeEntry header.1 header.2) ++
          rest) =
      some (headers, rest) := by
  induction headers with
  | nil => rfl
  | cons header others ih =>
      have hOne := hFits header List.mem_cons_self
      rw [List.length_cons, parseEntries, List.flatMap_cons,
        List.append_assoc,
        parseEntry_encodeEntry _ hOne.1 hOne.2]
      change (parseEntries others.length _).bind _ = _
      rw [ih (fun other hMem =>
        hFits other (List.mem_cons_of_mem _ hMem))]
      rfl

theorem length_encodeEntry (key value : String) :
    (encodeEntry key value).length =
      8 + (utf8 key).length + (utf8 value).length := by
  simp [encodeEntry]
  omega

theorem length_flatMap_encodeEntry
    (headers : List (String × String)) :
    8 * headers.length ≤
      (headers.flatMap
        (fun header =>
          encodeEntry header.1 header.2)).length := by
  induction headers with
  | nil => exact Nat.le_refl _
  | cons header others ih =>
      rw [List.flatMap_cons, List.length_append,
        length_encodeEntry, List.length_cons]
      omega

end Wire

end Bus

end Qanat

------------------------------------------------------------
-- Positions
------------------------------------------------------------

namespace Qanat

namespace Bus

namespace Wire

open ByteString
open Headers (collect)

variable {max : Nat} {buf : Bytes}

theorem readAt_eq
    {start : Nat} (hRoom : start + 3 ≤ max)
    (hBound : start + 4 ≤ buf.length) :
    ∃ n, readAt max buf start = .ok n ∧
      n < 4294967296 ∧
      readU32 (buf.drop start) =
        some (n, buf.drop (start + 4)) := by
  have h0 : start < buf.length := by omega
  have h1 : start + 1 < buf.length := by omega
  have h2 : start + 2 < buf.length := by omega
  have h3 : start + 3 < buf.length := by omega
  refine ⟨fromBeBytes buf[start] buf[start + 1]
    buf[start + 2] buf[start + 3], ?_, fromBeBytes_lt _ _ _ _,
    ?_⟩
  · have hIndex : ∀ i (hi : i < buf.length),
        index buf i = .ok buf[i] := by
      intro i hi
      rw [index, List.getElem?_eq_getElem hi]
    have hAdd : ∀ i ≤ 3, add max start i = .ok (start + i) := by
      intro i hi
      rw [add, if_pos (by omega)]
    unfold readAt
    rw [hIndex start h0, hAdd 1 (by decide),
      hAdd 2 (by decide), hAdd 3 (by decide)]
    change (do
      let b ← index buf (start + 1)
      let c ← index buf (start + 2)
      let d ← index buf (start + 3)
      pure (fromBeBytes buf[start] b c d) : Decoded Nat) = _
    rw [hIndex _ h1, hIndex _ h2, hIndex _ h3]
    rfl
  · rw [List.drop_eq_getElem_cons h0,
      List.drop_eq_getElem_cons h1,
      List.drop_eq_getElem_cons h2,
      List.drop_eq_getElem_cons h3]
    rfl

theorem takeExact_drop
    {start n : Nat} (hStart : start ≤ buf.length) :
    takeExact n (buf.drop start) =
      if start + n ≤ buf.length then
        some ((buf.drop start).take n, buf.drop (start + n))
      else
        none := by
  unfold takeExact
  rw [List.length_drop, List.drop_drop]
  by_cases hBound : start + n ≤ buf.length
  · rw [if_pos hBound, if_pos (by omega)]
  · rw [if_neg hBound, if_neg (by omega)]

theorem slice_eq
    {start stop : Nat} (hStart : start ≤ stop)
    (hStop : stop ≤ buf.length) :
    slice buf start stop =
      .ok ((buf.drop start).take (stop - start)) :=
  if_pos ⟨hStart, hStop⟩

/- What the parser finds, or a rejection. -/
def orReject {α : Type} : Option α → Decoded α
| some a => .ok a
| none => .error .rejected

theorem fromUtf8OrStop_eq (bytes : Bytes) :
    fromUtf8OrStop bytes = orReject (fromUtf8 bytes) := by
  unfold fromUtf8OrStop
  cases fromUtf8 bytes <;> rfl

theorem ok_bind
    {α β : Type} (a : α) (next : α → Decoded β) :
    (.ok a : Decoded α) >>= next = next a :=
  rfl

theorem rejectIf_of_not
    {condition : Prop} [Decidable condition]
    (hNot : ¬ condition) :
    rejectIf condition = .ok () :=
  if_neg hNot

/-
  The ends of two parts that follow a position: too few bytes
  are rejected, at the latest by their bound.
-/
theorem decode_ends
    {α : Type} {start a b : Nat}
    (hRoom : start + a + b ≤ max ∨
      buf.length < start + a + b)
    (next : Nat → Nat → Decoded α) :
    (do
      let middle ← checkedAdd max start a
      let stop ← checkedAdd max middle b
      rejectIf (buf.length < stop)
      next middle stop) =
      if start + a + b ≤ buf.length then
        next (start + a) (start + a + b)
      else
        .error .rejected := by
  unfold checkedAdd rejectIf
  by_cases hBoth : start + a + b ≤ buf.length
  · have hSecond : start + a + b ≤ max := by omega
    have hFirst : start + a ≤ max := by omega
    rw [if_pos hBoth, if_pos hFirst, ok_bind, if_pos hSecond,
      ok_bind, if_neg (Nat.not_lt.mpr hBoth), ok_bind]
  · rw [if_neg hBoth]
    by_cases hFirst : start + a ≤ max
    · rw [if_pos hFirst, ok_bind]
      by_cases hSecond : start + a + b ≤ max
      · rw [if_pos hSecond, ok_bind,
          if_pos (Nat.lt_of_not_le hBoth)]
        rfl
      · rw [if_neg hSecond]
        rfl
    · rw [if_neg hFirst]
      rfl

/- The same two parts taken from the front. -/
theorem take_ends
    {α : Type} {start a b : Nat} (hStart : start ≤ buf.length)
    (next : Bytes → Bytes → Bytes → Option α) :
    (do
      let (first, rest) ← takeExact a (buf.drop start)
      let (second, rest) ← takeExact b rest
      next first second rest) =
      if start + a + b ≤ buf.length then
        next ((buf.drop start).take a)
          ((buf.drop (start + a)).take b)
          (buf.drop (start + a + b))
      else
        none := by
  rw [takeExact_drop hStart]
  by_cases hOne : start + a ≤ buf.length
  · rw [if_pos hOne]
    change ((takeExact b (buf.drop (start + a))).bind _) = _
    rw [takeExact_drop hOne]
    split <;> rfl
  · rw [if_neg hOne, if_neg (by omega)]
    rfl

/- A header needs the eight bytes of its lengths. -/
theorem decodeEntry_of_short
    {cursor : Nat} (hCursor : cursor ≤ buf.length)
    (hShort : buf.length < cursor + 8) :
    decodeEntry max buf cursor = .error .rejected ∧
      parseEntry (buf.drop cursor) = none := by
  constructor
  · unfold decodeEntry checkedAdd
    by_cases hAdd : cursor + 8 ≤ max
    · rw [if_pos hAdd, ok_bind, rejectIf, if_pos hShort]
      rfl
    · rw [if_neg hAdd]
      rfl
  · unfold parseEntry
    cases hKey : readU32 (buf.drop cursor) with
    | none => rfl
    | some found =>
        rcases found with ⟨keyLength, rest⟩
        have hRest : (buf.drop cursor).length =
            4 + rest.length := by
          rw [(readU32_eq_some hKey).1]
          simp
        rw [List.length_drop] at hRest
        change (readU32 rest).bind _ = _
        rw [readU32_of_length_lt (by omega)]
        rfl

/- One turn of the loop reads one header from the front. -/
theorem decodeEntry_eq
    {cursor : Nat} (hRoom : buf.length ≤ max)
    (hCursor : cursor ≤ buf.length) :
    decodeEntry max buf cursor =
      orReject ((parseEntry (buf.drop cursor)).map
        (fun found =>
          (found.1, buf.length - found.2.length))) := by
  by_cases hLengths : cursor + 8 ≤ buf.length
  · rcases @readAt_eq max buf cursor (by omega)
        (by omega) with
      ⟨keyLength, hKeyAt, _, hKey⟩
    rcases @readAt_eq max buf (cursor + 4) (by omega)
        (by omega) with
      ⟨valueLength, hValueAt, _, hValue⟩
    have hAdd : checkedAdd max cursor 8 = .ok (cursor + 8) :=
      if_pos (by omega)
    have hFour : add max cursor 4 = .ok (cursor + 4) :=
      if_pos (by omega)
    have hNot : ¬ buf.length < cursor + 8 := by omega
    have hParse :
        parseEntry (buf.drop cursor) =
          (do
            let (key, rest) ←
              takeExact keyLength (buf.drop (cursor + 8))
            let (value, rest) ← takeExact valueLength rest
            let key ← fromUtf8 key
            let value ← fromUtf8 value
            pure ((key, value), rest)) := by
      unfold parseEntry
      rw [hKey]
      change (readU32 (buf.drop (cursor + 4))).bind _ = _
      rw [hValue]
      rfl
    rw [hParse, take_ends hLengths
      (fun key value rest => do
        let key ← fromUtf8 key
        let value ← fromUtf8 value
        pure ((key, value), rest))]
    unfold decodeEntry
    simp only [hAdd, rejectIf_of_not hNot, hKeyAt, hFour,
      hValueAt, ok_bind]
    rw [decode_ends (by omega)]
    split
    · rename_i hBoth
      have hOne : cursor + 8 + keyLength ≤ buf.length := by
        omega
      have hLength :
          buf.length -
              (buf.drop (cursor + 8 + keyLength +
                valueLength)).length =
            cursor + 8 + keyLength + valueLength := by
        rw [List.length_drop]
        omega
      simp only [ok_bind, fromUtf8OrStop_eq,
        slice_eq (Nat.le_add_right (cursor + 8) keyLength)
          hOne,
        slice_eq
          (Nat.le_add_right (cursor + 8 + keyLength)
            valueLength) hBoth,
        Nat.add_sub_cancel_left]
      cases fromUtf8
          ((buf.drop (cursor + 8)).take keyLength) with
      | none => rfl
      | some key =>
          cases fromUtf8
              ((buf.drop (cursor + 8 + keyLength)).take
                valueLength) with
          | none => rfl
          | some value =>
              change Except.ok _ = Except.ok (_, _)
              rw [hLength]
    · rfl
  · have hShort := @decodeEntry_of_short max buf cursor
      hCursor (Nat.lt_of_not_le hLengths)
    rw [hShort.1, hShort.2]
    rfl

end Wire

end Bus

end Qanat

------------------------------------------------------------
-- The Loop and the Frame
------------------------------------------------------------

namespace Qanat

namespace Bus

namespace Wire

open ByteString
open Headers (collect)

variable {max : Nat} {buf : Bytes}

/- The rest of a buffer stands at its own position. -/
theorem drop_of_append
    {cursor : Nat} {front rest : Bytes}
    (hSplit : buf.drop cursor = front ++ rest) :
    buf.drop (buf.length - rest.length) = rest := by
  have hBuf : buf = (buf.take cursor ++ front) ++ rest := by
    rw [List.append_assoc, ← hSplit, List.take_append_drop]
  have hLength :
      buf.length - rest.length =
        (buf.take cursor ++ front).length := by
    have hAll := congrArg List.length hBuf
    rw [List.length_append] at hAll
    omega
  calc buf.drop (buf.length - rest.length)
    _ = ((buf.take cursor ++ front) ++ rest).drop
        (buf.take cursor ++ front).length := by
      rw [← hBuf, hLength]
    _ = rest := List.drop_left

/- The loop reads the headers one after the other. -/
theorem decodeEntries_eq
    {count cursor : Nat} {headers : Headers}
    (hRoom : buf.length ≤ max)
    (hCursor : cursor ≤ buf.length) :
    decodeEntries max buf count cursor headers =
      orReject
        ((parseEntries count (buf.drop cursor)).map
          (fun found =>
            (buf.length - found.2.length,
              found.1.foldl
                (fun collected header =>
                  collected.insert header.1 header.2)
                headers))) := by
  induction count generalizing cursor headers with
  | zero =>
      change Except.ok _ = Except.ok (_, _)
      rw [List.length_drop]
      congr 2
      omega
  | succ count ih =>
      unfold decodeEntries parseEntries
      rw [decodeEntry_eq hRoom hCursor]
      cases hEntry : parseEntry (buf.drop cursor) with
      | none => rfl
      | some found =>
          rcases found with ⟨header, rest⟩
          have hRest :=
            drop_of_append (parseEntry_eq_some hEntry)
          change decodeEntries max buf count
            (buf.length - rest.length) _ = _
          rw [ih (Nat.sub_le _ _), hRest]
          change _ = orReject (Option.map _
            ((parseEntries count rest).bind _))
          cases parseEntries count rest with
          | none => rfl
          | some found => rfl

theorem decodeHeaders_eq (hRoom : buf.length ≤ max) :
    decodeHeaders max buf = orReject (parseHeaders buf) := by
  by_cases hFour : buf.length < 4
  · have hParse : parseHeaders buf = none := by
      unfold parseHeaders
      rw [readU32_of_length_lt hFour]
      rfl
    unfold decodeHeaders
    rw [hParse, rejectIf, if_pos hFour]
    rfl
  · rcases @readAt_eq max buf 0 (by omega)
        (by omega) with
      ⟨count, hReadAt, _, hRead⟩
    rw [List.drop_zero, Nat.zero_add] at hRead
    have hParse :
        parseHeaders buf =
          (parseEntries count (buf.drop 4)).bind
            (fun found =>
              if found.2 = [] then
                some (if found.1 = [] then none
                  else some (collect found.1))
              else
                none) := by
      unfold parseHeaders
      rw [hRead]
      rfl
    have hDecode :
        decodeHeaders max buf =
          if count = 0 then
            (rejectIf (buf.length ≠ 4)).bind
              (fun _ => .ok none)
          else
            (rejectIf ((buf.length - 4) / 8 < count)).bind
              (fun _ =>
                (decodeEntries max buf count 4 ∅).bind
                  (fun found =>
                    (rejectIf (found.1 ≠ buf.length)).bind
                      (fun _ => .ok (some found.2)))) := by
      unfold decodeHeaders
      rw [rejectIf, if_neg hFour, hReadAt]
      rfl
    rw [hParse, hDecode]
    cases count with
    | zero =>
        rw [if_pos rfl]
        change _ = orReject (if buf.drop 4 = [] then _
          else none)
        by_cases hEnd : buf.length = 4
        · rw [rejectIf, if_neg (by simp [hEnd]),
            if_pos (by simp [hEnd])]
          rfl
        · rw [rejectIf, if_pos hEnd, if_neg (by
            rw [List.drop_eq_nil_iff]
            omega)]
          rfl
    | succ count =>
        rw [if_neg (Nat.succ_ne_zero count),
          decodeEntries_eq hRoom (by omega)]
        cases hEntries :
            parseEntries (count + 1) (buf.drop 4) with
        | none =>
            rw [rejectIf]
            split <;> rfl
        | some found =>
            rcases found with ⟨headers, rest⟩
            rcases parseEntries_eq_some hEntries with
              ⟨hCount, hBytes⟩
            have hEnough := length_flatMap_encodeEntry headers
            have hLength := congrArg List.length hBytes
            rw [List.length_drop, List.length_append]
              at hLength
            have hNot :
                ¬ (buf.length - 4) / 8 < count + 1 := by
              omega
            have hSome : headers ≠ [] := by
              intro hNil
              rw [hNil] at hCount
              cases hCount
            rw [rejectIf, if_neg hNot]
            change (rejectIf
              (buf.length - rest.length ≠ buf.length)).bind _ =
                orReject (if rest = [] then _ else none)
            cases rest with
            | nil =>
                rw [rejectIf, if_neg (by simp), if_pos rfl,
                  if_neg hSome]
                rfl
            | cons byte rest =>
                rw [rejectIf, if_pos (by
                  rw [List.length_cons] at hLength ⊢
                  omega), if_neg (by simp)]
                rfl

/- A frame needs the eight bytes of its lengths. -/
theorem parseFrame_of_short (hShort : buf.length < 8) :
    parseFrame buf = none := by
  unfold parseFrame
  cases hSubject : readU32 buf with
  | none => rfl
  | some found =>
      rcases found with ⟨subjectLength, rest⟩
      have hRest : buf.length = 4 + rest.length := by
        rw [(readU32_eq_some hSubject).1]
        simp
      change (readU32 rest).bind _ = _
      rw [readU32_of_length_lt (by omega)]
      rfl

/- Decoding by positions is parsing from the front. -/
theorem decode_eq
    (hRoom : buf.length ≤ max ∨ 8589934598 ≤ max) :
    decode max buf = orReject (parseFrame buf) := by
  by_cases hEight : buf.length < 8
  · unfold decode
    rw [parseFrame_of_short hEight, rejectIf, if_pos hEight]
    rfl
  · rcases @readAt_eq max buf 0 (by omega) (by omega) with
      ⟨subjectLength, hSubjectAt, hSubjectLt, hSubject⟩
    rcases @readAt_eq max buf 4 (by omega) (by omega) with
      ⟨headersLength, hHeadersAt, hHeadersLt, hHeaders⟩
    have hLengths : 8 ≤ buf.length := Nat.not_lt.mp hEight
    have hParse :
        parseFrame buf =
          (do
            let (subject, rest) ←
              takeExact subjectLength (buf.drop 8)
            let (headers, payload) ←
              takeExact headersLength rest
            let subject ← fromUtf8 subject
            let headers ← parseHeaders headers
            pure { subject, headers, payload }) := by
      unfold parseFrame
      rw [List.drop_zero, Nat.zero_add] at hSubject
      rw [hSubject]
      change (readU32 (buf.drop 4)).bind _ = _
      rw [hHeaders]
      rfl
    rw [hParse, take_ends hLengths
      (fun subject headers payload =>
        (do
          let subject ← fromUtf8 subject
          let headers ← parseHeaders headers
          pure { subject, headers, payload } :
            Option DecodedFrame))]
    unfold decode
    simp only [rejectIf_of_not hEight, hSubjectAt,
      hHeadersAt, ok_bind]
    rw [decode_ends (by omega)]
    split
    · rename_i hBoth
      have hOne : 8 + subjectLength ≤ buf.length := by omega
      have hSection :
          ((buf.drop (8 + subjectLength)).take
            headersLength).length ≤ max := by
        rw [List.length_take]
        omega
      have hRest :
          (buf.drop
            (8 + subjectLength + headersLength)).take
            (buf.length -
              (8 + subjectLength + headersLength)) =
            buf.drop
              (8 + subjectLength + headersLength) := by
        apply List.take_of_length_le
        rw [List.length_drop]
      simp only [ok_bind, fromUtf8OrStop_eq,
        slice_eq (Nat.le_add_right 8 subjectLength) hOne,
        slice_eq
          (Nat.le_add_right (8 + subjectLength)
            headersLength) hBoth,
        slice_eq hBoth (Nat.le_refl _), hRest,
        Nat.add_sub_cancel_left, decodeHeaders_eq hSection]
      cases fromUtf8 ((buf.drop 8).take subjectLength) with
      | none => rfl
      | some subject =>
          cases parseHeaders
              ((buf.drop (8 + subjectLength)).take
                headersLength) with
          | none => rfl
          | some headers => rfl
    · rfl

end Wire

end Bus

end Qanat
