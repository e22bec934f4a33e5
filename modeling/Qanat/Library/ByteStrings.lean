import Mathlib.Data.List.Basic

/-
  Numbers and texts as strings of bytes.

  A 32-bit number is four bytes, the most significant first;
  a larger one is cut off.  A text is its UTF-8 encoding.

  Main declarations:
    * `toBeBytes`, `fromBeBytes`, `readU32`
    * `utf8`, `fromUtf8`
    * `takeExact`
-/

------------------------------------------------------------
-- Numbers
------------------------------------------------------------

namespace ByteString

/- `(n as u32).to_be_bytes()`. -/
def toBeBytes (n : Nat) : List UInt8 :=
  [UInt8.ofNat (n / 16777216), UInt8.ofNat (n / 65536),
    UInt8.ofNat (n / 256), UInt8.ofNat n]

/- `u32::from_be_bytes`. -/
def fromBeBytes (a b c d : UInt8) : Nat :=
  a.toNat * 16777216 + b.toNat * 65536 + c.toNat * 256 +
    d.toNat

/- The number in front of a string of bytes. -/
def readU32 : List UInt8 → Option (Nat × List UInt8)
| a :: b :: c :: d :: rest => some (fromBeBytes a b c d, rest)
| _ => none

@[simp]
theorem length_toBeBytes (n : Nat) :
    (toBeBytes n).length = 4 :=
  rfl

theorem fromBeBytes_lt (a b c d : UInt8) :
    fromBeBytes a b c d < 4294967296 := by
  have ha := a.toNat_lt
  have hb := b.toNat_lt
  have hc := c.toNat_lt
  have hd := d.toNat_lt
  unfold fromBeBytes
  omega

/- What is read back is the number up to its overflow. -/
theorem readU32_toBeBytes (n : Nat) (rest : List UInt8) :
    readU32 (toBeBytes n ++ rest) =
      some (n % 4294967296, rest) := by
  have hValue :
      fromBeBytes (UInt8.ofNat (n / 16777216))
          (UInt8.ofNat (n / 65536)) (UInt8.ofNat (n / 256))
          (UInt8.ofNat n) =
        n % 4294967296 := by
    unfold fromBeBytes
    simp only [UInt8.toNat_ofNat']
    omega
  change some (fromBeBytes _ _ _ _, rest) = _
  rw [hValue]

theorem readU32_toBeBytes_of_lt
    {n : Nat} (hFits : n < 4294967296) (rest : List UInt8) :
    readU32 (toBeBytes n ++ rest) = some (n, rest) := by
  rw [readU32_toBeBytes, Nat.mod_eq_of_lt hFits]

/- Four bytes are the number that they are read as. -/
theorem toBeBytes_fromBeBytes (a b c d : UInt8) :
    toBeBytes (fromBeBytes a b c d) = [a, b, c, d] := by
  have ha := a.toNat_lt
  have hb := b.toNat_lt
  have hc := c.toNat_lt
  have hd := d.toNat_lt
  unfold toBeBytes fromBeBytes
  simp only [List.cons.injEq, and_true]
  refine ⟨?_, ?_, ?_, ?_⟩ <;>
    (apply UInt8.toNat_inj.mp
     rw [UInt8.toNat_ofNat']
     omega)

theorem readU32_of_length_lt
    {bytes : List UInt8} (hShort : bytes.length < 4) :
    readU32 bytes = none := by
  match bytes, hShort with
  | [], _ => rfl
  | [_], _ => rfl
  | [_, _], _ => rfl
  | [_, _, _], _ => rfl

theorem readU32_eq_some
    {bytes rest : List UInt8} {n : Nat}
    (hRead : readU32 bytes = some (n, rest)) :
    bytes = toBeBytes n ++ rest ∧ n < 4294967296 := by
  match bytes, hRead with
  | a :: b :: c :: d :: tail, hRead =>
      cases hRead
      rw [toBeBytes_fromBeBytes]
      exact ⟨rfl, fromBeBytes_lt a b c d⟩

end ByteString

------------------------------------------------------------
-- Texts
------------------------------------------------------------

namespace ByteString

def utf8 (text : String) : List UInt8 :=
  text.toByteArray.data.toList

def fromUtf8 (bytes : List UInt8) : Option String :=
  String.fromUTF8? bytes.toByteArray

theorem toByteArray_utf8 (text : String) :
    (utf8 text).toByteArray = text.toByteArray := by
  apply ByteArray.ext
  rw [List.data_toByteArray]
  rfl

theorem fromUtf8_utf8 (text : String) :
    fromUtf8 (utf8 text) = some text := by
  unfold fromUtf8
  rw [toByteArray_utf8]
  unfold String.fromUTF8?
  rw [dif_pos text.isValidUTF8]
  rfl

theorem fromUtf8_eq_some
    {bytes : List UInt8} {text : String}
    (hText : fromUtf8 bytes = some text) :
    bytes = utf8 text := by
  unfold fromUtf8 String.fromUTF8? at hText
  split at hText
  · cases hText
    exact List.toList_data_toByteArray.symm
  · cases hText

end ByteString

------------------------------------------------------------
-- Parts
------------------------------------------------------------

namespace ByteString

/- The first bytes, if there are so many. -/
def takeExact (n : Nat) (bytes : List UInt8) :
    Option (List UInt8 × List UInt8) :=
  if n ≤ bytes.length then
    some (bytes.take n, bytes.drop n)
  else
    none

theorem takeExact_append
    {n : Nat} {part : List UInt8} (hLength : part.length = n)
    (rest : List UInt8) :
    takeExact n (part ++ rest) = some (part, rest) := by
  unfold takeExact
  rw [if_pos (by simp [hLength]), List.take_left' hLength,
    List.drop_left' hLength]

theorem takeExact_eq_some
    {n : Nat} {bytes part rest : List UInt8}
    (hTake : takeExact n bytes = some (part, rest)) :
    bytes = part ++ rest ∧ part.length = n := by
  unfold takeExact at hTake
  split at hTake
  · rename_i hLength
    cases hTake
    exact ⟨(List.take_append_drop n bytes).symm,
      List.length_take_of_le hLength⟩
  · cases hTake

end ByteString
