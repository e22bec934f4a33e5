import Qanat.Bus.Message
import Qanat.Library.ByteStrings

/-
  The frames of the transports that do not route by subject.

  A frame is decoded by positions in a buffer, with checked
  additions and with unchecked ones that must not overflow.
  `max` is the largest number of the machine.

  Main declarations:
    * `Wire.encode`, `Wire.decode`
    * `Wire.DecodedFrame`, `Wire.Stop`
-/

------------------------------------------------------------
-- Encoding
------------------------------------------------------------

namespace Qanat

namespace Bus

namespace Wire

open ByteString

structure DecodedFrame where
  subject : String
  headers : Option Headers
  payload : Bytes
deriving DecidableEq

/- One header: the two lengths and the two texts. -/
def encodeEntry (key value : String) : Bytes :=
  toBeBytes (utf8 key).length ++
    toBeBytes (utf8 value).length ++ utf8 key ++ utf8 value

def encodeHeaders : Option Headers → Bytes
| none => toBeBytes 0
| some headers =>
    toBeBytes headers.entries.length ++
      headers.entries.flatMap
        (fun header => encodeEntry header.1 header.2)

def encode
    (subject : String) (headers : Option Headers)
    (payload : Bytes) : Bytes :=
  toBeBytes (utf8 subject).length ++
    toBeBytes (encodeHeaders headers).length ++
    utf8 subject ++ encodeHeaders headers ++ payload

end Wire

end Bus

end Qanat

------------------------------------------------------------
-- Decoding
------------------------------------------------------------

namespace Qanat

namespace Bus

namespace Wire

open ByteString

/- `None` is returned, or an operation would panic. -/
inductive Stop where
| rejected
| outOfRange
deriving DecidableEq, Repr

abbrev Decoded (α : Type) := Except Stop α

/- `checked_add(..)?`. -/
def checkedAdd (max a b : Nat) : Decoded Nat :=
  if a + b ≤ max then .ok (a + b) else .error .rejected

/- An addition that panics if it overflows. -/
def add (max a b : Nat) : Decoded Nat :=
  if a + b ≤ max then .ok (a + b) else .error .outOfRange

def index (buf : Bytes) (i : Nat) : Decoded UInt8 :=
  match buf[i]? with
  | some byte => .ok byte
  | none => .error .outOfRange

def slice (buf : Bytes) (start stop : Nat) : Decoded Bytes :=
  if start ≤ stop ∧ stop ≤ buf.length then
    .ok ((buf.drop start).take (stop - start))
  else
    .error .outOfRange

/- `from_utf8(..).ok()?`. -/
def fromUtf8OrStop (bytes : Bytes) : Decoded String :=
  match fromUtf8 bytes with
  | some text => .ok text
  | none => .error .rejected

/- `return None`, if the condition holds. -/
def rejectIf (condition : Prop) [Decidable condition] :
    Decoded Unit :=
  if condition then .error .rejected else .ok ()

/- `u32::from_be_bytes` of the four bytes at a position. -/
def readAt (max : Nat) (buf : Bytes) (start : Nat) :
    Decoded Nat := do
  let a ← index buf start
  let b ← index buf (← add max start 1)
  let c ← index buf (← add max start 2)
  let d ← index buf (← add max start 3)
  pure (fromBeBytes a b c d)

/- The body of the loop: one header and the next position. -/
def decodeEntry (max : Nat) (buf : Bytes) (cursor : Nat) :
    Decoded ((String × String) × Nat) := do
  let lengthsEnd ← checkedAdd max cursor 8
  rejectIf (buf.length < lengthsEnd)
  let keyLength ← readAt max buf cursor
  let valueLength ← readAt max buf (← add max cursor 4)
  let keyEnd ← checkedAdd max lengthsEnd keyLength
  let valueEnd ← checkedAdd max keyEnd valueLength
  rejectIf (buf.length < valueEnd)
  let key ← fromUtf8OrStop (← slice buf lengthsEnd keyEnd)
  let value ← fromUtf8OrStop (← slice buf keyEnd valueEnd)
  pure ((key, value), valueEnd)

/- The loop over the count of the headers. -/
def decodeEntries (max : Nat) (buf : Bytes) :
    Nat → Nat → Headers → Decoded (Nat × Headers)
| 0, cursor, headers => pure (cursor, headers)
| count + 1, cursor, headers => do
    let (header, next) ← decodeEntry max buf cursor
    decodeEntries max buf count next
      (headers.insert header.1 header.2)

def decodeHeaders (max : Nat) (buf : Bytes) :
    Decoded (Option Headers) := do
  rejectIf (buf.length < 4)
  let count ← readAt max buf 0
  if count = 0 then
    rejectIf (buf.length ≠ 4)
    pure none
  else
    rejectIf ((buf.length - 4) / 8 < count)
    let (cursor, headers) ← decodeEntries max buf count 4 ∅
    rejectIf (cursor ≠ buf.length)
    pure (some headers)

def decode (max : Nat) (buf : Bytes) :
    Decoded DecodedFrame := do
  rejectIf (buf.length < 8)
  let subjectLength ← readAt max buf 0
  let headersLength ← readAt max buf 4
  let headersStart ← checkedAdd max 8 subjectLength
  let payloadStart ← checkedAdd max headersStart headersLength
  rejectIf (buf.length < payloadStart)
  let subject ← fromUtf8OrStop (← slice buf 8 headersStart)
  let headers ←
    decodeHeaders max (← slice buf headersStart payloadStart)
  let payload ← slice buf payloadStart buf.length
  pure { subject, headers, payload }

end Wire

end Bus

end Qanat
