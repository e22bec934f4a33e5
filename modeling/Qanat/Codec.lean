import Qanat.Headers

/-
  Codecs and their selection by content type.

  `Ser T` and `De T` are the implementations of `Serialize`
  and `Deserialize` for a type `T`, which a codec is free to
  use in its own way.

  Main declarations:
    * `Codec`, `matchesContentType`
    * `CodecCollection`, `HeaderAwareCodec`
    * `CodecCollection.eq_select`
    * `HeaderAwareCodec.withDefaultContentType`
-/

------------------------------------------------------------
-- Codecs
------------------------------------------------------------

namespace Qanat

structure Codec (Ser De : Type → Type) where
  encode : {T : Type} → Ser T → T → Except BusError Bytes
  decode : {T : Type} → De T → Bytes → Except BusError T
  contentType : String := "application/octet-stream"

/- `media_type`: the part before the parameters, trimmed. -/
def Codec.mediaType (value : String) : String :=
  String.ofList
    (Router.trim (value.toList.takeWhile (fun c => c ≠ ';')))

/- `matches_content_type`. -/
def matchesContentType (canonical incoming : String) : Bool :=
  Router.eqIgnoreAsciiCase canonical (Codec.mediaType incoming) ||
    (canonical = "application/msgpack" &&
      Router.eqIgnoreAsciiCase (Codec.mediaType incoming)
        "application/x-msgpack")

/- `unsupported`. -/
def unsupported (name : String) : BusError :=
  .serialization
    ("no codec registered for content type '" ++ name ++
      "' (check registration and Cargo features)")

end Qanat

------------------------------------------------------------
-- Collections
------------------------------------------------------------

namespace Qanat

/- The nested pairs of codecs, the outermost one first. -/
abbrev CodecCollection (Ser De : Type → Type) :=
  List (Codec Ser De)

namespace CodecCollection

variable {Ser De : Type → Type} {T : Type}

def contains
    (codecs : CodecCollection Ser De) (name : String) :
    Bool :=
  match codecs with
  | [] => false
  | codec :: rest =>
      matchesContentType codec.contentType name ||
        contains rest name

def encodeSelected
    (codecs : CodecCollection Ser De) (name : String)
    (ser : Ser T) (value : T) : Except BusError Bytes :=
  match codecs with
  | [] => .error (unsupported name)
  | codec :: rest =>
      if matchesContentType codec.contentType name then
        codec.encode ser value
      else
        encodeSelected rest name ser value

def decodeSelected
    (codecs : CodecCollection Ser De) (name : String)
    (de : De T) (bytes : Bytes) : Except BusError T :=
  match codecs with
  | [] => .error (unsupported name)
  | codec :: rest =>
      if matchesContentType codec.contentType name then
        codec.decode de bytes
      else
        decodeSelected rest name de bytes

def canonicalType
    (codecs : CodecCollection Ser De) (name : String) :
    Option String :=
  match codecs with
  | [] => none
  | codec :: rest =>
      if matchesContentType codec.contentType name then
        some codec.contentType
      else
        canonicalType rest name

/- The codec that a content type selects. -/
def select
    (codecs : CodecCollection Ser De) (name : String) :
    Option (Codec Ser De) :=
  codecs.find?
    (fun codec => matchesContentType codec.contentType name)

/- Going from codec to codec, up to the one that matches. -/
theorem eq_select
    {β : Type} {walk : CodecCollection Ser De → β}
    {stop : β} {use : Codec Ser De → β} {name : String}
    (hNil : walk [] = stop)
    (hCons : ∀ codec rest,
      walk (codec :: rest) =
        if matchesContentType codec.contentType name then
          use codec
        else
          walk rest)
    (codecs : CodecCollection Ser De) :
    walk codecs = (codecs.select name).elim stop use := by
  unfold select
  induction codecs with
  | nil => exact hNil
  | cons codec rest ih =>
      rw [hCons, List.find?_cons]
      cases matchesContentType codec.contentType name with
      | true => rfl
      | false => exact ih

theorem decodeSelected_eq_elim
    (name : String) (de : De T) (bytes : Bytes) :
    ∀ codecs : CodecCollection Ser De,
      codecs.decodeSelected name de bytes =
        (codecs.select name).elim
          (.error (unsupported name))
          (fun codec => codec.decode de bytes) :=
  eq_select rfl (fun _ _ => rfl)

theorem decodeSelected_eq
    (codecs : CodecCollection Ser De) (name : String)
    (de : De T) (bytes : Bytes) :
    codecs.decodeSelected name de bytes =
      match codecs.select name with
      | some codec => codec.decode de bytes
      | none => .error (unsupported name) := by
  rw [decodeSelected_eq_elim]
  cases codecs.select name <;> rfl

end CodecCollection

end Qanat

------------------------------------------------------------
-- The Formats of the Library
------------------------------------------------------------

namespace Qanat

/- The functions of a serialization library. -/
structure Format (Ser De : Type → Type) where
  toBytes : {T : Type} → Ser T → T → Except String Bytes
  ofBytes : {T : Type} → De T → Bytes → Except String T

variable {Ser De : Type → Type}

/- A codec of a format; its errors are kept as texts. -/
def Format.codec
    (format : Format Ser De) (contentType : String) :
    Codec Ser De where
  encode := fun ser value =>
    (format.toBytes ser value).mapError BusError.serialization
  decode := fun de bytes =>
    (format.ofBytes de bytes).mapError BusError.serialization
  contentType := contentType

def jsonCodec (format : Format Ser De) : Codec Ser De :=
  format.codec "application/json"

def cborCodec (format : Format Ser De) : Codec Ser De :=
  format.codec "application/cbor"

def msgPackCodec (format : Format Ser De) : Codec Ser De :=
  format.codec "application/msgpack"

/- The features of the crate that add formats. -/
structure Features where
  cbor : Bool
  msgpack : Bool

/- The formats of the library, whether enabled or not. -/
structure Formats (Ser De : Type → Type) where
  json : Format Ser De
  cbor : Format Ser De
  msgpack : Format Ser De

/- `BuiltinCodecs`: what is enabled, in front of JSON. -/
def builtinCodecs
    (features : Features) (formats : Formats Ser De) :
    CodecCollection Ser De :=
  let codecs := [jsonCodec formats.json]
  let codecs :=
    if features.cbor then cborCodec formats.cbor :: codecs
    else codecs
  if features.msgpack then
    msgPackCodec formats.msgpack :: codecs
  else
    codecs

end Qanat

------------------------------------------------------------
-- Selection by Headers
------------------------------------------------------------

namespace Qanat

/- Decoding is selected by the content type of a message. -/
structure HeaderAwareCodec (Ser De : Type → Type) where
  codecs : CodecCollection Ser De
  default : String

namespace HeaderAwareCodec

variable {Ser De : Type → Type} {T : Type}

def new (codec : Codec Ser De) : HeaderAwareCodec Ser De where
  codecs := [codec]
  default := codec.contentType

/- `HeaderAwareCodec::default`. -/
def ofDefault
    (features : Features) (formats : Formats Ser De) :
    HeaderAwareCodec Ser De where
  codecs := builtinCodecs features formats
  default := "application/json"

def register
    (codecs : HeaderAwareCodec Ser De)
    (codec : Codec Ser De) : HeaderAwareCodec Ser De where
  codecs := codec :: codecs.codecs
  default := codecs.default

def withDefaultContentType
    (codec : HeaderAwareCodec Ser De) (name : String) :
    Except BusError (HeaderAwareCodec Ser De) :=
  match codec.codecs.canonicalType name with
  | some contentType =>
      .ok { codec with default := contentType }
  | none => .error (unsupported name)

/- The `Codec` that it is itself. -/
def toCodec (codec : HeaderAwareCodec Ser De) :
    Codec Ser De where
  encode := codec.codecs.encodeSelected codec.default
  decode := codec.codecs.decodeSelected codec.default
  contentType := codec.default

def decodeWithContentType
    (codec : HeaderAwareCodec Ser De) (de : De T)
    (bytes : Bytes) (name : Option String) :
    Except BusError T :=
  codec.codecs.decodeSelected (name.getD codec.default) de
    bytes

end HeaderAwareCodec

end Qanat
