import Qanat.Library.Lists
import Qanat.Bus.MessageId
import Qanat.Router.Failures

/-
  How the arguments of a handler are extracted from a
  message, and handlers that depend only on what a message
  says: its value and its ordinary headers.

  A bus and a route may change the other headers, and a
  format may forget something of a value, which a relation
  on values stands for.

  Main declarations:
    * `FromRouteMessage`
    * `Letter`, `SameLetter`
    * `FromRouteMessage.DependsOn`
    * `TypedRouteHandler.Implements`
    * `TypedRouteHandler.implements_of_dependsOn`
-/

------------------------------------------------------------
-- Extractors
------------------------------------------------------------

namespace Qanat

namespace Router

open Bus (Envelope RawMessage brokerMessageFromRoute)

/- `from_message`. -/
abbrev FromRouteMessage (Value T : Type) :=
  RouteMessage → Decoder Value → Except BusError T

namespace FromRouteMessage

variable {Value S T : Type}

/- For a type that can be deserialized. -/
def deserialize
    (read : Value → Except String T) :
    FromRouteMessage Value T :=
  fun message decoder =>
    match decoder message with
    | .error error => .error error
    | .ok value =>
        match read value with
        | .error text => .error (.serialization text)
        | .ok result => .ok result

def routeMessage : FromRouteMessage Value RouteMessage :=
  fun message _ => .ok message

def routeHeaders : FromRouteMessage Value Headers :=
  fun message _ => .ok message.headers

/- `name` is the `NAME` of the type of the header. -/
def routeHeader
    (name : String) (fromHeader : String → Except BusError T) :
    FromRouteMessage Value T :=
  fun message _ =>
    match message.headers.lookup name with
    | none =>
        .error (.internal
          ("missing route header '" ++ name ++ "'"))
    | some value => fromHeader value

def routePayload : FromRouteMessage Value Bytes :=
  fun message _ => .ok message.payload

def brokerRawMessage : FromRouteMessage Value RawMessage :=
  fun message _ => .ok (brokerMessageFromRoute message)

def brokerEnvelope : FromRouteMessage Value Envelope :=
  fun message _ =>
    .ok (brokerMessageFromRoute message).envelope

/- Arguments are extracted one after the other. -/
def both
    (first : FromRouteMessage Value S)
    (second : FromRouteMessage Value T) :
    FromRouteMessage Value (S × T) :=
  fun message decoder =>
    match first message decoder with
    | .error error => .error error
    | .ok s =>
        match second message decoder with
        | .error error => .error error
        | .ok t => .ok (s, t)

end FromRouteMessage

end Router

end Qanat

------------------------------------------------------------
-- Letters
------------------------------------------------------------

namespace Qanat

namespace Router

variable {Value : Type}

/- What a message says. -/
structure Letter (Value : Type) where
  headers : Headers
  value : Value

/- No bus and no route changes the header by itself. -/
def Ordinary (name : String) : Prop :=
  Bus.IsMessageId name = false ∧
    Headers.IsContentType name = false ∧
    name ≠ replyToHeader ∧ name ≠ routeFailureHeader

def SameHeaders (headers headers' : Headers) : Prop :=
  ∀ name, Ordinary name →
    headers.lookup name = headers'.lookup name

theorem SameHeaders.trans
    {first second third : Headers}
    (h : SameHeaders first second)
    (h' : SameHeaders second third) :
    SameHeaders first third :=
  fun name hName => (h name hName).trans (h' name hName)

/- The one on the right has been on its way. -/
structure SameLetter
    (Same : Value → Value → Prop)
    (letter letter' : Letter Value) : Prop where
  headers : SameHeaders letter.headers letter'.headers
  value : Same letter.value letter'.value

theorem SameLetter.trans
    {Same : Value → Value → Prop} [IsTrans Value Same]
    {first second third : Letter Value}
    (h : SameLetter Same first second)
    (h' : SameLetter Same second third) :
    SameLetter Same first third where
  headers := h.headers.trans h'.headers
  value := IsTrans.trans _ _ _ h.value h'.value

end Router

end Qanat

------------------------------------------------------------
-- What Is Extracted
------------------------------------------------------------

namespace Qanat

namespace Router

namespace FromRouteMessage

variable {Value S T : Type}

/-
  What is extracted from a message that is read is what
  `read` says of its letter, up to the relation on results.
-/
def DependsOn
    (Same : Value → Value → Prop) (SameT : T → T → Prop)
    (extract : FromRouteMessage Value T)
    (read : Letter Value → Option T) : Prop :=
  ∀ message decoder value letter,
    decoder message = .ok value →
    SameLetter Same letter ⟨message.headers, value⟩ →
      Option.Rel SameT (read letter)
        (extract message decoder).toOption

variable {Same : Value → Value → Prop}

theorem toOption_deserialize
    (read : Value → Except String T)
    (message : RouteMessage) (decoder : Decoder Value) :
    (deserialize read message decoder).toOption =
      (decoder message).toOption.bind
        (fun value => (read value).toOption) := by
  unfold deserialize
  cases decoder message with
  | error error => rfl
  | ok value =>
      dsimp only [Except.toOption, Option.bind_some]
      cases read value <;> rfl

theorem toOption_routeHeader
    (name : String) (fromHeader : String → Except BusError T)
    (message : RouteMessage) (decoder : Decoder Value) :
    (routeHeader name fromHeader message decoder).toOption =
      (message.headers.lookup name).bind
        (fun text => (fromHeader text).toOption) := by
  unfold routeHeader
  cases message.headers.lookup name <;> rfl

theorem toOption_both
    (first : FromRouteMessage Value S)
    (second : FromRouteMessage Value T)
    (message : RouteMessage) (decoder : Decoder Value) :
    (both first second message decoder).toOption =
      (first message decoder).toOption.bind (fun s =>
        (second message decoder).toOption.bind (fun t =>
          some (s, t))) := by
  unfold both
  cases first message decoder with
  | error error => rfl
  | ok s => cases second message decoder <;> rfl

theorem deserialize_dependsOn
    {read : Value → Except String T}
    (hRead : ∀ value value', Same value value' →
      read value = read value') :
    DependsOn Same Eq (deserialize read)
      (fun letter => (read letter.value).toOption) := by
  intro message decoder value letter hDecode hSame
  rw [toOption_deserialize, hDecode]
  change Option.Rel Eq (read letter.value).toOption
    (read value).toOption
  rw [hRead _ _ hSame.value]
  exact Options.rel_refl (fun _ => rfl) _

theorem routeHeaders_dependsOn :
    DependsOn Same SameHeaders routeHeaders
      (fun letter => some letter.headers) :=
  fun _ _ _ _ _ hSame => .some hSame.headers

theorem routeHeader_dependsOn
    {name : String} (hName : Ordinary name)
    (fromHeader : String → Except BusError T) :
    DependsOn Same Eq (routeHeader name fromHeader)
      (fun letter =>
        (letter.headers.lookup name).bind
          (fun text => (fromHeader text).toOption)) := by
  intro message decoder value letter _ hSame
  have hLookup :
      letter.headers.lookup name =
        message.headers.lookup name :=
    hSame.headers name hName
  rw [toOption_routeHeader]
  dsimp only
  rw [hLookup]
  exact Options.rel_refl (fun _ => rfl) _

/- Arguments can be dealt with one by one. -/
theorem both_dependsOn
    {SameS : S → S → Prop} {SameT : T → T → Prop}
    {first : FromRouteMessage Value S}
    {second : FromRouteMessage Value T}
    {readFirst : Letter Value → Option S}
    {readSecond : Letter Value → Option T}
    (hFirst : DependsOn Same SameS first readFirst)
    (hSecond : DependsOn Same SameT second readSecond) :
    DependsOn Same
      (fun args args' =>
        SameS args.1 args'.1 ∧ SameT args.2 args'.2)
      (both first second)
      (fun letter =>
        (readFirst letter).bind (fun s =>
          (readSecond letter).bind (fun t =>
            some (s, t)))) := by
  intro message decoder value letter hDecode hSame
  rw [toOption_both]
  apply Options.rel_bind
    (hFirst message decoder value letter hDecode hSame)
  intro s s' hS
  apply Options.rel_bind
    (hSecond message decoder value letter hDecode hSame)
  intro t t' hT
  exact .some ⟨hS, hT⟩

end FromRouteMessage

end Router

end Qanat

------------------------------------------------------------
-- What Is Returned
------------------------------------------------------------

namespace Qanat

namespace Router

namespace TypedRouteHandler

variable {Value Args Output : Type}

/- What the function returns, with the headers it keeps. -/
def result
    (typed : TypedRouteHandler Value Args Output)
    (headers : Headers) (args : Args) :
    Option (Letter Value) :=
  match typed.apply args with
  | none => none
  | some (.error _) => none
  | some (.ok (replaced, output)) =>
      match typed.toValue output with
      | .error _ => none
      | .ok value => some ⟨replaced.getD headers, value⟩

/- What is to be encoded for a message, if anything is. -/
def returned
    (typed : TypedRouteHandler Value Args Output)
    (message : RouteMessage) (decoder : Decoder Value) :
    Option (Letter Value) :=
  (typed.extract message decoder).toOption.bind
    (typed.result message.headers)

/- A handler computes a function of letters. -/
def Implements
    (Same : Value → Value → Prop)
    (typed : TypedRouteHandler Value Args Output)
    (meaning : Letter Value → Option (Letter Value)) : Prop :=
  ∀ message decoder value letter,
    decoder message = .ok value →
    SameLetter Same letter ⟨message.headers, value⟩ →
      Option.Rel (SameLetter Same) (meaning letter)
        (typed.returned message decoder)

/-
  It does so if its arguments depend on letters only and its
  function does not tell apart what is the same.
-/
theorem implements_of_dependsOn
    {Same : Value → Value → Prop}
    {SameArgs : Args → Args → Prop}
    {typed : TypedRouteHandler Value Args Output}
    {read : Letter Value → Option Args}
    (hExtract :
      FromRouteMessage.DependsOn Same SameArgs typed.extract
        read)
    (hFunction : ∀ headers headers' args args',
      SameHeaders headers headers' → SameArgs args args' →
        Option.Rel (SameLetter Same)
          (typed.result headers args)
          (typed.result headers' args')) :
    typed.Implements Same
      (fun letter =>
        (read letter).bind (typed.result letter.headers)) := by
  intro message decoder value letter hDecode hSame
  unfold returned
  apply Options.rel_bind
    (hExtract message decoder value letter hDecode hSame)
  intro args args' hArgs
  exact hFunction _ _ _ _ hSame.headers hArgs

end TypedRouteHandler

end Router

end Qanat

------------------------------------------------------------
-- Deliveries
------------------------------------------------------------

namespace Qanat

namespace Router

open Transition

variable {Value Args Output : Type}

/- What a target is given to encode. -/
def Letter.onto
    (letter : Letter Value) (message : RouteMessage) :
    RouteMessage :=
  { message with
    headers := letter.headers.erase routeFailureHeader
    attempts := 0 }

theorem TypedRouteHandler.call_eq_ok_iff
    {typed : TypedRouteHandler Value Args Output}
    {message output : RouteMessage} {decoder : Decoder Value}
    {target : RouteTarget Value} :
    typed.call message decoder target = some (.ok output) ↔
      ∃ letter, typed.returned message decoder =
          some letter ∧
        target.encode letter.value (letter.onto message) =
          some (.ok output) := by
  constructor
  · intro hCall
    rcases TypedRouteHandler.call_eq_ok hCall with
      ⟨args, headers, result, hExtract, hApply, hEncoded⟩
    rcases encodeHandlerOutput_eq_ok hEncoded with
      ⟨value, hValue, hEncode⟩
    refine ⟨⟨headers.getD message.headers, value⟩, ?_, hEncode⟩
    unfold returned TypedRouteHandler.result
    rw [hExtract]
    dsimp only [Except.toOption, Option.bind_some]
    rw [hApply]
    dsimp only
    rw [hValue]
  · rintro ⟨letter, hReturned, hEncode⟩
    unfold returned TypedRouteHandler.result at hReturned
    cases hExtract : typed.extract message decoder with
    | error error =>
        rw [hExtract] at hReturned
        cases hReturned
    | ok args =>
        rw [hExtract] at hReturned
        dsimp only [Except.toOption, Option.bind_some]
          at hReturned
        split at hReturned
        · cases hReturned
        · cases hReturned
        · rename_i replaced result hApply
          split at hReturned
          · cases hReturned
          · rename_i value hValue
            cases hReturned
            have hEncode' :
                target.encode value
                    { message with
                      headers := (replaced.getD
                        message.headers).erase
                          routeFailureHeader
                      attempts := 0 } =
                  some (.ok output) := hEncode
            unfold TypedRouteHandler.call encodeHandlerOutput
            simp only [hExtract, hApply, hValue, hEncode']

end Router

end Qanat
