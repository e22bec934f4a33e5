import Mathlib.Data.String.Basic
import Qanat.Bus.Nats

/-
  What leaves through a byte-oriented bus that dispatches by
  default, and whether the header of the message id in it is
  the id of the message.

  The maps of headers are iterated in an order of their own
  in every call, and RabbitMQ ensures the id once more.

  Main declarations:
    * `Readings`, `DispatchingBus`, `Outgoing`
    * `DispatchingBus.outgoing`
    * `NoOtherId`, `onRabbitMq_identified_iff`
    * `DispatchingBus.identified_iff`
-/

------------------------------------------------------------
-- Buses
------------------------------------------------------------

namespace Qanat

namespace Bus

/-
  The orders in which one call iterates its map of headers,
  and the id that it makes up.
-/
structure Readings where
  first : HeaderIteration
  second : HeaderIteration
  third : HeaderIteration
  fresh : String

/-
  The buses that do not route for themselves what they send,
  with what they publish to; `external` is a bus from outside
  of the library.
-/
inductive DispatchingBus (Name Value : Type) where
| redis (server : Bytes → Dispatch)
| rabbitMq (broker : RabbitMq.Published → Dispatch)
| nats
    (library : Nats.HeaderSyntax Name Value)
    (client : Nats.Message Name Value → Except String Unit)
| external (bus : ExternalBus)

/- What is handed over to send a message. -/
inductive Outgoing (Name Value : Type) where
| framed
    (order : HeaderIteration) (subject : String)
    (payload : Bytes) (headers : Headers)
| published (message : RabbitMq.Published)
| given
    (library : Nats.HeaderSyntax Name Value)
    (message : Nats.Message Name Value)
| passed
    (subject : String) (payload : Bytes) (headers : Headers)

/- It has the header of the message id, with this value. -/
def Outgoing.Identified
    {Name Value : Type} (id : String) :
    Outgoing Name Value → Prop
| .framed _ _ _ headers =>
    headers.lookup messageIdHeader = some id
| .published message =>
    ∃ table, message.properties.headers = some table ∧
      table.lookup messageIdHeader = some id
| .given library message =>
    ∃ map, message.headers = some map ∧
      (messageIdHeader, id) ∈
        map.entries.map (Nats.headerText library)
| .passed _ _ headers =>
    headers.lookup messageIdHeader = some id

namespace DispatchingBus

variable {Name Value : Type} [DecidableEq Name]

/- `publish_bytes` of the buses, for one reading each. -/
def toExternalBus
    (bus : DispatchingBus Name Value) (readings : Readings) :
    ExternalBus :=
  match bus with
  | .redis server =>
      { publishBytes := fun subject payload headers =>
          server (Redis.publishBytes readings.first subject
            payload headers) }
  | .rabbitMq broker =>
      { supportsContentTypeHeaders := true
        publishBytes := fun subject payload headers =>
          match RabbitMq.publishBytes readings.first
              readings.second readings.third readings.fresh
              subject payload headers with
          | none => .unwound
          | some message => broker message }
  | .nats library client =>
      { supportsContentTypeHeaders := true
        publishBytes := fun subject payload headers =>
          match Nats.publishBytes library client
              readings.first subject payload headers with
          | .error error => .failed error
          | .ok () => .sent }
  | .external bus => bus

/- What `dispatch_raw` hands over, if it comes that far. -/
def outgoing
    (bus : DispatchingBus Name Value) (readings : Readings)
    (subject : String) (message : RawMessage) :
    Option (Outgoing Name Value) :=
  let headers := dispatchRawHeaders message
  match bus with
  | .redis _ =>
      some (.framed readings.first subject message.payload
        headers)
  | .rabbitMq _ =>
      (RabbitMq.publishBytes readings.first readings.second
        readings.third readings.fresh subject message.payload
        (some headers)).map .published
  | .nats library _ =>
      match Nats.toPublish library readings.first subject
          message.payload (some headers) with
      | .error _ => none
      | .ok given => some (.given library given)
  | .external _ =>
      some (.passed subject message.payload headers)

/- Without it, nothing is sent and no call returns well. -/
theorem unsent_of_outgoing_eq_none
    {bus : DispatchingBus Name Value} {readings : Readings}
    {subject : String} {message : RawMessage}
    (hNone :
      bus.outgoing readings subject message = none) :
    ((bus.toExternalBus readings).dispatchRaw subject
        message).carried = false ∧
      ((bus.toExternalBus readings).dispatchRaw subject
        message).result ≠ some (.ok ()) := by
  cases bus with
  | redis server => cases hNone
  | external bus => cases hNone
  | rabbitMq broker =>
      have hUnwound := Option.map_eq_none_iff.mp hNone
      unfold ExternalBus.dispatchRaw toExternalBus
      dsimp only
      rw [hUnwound]
      exact ⟨rfl, nofun⟩
  | nats library client =>
      unfold outgoing at hNone
      dsimp only at hNone
      split at hNone
      · rename_i hRefused
        unfold ExternalBus.dispatchRaw toExternalBus
          Nats.publishBytes
        dsimp only
        rw [hRefused]
        exact ⟨rfl, nofun⟩
      · cases hNone

end DispatchingBus

end Bus

end Qanat

------------------------------------------------------------
-- Spellings
------------------------------------------------------------

namespace Qanat

namespace Router

theorem utf8Size_toLower (c : Char) :
    c.toLower.utf8Size = c.utf8Size := by
  unfold Char.toLower
  by_cases hUpper : 65 ≤ c.val ∧ c.val ≤ 90
  · have hNumbers := hUpper
    rw [UInt32.le_iff_toNat_le, UInt32.le_iff_toNat_le]
      at hNumbers
    change 65 ≤ c.val.toNat ∧ c.val.toNat ≤ 90 at hNumbers
    have hSmall : c.val ≤ 127 := by
      rw [UInt32.le_iff_toNat_le]
      exact hNumbers.2.trans (by decide)
    have hLower : c.val + 32 ≤ 127 := by
      rw [UInt32.le_iff_toNat_le, UInt32.toNat_add]
      change (c.val.toNat + 32) % 4294967296 ≤ 127
      omega
    simp [hUpper, Char.utf8Size, hLower, hSmall]
  · simp [hUpper]

/- Another letter case takes as many bytes. -/
theorem utf8ByteSize_toAsciiLowercase (text : String) :
    (toAsciiLowercase text).utf8ByteSize =
      text.utf8ByteSize := by
  have hLetters : ∀ letters : List Char,
      (String.ofList
          (letters.map Char.toLower)).utf8ByteSize =
        (String.ofList letters).utf8ByteSize := by
    intro letters
    rw [String.utf8ByteSize_ofList,
      String.utf8ByteSize_ofList]
    induction letters with
    | nil => rfl
    | cons c letters ih =>
        rw [List.map_cons, String.utf8Len_cons,
          String.utf8Len_cons, ih, utf8Size_toLower]
  unfold toAsciiLowercase
  rw [hLetters, String.ofList_toList]

end Router

namespace Bus

theorem short_of_isMessageId
    {name : String} (hName : IsMessageId name = true) :
    name.utf8ByteSize ≤ 255 := by
  unfold IsMessageId Router.eqIgnoreAsciiCase at hName
  rw [decide_eq_true_iff] at hName
  have hSize := congrArg String.utf8ByteSize hName
  rw [Router.utf8ByteSize_toAsciiLowercase,
    Router.utf8ByteSize_toAsciiLowercase] at hSize
  rw [hSize]
  decide

end Bus

end Qanat

------------------------------------------------------------
-- RabbitMQ
------------------------------------------------------------

namespace Qanat

namespace Bus

/-
  No other spelling of the id has another value that AMQP
  can have in a short string.
-/
def NoOtherId (headers : Headers) (id : String) : Prop :=
  ∀ name value, name ≠ messageIdHeader →
    IsMessageId name = true →
    headers.lookup name = some value →
      value = id ∨ 255 < value.utf8ByteSize

theorem noOtherId_congr
    {headers headers' : Headers}
    (hLookup : ∀ name, IsMessageId name = true →
      headers.lookup name = headers'.lookup name)
    (id : String) :
    NoOtherId headers id ↔ NoOtherId headers' id := by
  unfold NoOtherId
  apply forall₂_congr
  intro name value
  apply forall_congr'
  intro _
  apply forall_congr'
  intro hName
  rw [hLookup name hName]

/- What RabbitMQ is given to publish, for one reading. -/
def publishedOn
    (readings : Readings) (subject : String)
    (message : RawMessage) : Option RabbitMq.Published :=
  RabbitMq.publishBytes readings.first readings.second
    readings.third readings.fresh subject message.payload
    (some (dispatchRawHeaders message))

theorem publishedOn_eq_some
    {readings : Readings} {subject : String}
    {message : RawMessage} {published : RabbitMq.Published}
    (hPublished :
      publishedOn readings subject message =
        some published) :
    published.properties =
        RabbitMq.tableProperties readings.second
          readings.third
          (sentTable readings.first readings.fresh
            message) ∧
      published.properties.Short ∧
      subject.utf8ByteSize ≤ 255 := by
  rcases RabbitMq.publishBytes_eq_some_iff.mp hPublished with
    ⟨rfl, hSubject, hShort⟩
  exact ⟨rfl, hShort, hSubject⟩

/- The id in the table is the one that has been ensured. -/
theorem lookup_sentTable
    (first : HeaderIteration) (fresh : String)
    (message : RawMessage) :
    (sentTable first fresh message).lookup messageIdHeader =
      some (ensureMessageId fresh
        (first.order (dispatchRawHeaders message))).1 :=
  lookup_ensureMessageId _ _

theorem identified_of_published
    {Name Value : Type} {readings : Readings}
    {subject : String} {message : RawMessage}
    {published : RabbitMq.Published}
    (hPublished :
      publishedOn readings subject message =
        some published)
    (id : String) :
    (Outgoing.published published :
        Outgoing Name Value).Identified id ↔
      (ensureMessageId readings.fresh
        (readings.first.order
          (dispatchRawHeaders message))).1 = id := by
  have hTable :
      published.properties.headers =
        some (sentTable readings.first readings.fresh
          message) := by
    rw [(publishedOn_eq_some hPublished).1]
    rfl
  change (∃ table, published.properties.headers = some table ∧
    table.lookup messageIdHeader = some id) ↔ _
  rw [hTable]
  simp [lookup_sentTable]

/- Which id is ensured, if one of the spellings comes first. -/
theorem ensureMessageId_first
    {headers : Headers} {name value : String}
    (hName : IsMessageId name = true)
    (hLookup : headers.lookup name = some value)
    (fresh : String) :
    (ensureMessageId fresh
        ((FiniteMap.Iteration.first name).order
          headers)).1 =
      if value = "" then fresh else value := by
  have hFound :
      messageIdFromHeaders
          ((FiniteMap.Iteration.first name).order headers) =
        (some value).filter (fun value => !value.isEmpty) := by
    rw [FiniteMap.Iteration.order_first hLookup]
    unfold messageIdFromHeaders
    rw [FiniteMap.find?_insert_of_pos hName]
    rfl
  unfold ensureMessageId
  rw [hFound]
  by_cases hEmpty : value = ""
  · rw [if_pos hEmpty, hEmpty]
    rfl
  · rw [if_neg hEmpty]
    simp [Option.filter, hEmpty]

/- One of the spellings comes first. -/
theorem exists_found_of_lookup
    (headers : Headers) {id : String}
    (hLookup : headers.lookup messageIdHeader = some id) :
    ∃ name value, IsMessageId name = true ∧
      headers.lookup name = some value ∧
      (value ≠ "" →
        messageIdFromHeaders headers = some value) := by
  cases hFirst : headers.entries.find?
      (fun header => IsMessageId header.1) with
  | none =>
      exact absurd isMessageId_canonical
        (List.find?_eq_none.mp hFirst _
          (AList.mem_lookup_iff.mp hLookup))
  | some header =>
      rcases FiniteMap.of_find?_eq_some hFirst with
        ⟨hName, hHeader⟩
      refine ⟨header.1, header.2, hName, hHeader, ?_⟩
      intro hValue
      unfold messageIdFromHeaders
      rw [hFirst]
      simp [Option.filter, hValue]

/- Any content type that is found is found in some order. -/
theorem exists_contentType_eq
    {table other : Headers}
    (hLookup : ∀ name, Headers.IsContentType name = true →
      table.lookup name = other.lookup name)
    (iteration : HeaderIteration) :
    ∃ second : HeaderIteration,
      Headers.contentType (second.order table) =
        Headers.contentType (iteration.order other) := by
  unfold Headers.contentType
  cases hFound : (iteration.order other).entries.find?
      (fun header => Headers.IsContentType header.1) with
  | some header =>
      rcases FiniteMap.of_find?_eq_some hFound with
        ⟨hType, hHeader⟩
      rw [iteration.lookup_order, ← hLookup _ hType]
        at hHeader
      refine ⟨FiniteMap.Iteration.first header.1, ?_⟩
      rw [FiniteMap.Iteration.order_first hHeader,
        FiniteMap.find?_insert_of_pos hType]
  | none =>
      refine ⟨iteration, ?_⟩
      rw [FiniteMap.find?_of_none]
      intro name hType
      rw [iteration.lookup_order, hLookup name hType,
        ← iteration.lookup_order, AList.lookup_eq_none]
      intro hMem
      rcases Option.isSome_iff_exists.mp
          (AList.lookup_isSome.mpr hMem) with
        ⟨value, hValue⟩
      exact List.find?_eq_none.mp hFound _
        (AList.mem_lookup_iff.mp hValue) hType

/-
  Where something is published, it can be published with any
  id that is ensured and is short.
-/
theorem exists_publishedOn
    {subject : String} {message : RawMessage}
    (hLeaves : ∃ readings published,
      publishedOn readings subject message = some published)
    (first : HeaderIteration) (fresh : String)
    (hId :
      (ensureMessageId fresh
        (first.order (dispatchRawHeaders message))).1 ≠ "")
    (hShortId :
      (ensureMessageId fresh
        (first.order
          (dispatchRawHeaders message))).1.utf8ByteSize ≤
        255) :
    ∃ second third published,
      publishedOn ⟨first, second, third, fresh⟩ subject
        message = some published := by
  rcases hLeaves with ⟨readings, published, hPublished⟩
  rcases publishedOn_eq_some hPublished with
    ⟨hProperties, hShort, hSubject⟩
  rw [hProperties] at hShort
  have hOther : ∀ name, IsMessageId name = false →
      (sentTable first fresh message).lookup name =
        (sentTable readings.first readings.fresh
          message).lookup name := by
    intro name hName
    unfold sentTable
    rw [lookup_ensureMessageId_of_not hName,
      lookup_ensureMessageId_of_not hName,
      FiniteMap.Iteration.lookup_order,
      FiniteMap.Iteration.lookup_order]
  have hNames : ∀ name ∈ sentTable first fresh message,
      name.utf8ByteSize ≤ 255 := by
    intro name hMem
    cases hName : IsMessageId name with
    | true => exact short_of_isMessageId hName
    | false =>
        apply hShort.names _ rfl
        rwa [← AList.lookup_isSome, ← hOther name hName,
          AList.lookup_isSome]
  rcases exists_contentType_eq
      (fun name hType =>
        hOther name (isMessageId_of_isContentType hType))
      readings.second with ⟨second, hSecond⟩
  refine ⟨second, FiniteMap.Iteration.first messageIdHeader,
    _, RabbitMq.publishBytes_eq_some_iff.mpr
      ⟨rfl, hSubject, ?_, ?_, ?_⟩⟩
  · intro text hText
    exact hShort.contentType text
      (hSecond.symm.trans hText)
  · intro text hText
    have hFound :=
      messageIdFromHeaders_first
        (lookup_sentTable first fresh message) hId
    have hSame := hFound.symm.trans hText
    rw [← Option.some.inj hSame]
    exact hShortId
  · rintro _ ⟨⟩
    exact hNames

/-
  On RabbitMQ, the id is that of the message, in every order
  of iteration, exactly if it is not empty and no other
  spelling of its name has another value.
-/
theorem onRabbitMq_identified_iff
    {Name Value : Type} {subject : String}
    {message : RawMessage}
    (hLeaves : ∃ readings published,
      publishedOn readings subject message =
        some published) :
    (∀ readings published,
      publishedOn readings subject message =
          some published →
        (Outgoing.published published :
          Outgoing Name Value).Identified
            message.envelope.messageId) ↔
      message.envelope.messageId ≠ "" ∧
        NoOtherId message.headers
          message.envelope.messageId := by
  have hOwn :
      (dispatchRawHeaders message).lookup messageIdHeader =
        some message.envelope.messageId :=
    AList.lookup_insert _
  constructor
  · intro hAll
    -- an id that some reading ensures is the message's own
    have hEnsured : ∀ name value fresh,
        IsMessageId name = true →
        (dispatchRawHeaders message).lookup name =
          some value →
        (if value = "" then fresh else value) ≠ "" →
        (if value = "" then
          fresh else value).utf8ByteSize ≤ 255 →
        (if value = "" then fresh else value) =
          message.envelope.messageId := by
      intro name value fresh hName hLookup hId hShort
      have hFirst :=
        ensureMessageId_first hName hLookup fresh
      rw [← hFirst] at hId hShort ⊢
      rcases exists_publishedOn hLeaves _ fresh hId hShort
        with ⟨second, third, published, hPublished⟩
      exact (identified_of_published hPublished _).mp
        (hAll _ _ hPublished)
    have hId : message.envelope.messageId ≠ "" := by
      intro hEmpty
      have hFresh := hEnsured messageIdHeader _ "x"
        isMessageId_canonical hOwn
      rw [if_pos hEmpty] at hFresh
      exact absurd
        ((hFresh (by decide) (by decide)).trans hEmpty)
        (by decide)
    refine ⟨hId, ?_⟩
    intro name value hOther hName hLookup
    rw [← lookup_dispatchRawHeaders message hOther]
      at hLookup
    by_cases hEmpty : value = ""
    · -- two fresh ids cannot both be that of the message
      subst hEmpty
      have hFresh := fun fresh =>
        hEnsured name "" fresh hName hLookup
      have hX := hFresh "x" (by decide) (by decide)
      have hY := hFresh "y" (by decide) (by decide)
      exact absurd (hX.trans hY.symm) (by decide)
    · by_cases hShort : value.utf8ByteSize ≤ 255
      · have hSame := hEnsured name value "" hName hLookup
        rw [if_neg hEmpty] at hSame
        exact Or.inl (hSame hEmpty hShort)
      · exact Or.inr (Nat.lt_of_not_le hShort)
  · rintro ⟨hId, hOther⟩ readings published hPublished
    rw [identified_of_published hPublished]
    rcases exists_found_of_lookup (readings.first.order
        (dispatchRawHeaders message))
        ((readings.first.lookup_order _ _).trans hOwn) with
      ⟨name, value, hName, hLookup, hFound⟩
    rw [readings.first.lookup_order] at hLookup
    have hValue :
        value = message.envelope.messageId ∨
          255 < value.utf8ByteSize := by
      by_cases hSame : name = messageIdHeader
      · rw [hSame, hOwn, Option.some.injEq] at hLookup
        exact Or.inl hLookup.symm
      · rw [lookup_dispatchRawHeaders message hSame]
          at hLookup
        exact hOther name value hSame hName hLookup
    have hNonempty : value ≠ "" := by
      rintro rfl
      rcases hValue with hSame | hLong
      · exact hId hSame.symm
      · exact absurd hLong (by decide)
    have hEnsured := hFound hNonempty
    have hFirst :
        (ensureMessageId readings.fresh
          (readings.first.order
            (dispatchRawHeaders message))).1 = value := by
      unfold ensureMessageId
      rw [hEnsured]
    rcases hValue with hSame | hLong
    · exact hFirst.trans hSame
    · -- such an id unwinds the publish
      rcases publishedOn_eq_some hPublished with
        ⟨hProperties, hShort, _⟩
      have hIdentifies :=
        identifies_ensureMessageId readings.fresh hEnsured
      have hProperty :
          published.properties.messageId = some value := by
        rw [hProperties]
        exact (hIdentifies.congr
          (readings.third.lookup_order _)).found
      exact absurd (hShort.messageId value hProperty)
        (Nat.not_le.mpr hLong)

end Bus

end Qanat

------------------------------------------------------------
-- All Buses
------------------------------------------------------------

namespace Qanat

namespace Bus

variable {Name Value : Type} [DecidableEq Name]

/- A NATS client that is given the headers has them all. -/
theorem identified_of_toPublish
    {library : Nats.HeaderSyntax Name Value}
    (hVerbatim : library.Verbatim)
    {order : HeaderIteration} {subject : String}
    {message : RawMessage} {given : Nats.Message Name Value}
    (hGiven :
      Nats.toPublish library order subject message.payload
          (some (dispatchRawHeaders message)) =
        .ok given) :
    (Outgoing.given library given).Identified
      message.envelope.messageId := by
  unfold Nats.toPublish at hGiven
  cases hMap : Nats.headersToNats library order
      (dispatchRawHeaders message) with
  | error error =>
      simp only [hMap] at hGiven
      cases hGiven
  | ok map =>
      simp only [hMap] at hGiven
      cases hGiven
      refine ⟨map, rfl, ?_⟩
      have hTexts :=
        Nats.headerText_foldlM hVerbatim []
          (order.order (dispatchRawHeaders message)).nodupKeys
          (List.Perm.refl _) hMap
      have hOwn :
          (order.order (dispatchRawHeaders message)).lookup
              messageIdHeader =
            some message.envelope.messageId :=
        (order.lookup_order _ _).trans (AList.lookup_insert _)
      apply hTexts.mem_iff.mpr
      exact List.mem_map_of_mem (AList.mem_lookup_iff.mp hOwn)

namespace DispatchingBus

/- A NATS library displays what it has parsed. -/
def Verbatim (bus : DispatchingBus Name Value) : Prop :=
  match bus with
  | .nats library _ => library.Verbatim
  | _ => True

/- Headers with which a message leaves under its own id. -/
def KeepsId
    (bus : DispatchingBus Name Value) (headers : Headers)
    (id : String) : Prop :=
  match bus with
  | .rabbitMq _ => id ≠ "" ∧ NoOtherId headers id
  | _ => True

omit [DecidableEq Name] in
theorem keepsId_congr
    (bus : DispatchingBus Name Value)
    {headers headers' : Headers}
    (hLookup : ∀ name, IsMessageId name = true →
      headers.lookup name = headers'.lookup name)
    (id : String) :
    bus.KeepsId headers id ↔ bus.KeepsId headers' id := by
  cases bus with
  | rabbitMq broker =>
      exact and_congr_right
        (fun _ => noOtherId_congr hLookup id)
  | redis server => exact Iff.rfl
  | nats library client => exact Iff.rfl
  | external bus => exact Iff.rfl

/-
  Whatever order the headers are read in, what leaves for a
  message is identified by its id exactly if the bus keeps
  the id with the headers of the message.
-/
theorem identified_iff
    {bus : DispatchingBus Name Value}
    (hVerbatim : bus.Verbatim)
    {subject : String} {message : RawMessage}
    (hLeaves : ∃ readings out,
      bus.outgoing readings subject message = some out) :
    (∀ readings out,
      bus.outgoing readings subject message = some out →
        out.Identified message.envelope.messageId) ↔
      bus.KeepsId message.headers
        message.envelope.messageId := by
  have hOwn :
      (dispatchRawHeaders message).lookup messageIdHeader =
        some message.envelope.messageId :=
    AList.lookup_insert _
  cases bus with
  | redis server =>
      refine iff_of_true ?_ trivial
      rintro readings _ ⟨⟩
      exact hOwn
  | external bus =>
      refine iff_of_true ?_ trivial
      rintro readings _ ⟨⟩
      exact hOwn
  | nats library client =>
      refine iff_of_true ?_ trivial
      intro readings out hOut
      unfold outgoing at hOut
      dsimp only at hOut
      split at hOut
      · cases hOut
      · rename_i hGiven
        cases hOut
        exact identified_of_toPublish hVerbatim hGiven
  | rabbitMq broker =>
      have hOutgoing : ∀ readings out,
          (rabbitMq broker :
              DispatchingBus Name Value).outgoing readings
            subject message = some out ↔
            ∃ published,
              publishedOn readings subject message =
                  some published ∧
                Outgoing.published published = out :=
        fun readings out => Option.map_eq_some_iff
      have hPublished : ∃ readings published,
          publishedOn readings subject message =
            some published := by
        rcases hLeaves with ⟨readings, out, hOut⟩
        rcases (hOutgoing readings out).mp hOut with
          ⟨published, hPublished, _⟩
        exact ⟨readings, published, hPublished⟩
      refine Iff.trans ?_
        (@onRabbitMq_identified_iff Name Value _ _ hPublished)
      constructor
      · intro hAll readings published hSome
        exact hAll readings _
          ((hOutgoing readings _).mpr ⟨_, hSome, rfl⟩)
      · intro hAll readings out hOut
        rcases (hOutgoing readings out).mp hOut with
          ⟨published, hSome, rfl⟩
        exact hAll readings published hSome

end DispatchingBus

end Bus

end Qanat
