import Qanat.Bus.ExternalBus

/-
  The messages of a RabbitMQ bus as AMQP messages.

  Field tables and properties are carried as they are, so a
  table of texts is a map of headers again.  What AMQP keeps
  as a short string has 255 bytes at most.

  Main declarations:
    * `Properties`, `Published`
    * `headersToProperties`, `propertiesToHeaders`
    * `publishBytes`, `deliveryToRaw`
    * `headersToProperties_eq_some_iff`
    * `publishBytes_eq_some_iff`
-/

------------------------------------------------------------
-- Properties
------------------------------------------------------------

namespace Qanat

namespace Bus

namespace RabbitMq

/- The properties that the bus uses. -/
structure Properties where
  contentType : Option String
  messageId : Option String
  headers : Option Headers
deriving DecidableEq

/- Longer texts make the conversion unwind. -/
def shortString (text : String) : Option String :=
  if text.utf8ByteSize ≤ 255 then some text else none

/- The properties with a table, were all its texts short. -/
def tableProperties
    (first second : HeaderIteration) (headers : Headers) :
    Properties where
  contentType := Headers.contentType (first.order headers)
  messageId := messageIdFromHeaders (second.order headers)
  headers := some headers

/-
  `headers_to_properties`, which iterates three times.  The
  content type, the id and the names of the headers become
  short strings; their values are long ones.
-/
def headersToProperties
    (first second : HeaderIteration)
    (headers : Option Headers) : Option Properties :=
  match headers with
  | none =>
      some
        { contentType := none, messageId := none
          headers := none }
  | some headers => do
      let contentType ←
        (Headers.contentType (first.order headers)).mapM
          shortString
      let messageId ←
        (messageIdFromHeaders (second.order headers)).mapM
          shortString
      let _names ← (headers.entries.map Sigma.fst).mapM
        shortString
      some
        { contentType := contentType
          messageId := messageId
          headers := some headers }

/- The content type of the properties replaces the others. -/
def typedHeaders (properties : Properties) : Headers :=
  match properties.contentType with
  | some contentType =>
      Headers.setContentType
        (properties.headers.getD ∅) contentType
  | none => properties.headers.getD ∅

theorem typedHeaders_tableProperties
    (first second : HeaderIteration) (table : Headers) :
    typedHeaders (tableProperties first second table) =
      match Headers.contentType (first.order table) with
      | some contentType =>
          Headers.setContentType table contentType
      | none => table :=
  rfl

/- `properties_to_headers`. -/
def propertiesToHeaders (properties : Properties) :
    Option Headers :=
  let headers :=
    match properties.messageId with
    | some messageId =>
        (typedHeaders properties).insert messageIdHeader
          messageId
    | none => typedHeaders properties
  if headers.entries.isEmpty ∧ properties.headers.isNone then
    none
  else
    some headers

/- `ensure_inbound_message_id`: the id and the headers. -/
def ensureInboundMessageId
    (iteration : HeaderIteration) (fresh : String)
    (headers : Option Headers) : String × Option Headers :=
  match headers.bind (fun headers =>
      messageIdFromHeaders (iteration.order headers)) with
  | some messageId => (messageId, headers)
  | none =>
      (fresh,
        some ((headers.getD ∅).insert messageIdHeader fresh))

end RabbitMq

end Bus

end Qanat

------------------------------------------------------------
-- Messages
------------------------------------------------------------

namespace Qanat

namespace Bus

namespace RabbitMq

/- A message at the broker. -/
structure Published where
  routingKey : String
  properties : Properties
  data : Bytes
deriving DecidableEq

/-
  `publish_bytes`; `first` to `third` are the orders in which
  its map of headers is iterated.  The exchange has been
  declared under its name, which is a short string.
-/
def publishBytes
    (first second third : HeaderIteration) (fresh : String)
    (subject : String) (payload : Bytes)
    (headers : Option Headers) : Option Published := do
  let routingKey ← shortString subject
  let properties ←
    headersToProperties second third
      (some (ensureMessageId fresh
        (first.order (headers.getD ∅))).2)
  some
    { routingKey := routingKey
      properties := properties
      data := payload }

/- `delivery_to_raw`, for one delivery of a message. -/
def deliveryToRaw
    (iteration : HeaderIteration) (fresh : String)
    (published : Published) (redelivered : Bool)
    (id : UInt64) : RawMessage :=
  let identified :=
    ensureInboundMessageId iteration fresh
      (propertiesToHeaders published.properties)
  { envelope :=
      { subject := published.routingKey
        id := id
        messageId := identified.1
        headers := identified.2
        attempts := if redelivered then 1 else 0 }
    payload := published.data }

end RabbitMq

end Bus

end Qanat

------------------------------------------------------------
-- Short Strings
------------------------------------------------------------

namespace Qanat

namespace Bus

namespace RabbitMq

/- The texts of properties that are short strings. -/
structure Properties.Short (properties : Properties) :
    Prop where
  contentType : ∀ text ∈ properties.contentType,
    text.utf8ByteSize ≤ 255
  messageId : ∀ text ∈ properties.messageId,
    text.utf8ByteSize ≤ 255
  names : ∀ table ∈ properties.headers, ∀ name ∈ table,
    name.utf8ByteSize ≤ 255

theorem shortString_eq_some_iff {text short : String} :
    shortString text = some short ↔
      text.utf8ByteSize ≤ 255 ∧ short = text := by
  unfold shortString
  by_cases hShort : text.utf8ByteSize ≤ 255
  · simp [hShort, eq_comm]
  · simp [hShort]

theorem shortString_eq_none_iff {text : String} :
    shortString text = none ↔ 255 < text.utf8ByteSize := by
  unfold shortString
  by_cases hShort : text.utf8ByteSize ≤ 255
  · simp [hShort]
  · simp [hShort, Nat.lt_of_not_le hShort]

theorem mapM_shortString_eq_some_iff
    {text short : Option String} :
    text.mapM shortString = some short ↔
      (∀ value ∈ text, value.utf8ByteSize ≤ 255) ∧
        short = text := by
  cases text with
  | none => simp [eq_comm]
  | some text =>
      cases hText : shortString text with
      | none =>
          have hLong := shortString_eq_none_iff.mp hText
          simp [hText, Nat.not_le.mpr hLong]
      | some value =>
          rcases shortString_eq_some_iff.mp hText with
            ⟨hShort, rfl⟩
          simp [hText, hShort, eq_comm]

theorem exists_mapM_shortString_iff {names : List String} :
    (∃ shorts, names.mapM shortString = some shorts) ↔
      ∀ name ∈ names, name.utf8ByteSize ≤ 255 := by
  induction names with
  | nil => simp
  | cons name names ih =>
      rw [List.forall_mem_cons, ← ih, List.mapM_cons]
      cases hName : shortString name with
      | none =>
          have hLong := shortString_eq_none_iff.mp hName
          simp [Nat.not_le.mpr hLong]
      | some value =>
          have hShort := (shortString_eq_some_iff.mp hName).1
          simp [hShort, Option.bind_eq_some_iff]

theorem headersToProperties_eq_some_iff
    {first second : HeaderIteration} {table : Headers}
    {properties : Properties} :
    headersToProperties first second (some table) =
        some properties ↔
      properties = tableProperties first second table ∧
        properties.Short := by
  have hNames :
      (∃ names,
          (table.entries.map Sigma.fst).mapM shortString =
            some names) ↔
        ∀ name ∈ table, name.utf8ByteSize ≤ 255 :=
    exists_mapM_shortString_iff
  unfold headersToProperties
  simp only [Option.bind_eq_bind, Option.bind_eq_some_iff,
    mapM_shortString_eq_some_iff]
  constructor
  · rintro ⟨_, ⟨hType, rfl⟩, _, ⟨hId, rfl⟩, names, hTable,
      hSome⟩
    cases hSome
    refine ⟨rfl, hType, hId, ?_⟩
    rintro _ ⟨⟩
    exact hNames.mp ⟨names, hTable⟩
  · rintro ⟨rfl, hShort⟩
    rcases hNames.mpr (hShort.names table rfl) with
      ⟨names, hTable⟩
    exact ⟨_, ⟨hShort.contentType, rfl⟩, _,
      ⟨hShort.messageId, rfl⟩, names, hTable, rfl⟩

/- What is published, unless a text is too long. -/
theorem publishBytes_eq_some_iff
    {first second third : HeaderIteration}
    {fresh subject : String} {payload : Bytes}
    {headers : Option Headers} {published : Published} :
    publishBytes first second third fresh subject payload
        headers = some published ↔
      published =
          { routingKey := subject
            properties :=
              tableProperties second third
                (ensureMessageId fresh
                  (first.order (headers.getD ∅))).2
            data := payload } ∧
        subject.utf8ByteSize ≤ 255 ∧
        published.properties.Short := by
  unfold publishBytes
  simp only [Option.bind_eq_bind, Option.bind_eq_some_iff,
    shortString_eq_some_iff, headersToProperties_eq_some_iff]
  constructor
  · rintro ⟨_, ⟨hSubject, rfl⟩, _, ⟨rfl, hShort⟩, hSome⟩
    cases hSome
    exact ⟨rfl, hSubject, hShort⟩
  · rintro ⟨rfl, hSubject, hShort⟩
    exact ⟨_, ⟨hSubject, rfl⟩, _, ⟨rfl, hShort⟩, rfl⟩

end RabbitMq

end Bus

end Qanat
