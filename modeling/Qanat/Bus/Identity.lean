import Qanat.Bus.RabbitMq.Properties
import Qanat.Bus.Redis

/-
  The identity of a message that is sent through a bus.

  A hop keeps the id of a message and its other headers in
  every order of iteration exactly if no header differs from
  that of the id in its letter case only.  The dispatch over
  AMQP unwinds on long ids, names, types and subjects.

  Main declarations:
    * `ArrivesAs`, `SurvivesRabbitMq`, `SurvivesRedis`
    * `ShortOnRabbitMq`, `exists_publishBytes_iff`
    * `survivesRabbitMq_iff`, `isFramedOnRedis_iff`
    * `identity_survives_iff`
-/

------------------------------------------------------------
-- Hops
------------------------------------------------------------

namespace Qanat

namespace Bus

/- The headers under new names. -/
def renamed
    (rename : String → String) (headers : Headers) :
    List (String × String) :=
  headers.entries.map
    (fun header => (rename header.1, header.2))

/- The headers beside the id, under new names. -/
def otherHeaders
    (rename : String → String) (headers : Headers) :
    List (String × String) :=
  renamed rename (headers.erase messageIdHeader)

/- The receiver has the id and, renamed, the other headers. -/
def ArrivesAs
    (rename : String → String) (sent received : RawMessage) :
    Prop :=
  received.envelope.messageId = sent.envelope.messageId ∧
    ∃ headers, received.envelope.headers = some headers ∧
      headers.lookup messageIdHeader =
        some sent.envelope.messageId ∧
      (otherHeaders (fun name => name) headers).Perm
        (otherHeaders rename sent.headers)

/- A content type gets the name that a bus knows. -/
def canonicalName (name : String) : String :=
  if Headers.IsContentType name then "content-type" else name

/-
  The message that is dispatched is published and arrives in
  every delivery, in all orders of iteration and with all
  fresh ids.
-/
def SurvivesRabbitMq
    (subject : String) (message : RawMessage) : Prop :=
  ∀ first second third fresh iteration fresh' redelivered id,
    ∃ published,
      RabbitMq.publishBytes first second third fresh subject
          message.payload (some (dispatchRawHeaders message)) =
        some published ∧
      ArrivesAs canonicalName message
        (RabbitMq.deliveryToRaw iteration fresh' published
          redelivered id)

/- What AMQP keeps in short strings is short enough. -/
structure ShortOnRabbitMq
    (subject : String) (message : RawMessage) : Prop where
  subject : subject.utf8ByteSize ≤ 255
  messageId : message.envelope.messageId.utf8ByteSize ≤ 255
  names : ∀ name ∈ message.headers, name.utf8ByteSize ≤ 255
  contentType : ∀ name value,
    Headers.IsContentType name = true →
    message.headers.lookup name = some value →
      value.utf8ByteSize ≤ 255

/-
  The same for every receiver of the frame.  Its lengths may
  have overflowed, so that it need not be the same message.
-/
def SurvivesRedis
    (subject : String) (message : RawMessage) : Prop :=
  ∀ order iteration fresh id,
    ∃ received,
      Redis.receive iteration fresh id
          (Redis.publishBytes order subject message.payload
            (some (dispatchRawHeaders message))) =
        some received ∧
      ArrivesAs (fun name => name) message received

/- The frame is received with its subject and its payload. -/
def IsFramedOnRedis
    (subject : String) (message : RawMessage) : Prop :=
  ∀ order iteration fresh id,
    ∃ received,
      Redis.receive iteration fresh id
          (Redis.publishBytes order subject message.payload
            (some (dispatchRawHeaders message))) =
        some received ∧
      received.envelope.subject = subject ∧
      received.payload = message.payload

/- There is one name of a content type at most. -/
def OneContentType (headers : Headers) : Prop :=
  ∀ name name', Headers.IsContentType name = true →
    Headers.IsContentType name' = true →
    name ∈ headers → name' ∈ headers → name = name'

end Bus

end Qanat

------------------------------------------------------------
-- Other Headers
------------------------------------------------------------

namespace Qanat

namespace Bus

theorem lookup_erase_messageId
    (headers : Headers) (name : String) :
    (headers.erase messageIdHeader).lookup name =
      if name = messageIdHeader then none
      else headers.lookup name := by
  by_cases hName : name = messageIdHeader
  · rw [if_pos hName, hName, AList.lookup_erase]
  · rw [if_neg hName, AList.lookup_erase_ne hName]

theorem lookup_dispatchRawHeaders
    (message : RawMessage) {name : String}
    (hName : name ≠ messageIdHeader) :
    (dispatchRawHeaders message).lookup name =
      message.headers.lookup name :=
  AList.lookup_insert_ne hName

theorem otherHeaders_perm
    (rename : String → String) {headers headers' : Headers}
    (hLookup : ∀ name, name ≠ messageIdHeader →
      headers.lookup name = headers'.lookup name) :
    (otherHeaders rename headers).Perm
      (otherHeaders rename headers') := by
  apply List.Perm.map
  apply FiniteMap.perm_of_lookup
  intro name
  rw [lookup_erase_messageId, lookup_erase_messageId]
  split
  · rfl
  · rename_i hName
    exact hLookup name hName

theorem mem_otherHeaders
    (rename : String → String) {headers : Headers}
    {name : String}
    (hName : name ≠ messageIdHeader) (hMem : name ∈ headers) :
    ∃ value,
      (rename name, value) ∈ otherHeaders rename headers := by
  rcases Option.isSome_iff_exists.mp
      (AList.lookup_isSome.mpr hMem) with ⟨value, hLookup⟩
  refine ⟨value, List.mem_map.mpr ⟨⟨name, value⟩, ?_, rfl⟩⟩
  rw [← AList.mem_lookup_iff, lookup_erase_messageId,
    if_neg hName, hLookup]
  exact rfl

/- A name that arrives is one of the headers. -/
theorem lookup_of_mem_otherHeaders
    {headers : Headers} {name value : String}
    (hMem :
      (name, value) ∈
        otherHeaders (fun name => name) headers) :
    name ≠ messageIdHeader ∧
      headers.lookup name = some value := by
  rcases List.mem_map.mp hMem with
    ⟨⟨name', value'⟩, hEntry, hSame⟩
  cases hSame
  have hLookup := AList.mem_lookup_iff.mpr hEntry
  rw [lookup_erase_messageId] at hLookup
  split at hLookup
  · cases hLookup
  · rename_i hName
    exact ⟨hName, hLookup⟩

/- Where names are kept, they are not repeated. -/
theorem nodup_otherHeaders (headers : Headers) :
    ((otherHeaders (fun name => name) headers).map
      Prod.fst).Nodup := by
  unfold otherHeaders renamed
  rw [List.map_map]
  exact (headers.erase messageIdHeader).nodupKeys

end Bus

end Qanat

------------------------------------------------------------
-- One Content Type
------------------------------------------------------------

namespace Qanat

namespace Bus

theorem ne_messageIdHeader
    {name : String}
    (hType : Headers.IsContentType name = true) :
    name ≠ messageIdHeader := by
  rintro rfl
  rw [isContentType_of_isMessageId isMessageId_canonical]
    at hType
  cases hType

/- Without a content type no name is changed. -/
theorem renamed_of_untyped
    {headers : Headers}
    (hUntyped : ∀ name ∈ headers,
      Headers.IsContentType name = false) :
    renamed canonicalName headers =
      renamed (fun name => name) headers := by
  unfold renamed
  apply List.map_congr_left
  rintro ⟨name, value⟩ hMem
  have hName : name ∈ headers := by
    rw [← AList.lookup_isSome, AList.mem_lookup_iff.mpr hMem]
    rfl
  simp [canonicalName, hUntyped name hName]

/- The headers without the id and the content types. -/
def plainHeaders (headers : Headers) : Headers :=
  FiniteMap.retain (fun name => !Headers.IsContentType name)
    (headers.erase messageIdHeader)

theorem lookup_plainHeaders
    (headers : Headers) (name : String) :
    (plainHeaders headers).lookup name =
      if name = messageIdHeader ∨
          Headers.IsContentType name = true then none
      else headers.lookup name := by
  unfold plainHeaders
  rw [FiniteMap.lookup_retain, lookup_erase_messageId]
  cases Headers.IsContentType name with
  | true => simp
  | false => simp

/- There is one content type beside the plain headers. -/
theorem otherHeaders_of_typed
    {headers : Headers} {name value : String}
    (hName : Headers.IsContentType name = true)
    (hLookup : headers.lookup name = some value)
    (hUnique : ∀ other, other ≠ name →
      Headers.IsContentType other = true →
        headers.lookup other = none)
    (rename : String → String) :
    (otherHeaders rename headers).Perm
      ((rename name, value) ::
        renamed rename (plainHeaders headers)) := by
  have hAbsent : name ∉ plainHeaders headers := by
    rw [← AList.lookup_eq_none, lookup_plainHeaders,
      if_pos (Or.inr hName)]
  have hInserted :
      (headers.erase messageIdHeader).entries.Perm
        ((plainHeaders headers).insert name value).entries := by
    apply FiniteMap.perm_insert
    · rw [lookup_erase_messageId,
        if_neg (ne_messageIdHeader hName), hLookup]
    · intro other hSame
      rw [lookup_erase_messageId, lookup_plainHeaders]
      cases hType : Headers.IsContentType other with
      | true => simp [hUnique other hSame hType]
      | false => simp
  rw [AList.entries_insert_of_notMem hAbsent] at hInserted
  exact hInserted.map _

/- The headers with one content type under its new name. -/
theorem otherHeaders_of_retyped
    {headers typed : Headers} {name value : String}
    (hName : Headers.IsContentType name = true)
    (hLookup : headers.lookup name = some value)
    (hUnique : ∀ other, other ≠ name →
      Headers.IsContentType other = true →
        headers.lookup other = none)
    (hCanonical :
      typed.lookup "content-type" = some value)
    (hNone : ∀ other, other ≠ "content-type" →
      Headers.IsContentType other = true →
        typed.lookup other = none)
    (hOther : ∀ other, other ≠ messageIdHeader →
      Headers.IsContentType other = false →
        typed.lookup other = headers.lookup other) :
    (otherHeaders (fun name => name) typed).Perm
      (otherHeaders canonicalName headers) := by
  have hPlain :
      (plainHeaders typed).entries.Perm
        (plainHeaders headers).entries := by
    apply FiniteMap.perm_of_lookup
    intro other
    rw [lookup_plainHeaders, lookup_plainHeaders]
    split
    · rfl
    · rename_i hApart
      rw [not_or, Bool.not_eq_true] at hApart
      exact hOther other hApart.1 hApart.2
  have hUntyped :
      renamed canonicalName (plainHeaders headers) =
        renamed (fun name => name)
          (plainHeaders headers) := by
    apply renamed_of_untyped
    intro other hMem
    have hKept := (FiniteMap.mem_retain.mp hMem).1
    simpa using hKept
  have hRenamed : canonicalName name = "content-type" :=
    if_pos hName
  calc otherHeaders (fun name => name) typed
    _ |>.Perm (("content-type", value) ::
        renamed (fun name => name) (plainHeaders typed)) :=
      otherHeaders_of_typed Headers.isContentType_canonical
        hCanonical hNone _
    _ |>.Perm (("content-type", value) ::
        renamed (fun name => name) (plainHeaders headers)) :=
      (hPlain.map _).cons _
    _ = (canonicalName name, value) ::
        renamed canonicalName (plainHeaders headers) := by
      rw [hUntyped, hRenamed]
    _ |>.Perm (otherHeaders canonicalName headers) :=
      (otherHeaders_of_typed hName hLookup hUnique _).symm

end Bus

end Qanat

------------------------------------------------------------
-- RabbitMQ
------------------------------------------------------------

namespace Qanat

namespace Bus

open RabbitMq (Properties)

/- Only the names of content types are changed. -/
theorem lookup_typedHeaders
    {name : String}
    (hName : Headers.IsContentType name = false)
    (second third : HeaderIteration) (table : Headers) :
    (RabbitMq.typedHeaders
        (RabbitMq.tableProperties second third
          table)).lookup name =
      table.lookup name := by
  rw [RabbitMq.typedHeaders_tableProperties]
  split
  · exact Headers.lookup_setContentType hName
  · rfl

theorem identifies_typedHeaders
    {table : Headers} {id : String}
    (hIdentifies : Identifies table id)
    (second third : HeaderIteration) :
    Identifies
      (RabbitMq.typedHeaders
        (RabbitMq.tableProperties second third table)) id where
  nonempty := hIdentifies.nonempty
  lookup := by
    rw [lookup_typedHeaders (by decide), hIdentifies.lookup]
  canonical := by
    intro name hName hVariant
    rw [lookup_typedHeaders
        (isContentType_of_isMessageId hVariant),
      hIdentifies.canonical name hName hVariant]

/- What is received for a table that identifies a message. -/
theorem deliveryToRaw_of_identifies
    {published : RabbitMq.Published}
    {second third : HeaderIteration} {table : Headers}
    {id : String}
    (hProperties :
      published.properties =
        RabbitMq.tableProperties second third table)
    (hIdentifies : Identifies table id)
    (iteration : HeaderIteration) (fresh : String)
    (redelivered : Bool) (number : UInt64) :
    (RabbitMq.deliveryToRaw iteration fresh published
        redelivered number).envelope.messageId = id ∧
      (RabbitMq.deliveryToRaw iteration fresh published
          redelivered number).envelope.headers =
        some
          ((RabbitMq.typedHeaders
            (RabbitMq.tableProperties second third
              table)).insert messageIdHeader id) := by
  have hMessageId :=
    (hIdentifies.congr (third.lookup_order table)).found
  have hHeaders :
      RabbitMq.propertiesToHeaders
          (RabbitMq.tableProperties second third table) =
        some ((RabbitMq.typedHeaders
          (RabbitMq.tableProperties second third
            table)).insert messageIdHeader id) := by
    unfold RabbitMq.propertiesToHeaders
    rw [show (RabbitMq.tableProperties second third
      table).messageId = some id from hMessageId]
    exact if_neg (by simp [RabbitMq.tableProperties])
  have hTyped :=
    identifies_typedHeaders hIdentifies second third
  have hFound :=
    ((hTyped.canonical.identifies_insert
      hTyped.nonempty).congr
        (iteration.lookup_order _)).found
  unfold RabbitMq.deliveryToRaw
    RabbitMq.ensureInboundMessageId
  rw [hProperties, hHeaders, Option.bind_some, hFound]
  exact ⟨rfl, rfl⟩

/- The content type that is found, if there is one at most. -/
theorem contentType_of_one
    {headers : Headers} (hOne : OneContentType headers)
    (iteration : HeaderIteration) :
    (∃ name value, Headers.IsContentType name = true ∧
        headers.lookup name = some value ∧
        (∀ other, other ≠ name →
          Headers.IsContentType other = true →
            headers.lookup other = none) ∧
        Headers.contentType (iteration.order headers) =
          some value) ∨
      ((∀ name, Headers.IsContentType name = true →
          headers.lookup name = none) ∧
        Headers.contentType (iteration.order headers) =
          none) := by
  by_cases hTyped : ∃ name,
      Headers.IsContentType name = true ∧ name ∈ headers
  · rcases hTyped with ⟨name, hName, hMem⟩
    rcases Option.isSome_iff_exists.mp
        (AList.lookup_isSome.mpr hMem) with ⟨value, hLookup⟩
    have hUnique : ∀ other, other ≠ name →
        Headers.IsContentType other = true →
          headers.lookup other = none := by
      intro other hNe hType
      rw [AList.lookup_eq_none]
      intro hOther
      exact hNe (hOne other name hType hName hOther hMem)
    refine Or.inl ⟨name, value, hName, hLookup, hUnique, ?_⟩
    have hOrdered :
        (iteration.order headers).lookup name = some value := by
      rw [iteration.lookup_order, hLookup]
    unfold Headers.contentType
    rw [FiniteMap.find?_of_only hOrdered hName]
    · rfl
    · intro other hNe hType
      rw [iteration.lookup_order, hUnique other hNe hType]
  · have hNone : ∀ name,
        Headers.IsContentType name = true →
          headers.lookup name = none := by
      intro name hName
      rw [AList.lookup_eq_none]
      intro hMem
      exact hTyped ⟨name, hName, hMem⟩
    refine Or.inr ⟨hNone, ?_⟩
    unfold Headers.contentType
    rw [FiniteMap.find?_of_none]
    · rfl
    · intro name hName
      rw [iteration.lookup_order, hNone name hName]

/- The table that a message is published with. -/
def sentTable
    (first : HeaderIteration) (fresh : String)
    (message : RawMessage) : Headers :=
  (ensureMessageId fresh
    (first.order (dispatchRawHeaders message))).2

theorem sentTable_of_canonical
    {message : RawMessage}
    (hId : message.envelope.messageId ≠ "")
    (hCanonical : CanonicalId message.headers)
    (first : HeaderIteration) (fresh : String) :
    Identifies (sentTable first fresh message)
        message.envelope.messageId ∧
      ∀ name, name ≠ messageIdHeader →
        (sentTable first fresh message).lookup name =
          message.headers.lookup name := by
  have hSent :
      Identifies (dispatchRawHeaders message)
        message.envelope.messageId :=
    hCanonical.identifies_insert hId
  have hOrdered := hSent.congr
    (first.lookup_order (dispatchRawHeaders message))
  have hKept := (hOrdered.ensured fresh).2
  refine ⟨hOrdered.congr hKept, ?_⟩
  intro name hName
  unfold sentTable
  rw [hKept, first.lookup_order,
    lookup_dispatchRawHeaders message hName]

/- Where there is one content type, it is the one to fit. -/
theorem contentType_short_iff
    {headers : Headers} (hOne : OneContentType headers)
    (iteration : HeaderIteration) :
    (∀ text ∈ Headers.contentType (iteration.order headers),
        text.utf8ByteSize ≤ 255) ↔
      ∀ name value, Headers.IsContentType name = true →
        headers.lookup name = some value →
          value.utf8ByteSize ≤ 255 := by
  rcases contentType_of_one hOne iteration with
    ⟨name, value, hName, hLookup, hUnique, hType⟩ |
      ⟨hNone, hType⟩
  · rw [hType]
    constructor
    · intro hShort other value' hOther hLookup'
      by_cases hSame : other = name
      · rw [hSame, hLookup, Option.some.injEq] at hLookup'
        exact hLookup' ▸ hShort value rfl
      · rw [hUnique other hSame hOther] at hLookup'
        cases hLookup'
    · rintro hShort _ ⟨⟩
      exact hShort name value hName hLookup
  · rw [hType]
    refine iff_of_true nofun ?_
    intro name value hName hLookup
    rw [hNone name hName] at hLookup
    cases hLookup

/- One content type stays one beside other ids. -/
theorem OneContentType.congr
    {headers table : Headers}
    (hOne : OneContentType headers)
    (hOther : ∀ name, name ≠ messageIdHeader →
      table.lookup name = headers.lookup name) :
    OneContentType table := by
  have hMem : ∀ name, Headers.IsContentType name = true →
      (name ∈ table ↔ name ∈ headers) := by
    intro name hType
    rw [← AList.lookup_isSome, ← AList.lookup_isSome,
      hOther name (ne_messageIdHeader hType)]
  intro name name' hType hType' hName hName'
  exact hOne name name' hType hType'
    ((hMem name hType).mp hName) ((hMem name' hType').mp hName')

/- All of it fits exactly if the message is published. -/
theorem exists_publishBytes_iff
    {message : RawMessage}
    (hId : message.envelope.messageId ≠ "")
    (hCanonical : CanonicalId message.headers)
    (hOne : OneContentType message.headers)
    (first second third : HeaderIteration)
    (fresh subject : String) :
    (∃ published,
        RabbitMq.publishBytes first second third fresh subject
            message.payload
            (some (dispatchRawHeaders message)) =
          some published) ↔
      ShortOnRabbitMq subject message := by
  rcases sentTable_of_canonical hId hCanonical first fresh
    with ⟨hIdentifies, hOther⟩
  have hMessageId :=
    (hIdentifies.congr
      (third.lookup_order (sentTable first fresh message))).found
  have hTypes :=
    contentType_short_iff (hOne.congr hOther) second
  have hNames :
      (∀ name ∈ sentTable first fresh message,
          name.utf8ByteSize ≤ 255) ↔
        ∀ name ∈ message.headers,
          name.utf8ByteSize ≤ 255 := by
    apply forall_congr'
    intro name
    by_cases hSame : name = messageIdHeader
    · have hShort : name.utf8ByteSize ≤ 255 := by
        rw [hSame]
        decide
      exact iff_of_true (fun _ => hShort) (fun _ => hShort)
    · rw [← AList.lookup_isSome, ← AList.lookup_isSome,
        hOther name hSame]
  have hSameTypes :
      (∀ name value, Headers.IsContentType name = true →
          (sentTable first fresh message).lookup name =
              some value →
            value.utf8ByteSize ≤ 255) ↔
        ∀ name value, Headers.IsContentType name = true →
          message.headers.lookup name = some value →
            value.utf8ByteSize ≤ 255 := by
    apply forall₂_congr
    intro name value
    apply forall_congr'
    intro hType
    rw [hOther name (ne_messageIdHeader hType)]
  constructor
  · rintro ⟨published, hPublished⟩
    rcases RabbitMq.publishBytes_eq_some_iff.mp hPublished
      with ⟨rfl, hSubject, hShort⟩
    exact
      { subject := hSubject
        messageId := hShort.messageId _ hMessageId
        names := hNames.mp (hShort.names _ rfl)
        contentType :=
          hSameTypes.mp (hTypes.mp hShort.contentType) }
  · intro hShort
    refine ⟨_, RabbitMq.publishBytes_eq_some_iff.mpr
      ⟨rfl, hShort.subject, ?_, ?_, ?_⟩⟩
    · exact hTypes.mpr (hSameTypes.mpr hShort.contentType)
    · intro text hText
      have hSame : some text = some message.envelope.messageId :=
        hText.symm.trans hMessageId
      cases hSame
      exact hShort.messageId
    · rintro _ ⟨⟩
      exact hNames.mpr hShort.names

/- The other headers that are received for a table. -/
theorem otherHeaders_typedHeaders
    {headers table : Headers}
    (hOne : OneContentType headers)
    (hOther : ∀ name, name ≠ messageIdHeader →
      table.lookup name = headers.lookup name)
    (second third : HeaderIteration) (id : String) :
    (otherHeaders (fun name => name)
      ((RabbitMq.typedHeaders
        (RabbitMq.tableProperties second third
          table)).insert messageIdHeader id)).Perm
      (otherHeaders canonicalName headers) := by
  have hSame : ∀ name, Headers.IsContentType name = true →
      table.lookup name = headers.lookup name :=
    fun name hType => hOther name (ne_messageIdHeader hType)
  have hTableOne : OneContentType table := by
    intro name name' hType hType' hMem hMem'
    rw [← AList.lookup_isSome, hSame _ hType,
      AList.lookup_isSome] at hMem
    rw [← AList.lookup_isSome, hSame _ hType',
      AList.lookup_isSome] at hMem'
    exact hOne name name' hType hType' hMem hMem'
  rcases contentType_of_one hTableOne second with
    ⟨name, value, hName, hLookup, hUnique, hType⟩ |
      ⟨hNone, hType⟩
  · have hTyped :
        RabbitMq.typedHeaders
            (RabbitMq.tableProperties second third table) =
          Headers.setContentType table value := by
      rw [RabbitMq.typedHeaders_tableProperties, hType]
    rw [hSame name hName] at hLookup
    apply otherHeaders_of_retyped hName hLookup
    · intro other hNe hTrue
      rw [← hSame other hTrue, hUnique other hNe hTrue]
    · rw [hTyped, AList.lookup_insert_ne (by decide)]
      exact AList.lookup_insert _
    · intro other hNe hTrue
      rw [hTyped,
        AList.lookup_insert_ne (ne_messageIdHeader hTrue),
        AList.lookup_eq_none,
        Headers.mem_setContentType_iff hTrue]
      exact hNe
    · intro other hNe hFalse
      rw [AList.lookup_insert_ne hNe,
        lookup_typedHeaders hFalse, hOther other hNe]
  · have hTyped :
        RabbitMq.typedHeaders
            (RabbitMq.tableProperties second third table) =
          table := by
      rw [RabbitMq.typedHeaders_tableProperties, hType]
    have hUntyped :
        otherHeaders canonicalName headers =
          otherHeaders (fun name => name) headers := by
      apply renamed_of_untyped
      intro name hMem
      rw [← Bool.not_eq_true]
      intro hTrue
      rw [← AList.lookup_isSome, lookup_erase_messageId,
        if_neg (ne_messageIdHeader hTrue), ← hSame name hTrue,
        hNone name hTrue] at hMem
      cases hMem
    rw [hTyped, hUntyped]
    apply otherHeaders_perm
    intro name hName
    rw [AList.lookup_insert_ne hName, hOther name hName]

theorem survivesRabbitMq_of_canonical
    {message : RawMessage} {subject : String}
    (hId : message.envelope.messageId ≠ "")
    (hCanonical : CanonicalId message.headers)
    (hOne : OneContentType message.headers)
    (hShort : ShortOnRabbitMq subject message) :
    SurvivesRabbitMq subject message := by
  intro first second third fresh iteration fresh' redelivered
    id
  rcases (exists_publishBytes_iff hId hCanonical hOne first
      second third fresh subject).mpr hShort with
    ⟨published, hPublished⟩
  rcases sentTable_of_canonical hId hCanonical first fresh
    with ⟨hIdentifies, hOther⟩
  have hProperties :
      published.properties =
        RabbitMq.tableProperties second third
          (sentTable first fresh message) := by
    rw [(RabbitMq.publishBytes_eq_some_iff.mp hPublished).1]
    rfl
  rcases deliveryToRaw_of_identifies hProperties hIdentifies
      iteration fresh' redelivered id with
    ⟨hReceived, hHeaders⟩
  exact ⟨published, hPublished, hReceived, _, hHeaders,
    AList.lookup_insert _,
    otherHeaders_typedHeaders hOne hOther second third _⟩

/- Names that are apart at the sender stay apart. -/
theorem oneContentType_of_arrivesAs
    {sent received : RawMessage}
    (hArrives : ArrivesAs canonicalName sent received) :
    OneContentType sent.headers := by
  rcases hArrives with ⟨_, headers, _, _, hPerm⟩
  have hNodup :
      ((sent.headers.erase messageIdHeader).entries.map
        (fun header => canonicalName header.1)).Nodup := by
    have hNames := nodup_otherHeaders headers
    rw [(hPerm.map Prod.fst).nodup_iff] at hNames
    unfold otherHeaders renamed at hNames
    rw [List.map_map] at hNames
    exact hNames
  have hEntry : ∀ name, Headers.IsContentType name = true →
      name ∈ sent.headers → ∃ value,
        (⟨name, value⟩ : Sigma (fun _ : String => String)) ∈
          (sent.headers.erase messageIdHeader).entries := by
    intro name hType hMem
    rcases Option.isSome_iff_exists.mp
        (AList.lookup_isSome.mpr hMem) with ⟨value, hLookup⟩
    refine ⟨value, AList.mem_lookup_iff.mp ?_⟩
    rw [lookup_erase_messageId,
      if_neg (ne_messageIdHeader hType)]
    exact hLookup
  intro name name' hType hType' hMem hMem'
  rcases hEntry name hType hMem with ⟨value, hValue⟩
  rcases hEntry name' hType' hMem' with ⟨value', hValue'⟩
  have hSame := List.inj_on_of_nodup_map hNodup hValue hValue'
    (by simp [canonicalName, hType, hType'])
  exact congrArg Sigma.fst hSame

/- A variant of the id that the sender drops is missed. -/
theorem canonical_of_perm
    {rename : String → String} {headers received : Headers}
    (hRename : ∀ name, IsMessageId name = true →
      rename name = name)
    (hReceived : CanonicalId received)
    (hPerm :
      (otherHeaders (fun name => name) received).Perm
        (otherHeaders rename headers)) :
    CanonicalId headers := by
  intro name hName hVariant
  rw [AList.lookup_eq_none]
  intro hMem
  rcases mem_otherHeaders rename hName hMem with
    ⟨value, hEntry⟩
  rw [hRename name hVariant] at hEntry
  have hLookup :=
    (lookup_of_mem_otherHeaders (hPerm.mem_iff.mpr hEntry)).2
  rw [hReceived name hName hVariant] at hLookup
  cases hLookup

theorem canonicalName_of_isMessageId
    {name : String} (hName : IsMessageId name = true) :
    canonicalName name = name := by
  simp [canonicalName, isContentType_of_isMessageId hName]

theorem canonical_of_survivesRabbitMq
    {message : RawMessage} {subject : String}
    (hId : message.envelope.messageId ≠ "")
    (hSurvives : SurvivesRabbitMq subject message) :
    CanonicalId message.headers := by
  -- the id comes first, so that all variants are dropped
  have hFirst : messageIdFromHeaders
      ((FiniteMap.Iteration.first messageIdHeader).order
        (dispatchRawHeaders message)) =
      some message.envelope.messageId :=
    messageIdFromHeaders_first (AList.lookup_insert _) hId
  have hTable := identifies_ensureMessageId "" hFirst
  rcases hSurvives (FiniteMap.Iteration.first messageIdHeader)
      FiniteMap.Iteration.identity
      FiniteMap.Iteration.identity ""
      FiniteMap.Iteration.identity "" false 0 with
    ⟨published, hPublished, _, headers, hHeaders, _, hPerm⟩
  rcases RabbitMq.publishBytes_eq_some_iff.mp hPublished with
    ⟨rfl, _⟩
  rw [(deliveryToRaw_of_identifies rfl hTable
      FiniteMap.Iteration.identity "" false 0).2,
    Option.some.injEq] at hHeaders
  subst hHeaders
  apply canonical_of_perm
    (fun _ => canonicalName_of_isMessageId) ?_ hPerm
  exact (identifies_typedHeaders hTable _ _).canonical.insert _

theorem survivesRabbitMq_iff
    {message : RawMessage}
    (hId : message.envelope.messageId ≠ "")
    (subject : String) :
    SurvivesRabbitMq subject message ↔
      CanonicalId message.headers ∧
        OneContentType message.headers ∧
        ShortOnRabbitMq subject message := by
  constructor
  · intro hSurvives
    have hCanonical :=
      canonical_of_survivesRabbitMq hId hSurvives
    rcases hSurvives FiniteMap.Iteration.identity
        FiniteMap.Iteration.identity
        FiniteMap.Iteration.identity ""
        FiniteMap.Iteration.identity "" false 0 with
      ⟨published, hPublished, hArrives⟩
    have hOne := oneContentType_of_arrivesAs hArrives
    exact ⟨hCanonical, hOne,
      (exists_publishBytes_iff hId hCanonical hOne _ _ _ _
        subject).mp ⟨published, hPublished⟩⟩
  · rintro ⟨hCanonical, hOne, hShort⟩
    exact survivesRabbitMq_of_canonical hId hCanonical hOne
      hShort

end Bus

end Qanat

------------------------------------------------------------
-- Redis
------------------------------------------------------------

namespace Qanat

namespace Bus

theorem isFramedOnRedis_iff
    (subject : String) (message : RawMessage) :
    IsFramedOnRedis subject message ↔
      Wire.Fits subject
        (some (dispatchRawHeaders message)) := by
  constructor
  · intro hFramed
    rcases hFramed FiniteMap.Iteration.identity
        FiniteMap.Iteration.identity "" 0 with
      ⟨received, hReceived, _, hPayload⟩
    exact fits_of_receiveFrame hReceived hPayload
  · intro hFits order iteration fresh id
    rcases receiveFrame_of_fits hFits order message.payload
      with ⟨headers, _, hReceived⟩
    exact ⟨_, hReceived iteration fresh id, rfl, rfl⟩

theorem survivesRedis_of_canonical
    {subject : String} {message : RawMessage}
    (hId : message.envelope.messageId ≠ "")
    (hFits :
      Wire.Fits subject (some (dispatchRawHeaders message)))
    (hCanonical : CanonicalId message.headers) :
    SurvivesRedis subject message := by
  intro order iteration fresh id
  have hSent :
      Identifies (dispatchRawHeaders message)
        message.envelope.messageId :=
    hCanonical.identifies_insert hId
  rcases receiveFrame_of_identifies hFits hSent order
      iteration fresh id message.payload with
    ⟨received, headers, hReceived, _, hMessageId, hHeaders,
      _, hLookup⟩
  rw [Option.getD_some] at hLookup
  refine ⟨received, hReceived, hMessageId, headers, hHeaders,
    ?_, ?_⟩
  · rw [hLookup, hSent.lookup]
  · apply otherHeaders_perm
    intro name hName
    rw [hLookup, lookup_dispatchRawHeaders message hName]

/- The receiver drops all variants, whatever it decodes. -/
theorem canonical_of_survivesRedis
    {subject : String} {message : RawMessage}
    (hId : message.envelope.messageId ≠ "")
    (hSurvives : SurvivesRedis subject message) :
    CanonicalId message.headers := by
  rcases hSurvives FiniteMap.Iteration.identity
      FiniteMap.Iteration.identity "" 0 with
    ⟨received, hReceived, hMessageId, headers, hHeaders, _,
      hPerm⟩
  unfold Redis.receive at hReceived
  rw [receiveFrame_eq, Option.map_eq_some_iff] at hReceived
  rcases hReceived with ⟨frame, _, rfl⟩
  cases hHeaders
  cases hFound : messageIdFromHeaders
      (FiniteMap.Iteration.identity.order
        (frame.headers.getD ∅)) with
  | some id =>
      exact canonical_of_perm (fun _ _ => rfl)
        (identifies_ensureMessageId "" hFound).canonical
        hPerm
  | none =>
      -- the id that is made up would be the empty one
      unfold rebuild ensureMessageId at hMessageId
      rw [hFound] at hMessageId
      exact absurd hMessageId.symm hId

end Bus

end Qanat

------------------------------------------------------------
-- Both Buses
------------------------------------------------------------

namespace Qanat

namespace Bus

/-
  A hop keeps the identity of a message exactly if no header
  has the name of the id in another letter case, and on AMQP
  if not two headers have that of a content type and what is
  carried in short strings is short enough.
-/
theorem identity_survives_iff
    (subject : String) (message : RawMessage)
    (hId : message.envelope.messageId ≠ "") :
    (SurvivesRabbitMq subject message ↔
      CanonicalId message.headers ∧
        OneContentType message.headers ∧
        ShortOnRabbitMq subject message) ∧
      (IsFramedOnRedis subject message ↔
        Wire.Fits subject
          (some (dispatchRawHeaders message))) ∧
      (Wire.Fits subject (some (dispatchRawHeaders message)) →
        (SurvivesRedis subject message ↔
          CanonicalId message.headers)) := by
  refine ⟨survivesRabbitMq_iff hId subject,
    isFramedOnRedis_iff subject message, ?_⟩
  intro hFits
  constructor
  · exact canonical_of_survivesRedis hId
  · exact survivesRedis_of_canonical hId hFits

/- A message with the id `m` and one header. -/
def messageWithHeader (name value : String) : RawMessage where
  envelope :=
    { subject := "orders"
      id := 0
      messageId := "m"
      headers := some ((∅ : Headers).insert name value)
      attempts := 0 }
  payload := []

theorem identity_survives_iff_traced :
    SurvivesRabbitMq "orders"
        (messageWithHeader "traceparent" "t") ∧
      IsFramedOnRedis "orders"
        (messageWithHeader "traceparent" "t") ∧
      SurvivesRedis "orders"
        (messageWithHeader "traceparent" "t") := by
  have hOnly : ∀ name,
      name ∈ (messageWithHeader "traceparent" "t").headers →
        name = "traceparent" := by
    intro name hMem
    rcases (AList.mem_insert _).mp hMem with hSame | hMem
    · exact hSame
    · exact absurd hMem (AList.notMem_empty name)
  have hCanonical :
      CanonicalId
        (messageWithHeader "traceparent" "t").headers := by
    intro name _ hVariant
    rw [AList.lookup_eq_none]
    intro hMem
    rw [hOnly name hMem] at hVariant
    revert hVariant
    decide
  have hOne :
      OneContentType
        (messageWithHeader "traceparent" "t").headers := by
    intro name name' _ _ hMem hMem'
    rw [hOnly name hMem, hOnly name' hMem']
  have hShort :
      ShortOnRabbitMq "orders"
        (messageWithHeader "traceparent" "t") := by
    refine ⟨by decide, by decide, ?_, ?_⟩
    · intro name hMem
      rw [hOnly name hMem]
      decide
    · intro name value hType hLookup
      have hMem :
          name ∈
            (messageWithHeader "traceparent" "t").headers := by
        rw [← AList.lookup_isSome, hLookup]
        rfl
      rw [hOnly name hMem] at hType
      cases hType
  have hFits :
      Wire.Fits "orders"
        (some (dispatchRawHeaders
          (messageWithHeader "traceparent" "t"))) := by
    decide +kernel
  rcases identity_survives_iff "orders"
      (messageWithHeader "traceparent" "t") (by decide) with
    ⟨hRabbitMq, hFramed, hRedis⟩
  exact ⟨hRabbitMq.mpr ⟨hCanonical, hOne, hShort⟩,
    hFramed.mpr hFits, (hRedis hFits).mpr hCanonical⟩

/- The receiver takes a variant for the id. -/
theorem variant_replaces_id :
    ¬ SurvivesRabbitMq "orders"
        (messageWithHeader "Qanat-Message-Id" "n") ∧
      ¬ SurvivesRedis "orders"
        (messageWithHeader "Qanat-Message-Id" "n") := by
  constructor
  · intro hSurvives
    rcases hSurvives
        (FiniteMap.Iteration.first "Qanat-Message-Id")
        FiniteMap.Iteration.identity
        FiniteMap.Iteration.identity ""
        FiniteMap.Iteration.identity "" false 0 with
      ⟨published, hPublished, hId, _⟩
    rcases RabbitMq.publishBytes_eq_some_iff.mp hPublished
      with ⟨rfl, _⟩
    revert hId
    decide
  · intro hSurvives
    rcases hSurvives FiniteMap.Iteration.identity
        (FiniteMap.Iteration.first "Qanat-Message-Id") "" 0
      with ⟨received, hReceived, hId, _⟩
    have hOther :
        (Redis.receive
          (FiniteMap.Iteration.first "Qanat-Message-Id") "" 0
          (Redis.publishBytes FiniteMap.Iteration.identity
            "orders" [] (some (dispatchRawHeaders
              (messageWithHeader "Qanat-Message-Id" "n"))))).map
          (fun message => message.envelope.messageId) =
          some "n" := by
      decide +kernel
    have hSome := congrArg
      (Option.map (fun message : RawMessage =>
        message.envelope.messageId)) hReceived
    rw [Option.map_some, hId] at hSome
    have hBoth := hOther.symm.trans hSome
    revert hBoth
    decide

end Bus

end Qanat
