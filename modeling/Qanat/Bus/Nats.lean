import Qanat.Bus.Carriage

/-
  A message on a NATS bus, with its headers as the client
  library has them.

  The library parses the names and the values of headers.
  Headers travel as lines of text, so that of what a client
  publishes only values without outer blanks are known to
  arrive as they were.

  Main declarations:
    * `Nats.HeaderSyntax`, `Nats.Service`
    * `Nats.Service.Carries`, `Nats.Plain`
    * `Nats.headersToNats`, `Nats.natsMsgToRaw`
    * `Nats.publishBytes_ok_iff`
    * `Nats.carried_onNats`
    * `Nats.identity_survives_nats_iff`
-/

------------------------------------------------------------
-- Messages of the Client Library
------------------------------------------------------------

namespace Qanat

namespace Bus

namespace Nats

/-
  `HeaderName` and `HeaderValue`: how they are parsed, with
  the texts of the errors, and how they are displayed.
-/
structure HeaderSyntax (Name Value : Type) where
  parseName : String → Except String Name
  parseValue : String → Except String Value
  nameText : Name → String
  valueText : Value → String

/- What is parsed is displayed as it was. -/
structure HeaderSyntax.Verbatim
    {Name Value : Type} (library : HeaderSyntax Name Value) :
    Prop where
  name : ∀ text parsed, library.parseName text = .ok parsed →
    library.nameText parsed = text
  value : ∀ text parsed,
    library.parseValue text = .ok parsed →
      library.valueText parsed = text

/- A name has one value or more. -/
abbrev HeaderMap (Name Value : Type) :=
  AList (fun _ : Name => List Value)

structure Message (Name Value : Type) where
  subject : String
  headers : Option (HeaderMap Name Value)
  payload : Bytes

/-
  The client with its server: what the client says to a
  message, and what a subscriber may be given for it.
-/
structure Service (Name Value : Type) where
  publish : Message Name Value → Except String Unit
  yields : Message Name Value → Message Name Value → Prop

/- A name with the first of its values. -/
def headerText
    {Name Value : Type} (library : HeaderSyntax Name Value)
    (header : Sigma (fun _ : Name => List Value)) :
    String × String :=
  (library.nameText header.1,
    (header.2.head?.map library.valueText).getD "")

/- No blanks are trimmed from the text. -/
def Untrimmed (text : String) : Prop :=
  Router.trim text.toList = text.toList

/-
  Messages that have been published may be received, and are
  received with their subjects and payloads; headers whose
  values have no outer blanks arrive as they were.
-/
structure Service.Carries
    {Name Value : Type} (service : Service Name Value)
    (library : HeaderSyntax Name Value) : Prop
    extends library.Verbatim where
  reached : ∀ published, service.publish published = .ok () →
    ∃ got, service.yields published got
  subject : ∀ published got, service.yields published got →
    got.subject = published.subject
  payload : ∀ published got, service.yields published got →
    got.payload = published.payload
  headers : ∀ published got map,
    service.yields published got →
    published.headers = some map →
    (∀ header ∈ map.entries,
      Untrimmed (headerText library header).2) →
    ∃ map', got.headers = some map' ∧
      (map'.entries.map (headerText library)).Perm
        (map.entries.map (headerText library))

variable {Name Value : Type} [DecidableEq Name]

/- One round of the loop of `headers_to_nats`. -/
def insertHeader
    (library : HeaderSyntax Name Value)
    (map : HeaderMap Name Value)
    (header : Sigma (fun _ : String => String)) :
    Except BusError (HeaderMap Name Value) :=
  match library.parseName header.1 with
  | .error text => .error (.internal text)
  | .ok name =>
      match library.parseValue header.2 with
      | .error text => .error (.internal text)
      | .ok value => .ok (map.insert name [value])

def headersToNats
    (library : HeaderSyntax Name Value)
    (order : HeaderIteration) (headers : Headers) :
    Except BusError (HeaderMap Name Value) :=
  (order.order headers).entries.foldlM
    (insertHeader library) ∅

/- What `publish_bytes` gives the client to publish. -/
def toPublish
    (library : HeaderSyntax Name Value)
    (order : HeaderIteration) (subject : String)
    (payload : Bytes) (headers : Option Headers) :
    Except BusError (Message Name Value) :=
  match headers with
  | some headers =>
      match headersToNats library order headers with
      | .error error => .error error
      | .ok map =>
          .ok
            { subject := subject
              headers := some map
              payload := payload }
  | none =>
      .ok
        { subject := subject
          headers := none
          payload := payload }

/- `publish_bytes`, with what the client says. -/
def publishBytes
    (library : HeaderSyntax Name Value)
    (client : Message Name Value → Except String Unit)
    (order : HeaderIteration) (subject : String)
    (payload : Bytes) (headers : Option Headers) :
    Except BusError Unit :=
  match toPublish library order subject payload headers with
  | .error error => .error error
  | .ok message =>
      match client message with
      | .error text =>
          .error (.backend (.natsPublish text))
      | .ok () => .ok ()

/-
  `nats_msg_to_raw`; `entries` is the order of the headers of
  the library and `iteration` that of their collection.
-/
def natsMsgToRaw
    (library : HeaderSyntax Name Value)
    (entries : FiniteMap.Iteration
      (fun _ : Name => List Value))
    (iteration : HeaderIteration) (fresh : String)
    (message : Message Name Value) (id : UInt64) :
    RawMessage :=
  let headers :=
    match message.headers with
    | some map =>
        Headers.collect ((entries.order map).entries.map
          (headerText library))
    | none => ∅
  let identified :=
    ensureMessageId fresh (iteration.order headers)
  { envelope :=
      { subject := message.subject
        id := id
        messageId := identified.1
        headers := some identified.2
        attempts := 0 }
    payload := message.payload }

end Nats

end Bus

end Qanat

------------------------------------------------------------
-- Headers of the Client Library
------------------------------------------------------------

namespace Qanat

namespace Bus

namespace Nats

variable {Name Value : Type} [DecidableEq Name]
variable {library : HeaderSyntax Name Value}

/- The library takes a header with this name and value. -/
def Accepts
    (library : HeaderSyntax Name Value)
    (name value : String) : Prop :=
  (∃ parsed, library.parseName name = .ok parsed) ∧
    ∃ parsed, library.parseValue value = .ok parsed

theorem insertHeader_eq_ok
    {map map' : HeaderMap Name Value}
    {header : Sigma (fun _ : String => String)}
    (hInsert : insertHeader library map header = .ok map') :
    ∃ name value,
      library.parseName header.1 = .ok name ∧
        library.parseValue header.2 = .ok value ∧
        map' = map.insert name [value] := by
  unfold insertHeader at hInsert
  cases hName : library.parseName header.1 with
  | error text =>
      rw [hName] at hInsert
      cases hInsert
  | ok name =>
      cases hValue : library.parseValue header.2 with
      | error text =>
          rw [hName, hValue] at hInsert
          cases hInsert
      | ok value =>
          rw [hName, hValue] at hInsert
          cases hInsert
          exact ⟨name, value, rfl, rfl, rfl⟩

theorem exists_insertHeader_iff
    (map : HeaderMap Name Value)
    (header : Sigma (fun _ : String => String)) :
    (∃ map', insertHeader library map header = .ok map') ↔
      Accepts library header.1 header.2 := by
  constructor
  · rintro ⟨map', hInsert⟩
    rcases insertHeader_eq_ok hInsert with
      ⟨name, value, hName, hValue, _⟩
    exact ⟨⟨name, hName⟩, value, hValue⟩
  · rintro ⟨⟨name, hName⟩, value, hValue⟩
    unfold insertHeader
    rw [hName, hValue]
    exact ⟨_, rfl⟩

theorem foldlM_cons_eq_ok
    {header : Sigma (fun _ : String => String)}
    {rest : List (Sigma (fun _ : String => String))}
    {map map' : HeaderMap Name Value} :
    (header :: rest).foldlM (insertHeader library) map =
        .ok map' ↔
      ∃ next, insertHeader library map header = .ok next ∧
        rest.foldlM (insertHeader library) next =
          .ok map' := by
  rw [List.foldlM_cons]
  cases insertHeader library map header with
  | error error =>
      constructor
      · nofun
      · rintro ⟨_, h, _⟩
        cases h
  | ok next =>
      constructor
      · exact fun h => ⟨next, rfl, h⟩
      · rintro ⟨_, ⟨⟩, h⟩
        exact h

/- All headers are inserted if each of them is accepted. -/
theorem exists_foldlM_iff
    (headers : List (Sigma (fun _ : String => String)))
    (map : HeaderMap Name Value) :
    (∃ map',
        headers.foldlM (insertHeader library) map =
          .ok map') ↔
      ∀ header ∈ headers,
        Accepts library header.1 header.2 := by
  induction headers generalizing map with
  | nil => exact ⟨fun _ => nofun, fun _ => ⟨map, rfl⟩⟩
  | cons header rest ih =>
      rw [List.forall_mem_cons,
        ← exists_insertHeader_iff map header]
      constructor
      · rintro ⟨map', hFold⟩
        rcases foldlM_cons_eq_ok.mp hFold with
          ⟨next, hInsert, hRest⟩
        exact ⟨⟨next, hInsert⟩, (ih next).mp ⟨map', hRest⟩⟩
      · rintro ⟨⟨next, hInsert⟩, hAll⟩
        rcases (ih next).mpr hAll with ⟨map', hRest⟩
        exact ⟨map', foldlM_cons_eq_ok.mpr
          ⟨next, hInsert, hRest⟩⟩

/-
  The headers are taken if the library accepts each of them,
  in whatever order they are read.
-/
theorem headersToNats_ok_iff
    (order : HeaderIteration) (headers : Headers) :
    (∃ map, headersToNats library order headers = .ok map) ↔
      ∀ name value, headers.lookup name = some value →
        Accepts library name value := by
  unfold headersToNats
  rw [exists_foldlM_iff]
  constructor
  · intro hAll name value hLookup
    have hMem : (⟨name, value⟩ : Sigma _) ∈
        (order.order headers).entries :=
      (order.perm headers).mem_iff.mpr
        (AList.mem_lookup_iff.mp hLookup)
    exact hAll _ hMem
  · intro hAll header hMem
    exact hAll _ _ (AList.mem_lookup_iff.mpr
      ((order.perm headers).mem_iff.mp hMem))

/- A header as a pair. -/
def pair (header : Sigma (fun _ : String => String)) :
    String × String :=
  (header.1, header.2)

/- What is displayed is what was inserted. -/
theorem headerText_foldlM
    (hVerbatim : library.Verbatim)
    (done : List (Sigma (fun _ : String => String)))
    {headers : List (Sigma (fun _ : String => String))}
    {map map' : HeaderMap Name Value}
    (hKeys : (done ++ headers).NodupKeys)
    (hDone :
      (map.entries.map (headerText library)).Perm
        (done.map pair))
    (hFold :
      headers.foldlM (insertHeader library) map = .ok map') :
    (map'.entries.map (headerText library)).Perm
      ((done ++ headers).map pair) := by
  induction headers generalizing done map with
  | nil =>
      cases hFold
      rwa [List.append_nil]
  | cons header rest ih =>
      rcases foldlM_cons_eq_ok.mp hFold with
        ⟨next, hInsert, hRest⟩
      rcases insertHeader_eq_ok hInsert with
        ⟨name, value, hName, hValue, rfl⟩
      have hText := hVerbatim.name _ _ hName
      -- no earlier header had the name
      have hNew : name ∉ map.entries.keys := by
        intro hMem
        rcases List.mem_map.mp hMem with ⟨entry, hEntry, rfl⟩
        have hPair :
            headerText library entry ∈ done.map pair :=
          hDone.mem_iff.mp (List.mem_map_of_mem hEntry)
        rcases List.mem_map.mp hPair with
          ⟨earlier, hEarlier, hSame⟩
        have hKey : earlier.1 = header.1 :=
          (congrArg Prod.fst hSame).trans hText
        have hNodup := List.nodup_append.mp
          ((List.map_append ..) ▸ hKeys :
            (done.map Sigma.fst ++
              (header :: rest).map Sigma.fst).Nodup)
        exact hNodup.2.2 _ (List.mem_map_of_mem hEarlier) _
          List.mem_cons_self hKey
      have hHeader :
          headerText library ⟨name, [value]⟩ = pair header := by
        unfold headerText pair
        rw [hText]
        simp [hVerbatim.value _ _ hValue]
      have hNext :
          ((map.insert name [value]).entries.map
              (headerText library)).Perm
            ((done ++ [header]).map pair) := by
        rw [AList.entries_insert,
          List.kerase_of_notMem_keys hNew, List.map_cons,
          hHeader, List.map_append]
        exact (List.Perm.cons _ hDone).trans
          (List.perm_append_singleton _ _).symm
      have hWhole :
          done ++ header :: rest =
            (done ++ [header]) ++ rest := by simp
      rw [hWhole] at hKeys ⊢
      exact ih _ hKeys hNext hRest

end Nats

end Bus

end Qanat

------------------------------------------------------------
-- Received Messages
------------------------------------------------------------

namespace Qanat

namespace Bus

namespace Nats

variable {Name Value : Type} [DecidableEq Name]
variable {library : HeaderSyntax Name Value}

/- Headers that are collected in any order are all there. -/
theorem lookup_collect_of_perm
    {collected : List (String × String)} {headers : Headers}
    (hPerm : collected.Perm (headers.entries.map pair))
    (name : String) :
    (Headers.collect collected).lookup name =
      headers.lookup name := by
  let entries : List (Sigma (fun _ : String => String)) :=
    collected.map (fun header => ⟨header.1, header.2⟩)
  have hEntries : entries.Perm headers.entries := by
    have hBack := hPerm.map (fun header : String × String =>
      (⟨header.1, header.2⟩ :
        Sigma (fun _ : String => String)))
    rw [List.map_map] at hBack
    exact hBack.trans (by
      rw [show (_ ∘ pair) = id from rfl, List.map_id])
  have hKeys : entries.NodupKeys :=
    (List.perm_nodupKeys hEntries).mpr headers.nodupKeys
  have hLookup :=
    FiniteMap.lookup_foldl_insert hKeys ∅ name
  rw [AList.lookup_empty, Option.or_none] at hLookup
  have hCollect :
      Headers.collect collected =
        entries.foldl
          (fun m entry => m.insert entry.1 entry.2) ∅ := by
    unfold Headers.collect
    rw [List.foldl_map]
  rw [hCollect, hLookup]
  exact FiniteMap.lookup_of_perm
    (m := ⟨entries, hKeys⟩) hEntries name

/- A message is published if its headers are taken. -/
theorem toPublish_ok_iff
    (order : HeaderIteration) (subject : String)
    (payload : Bytes) (headers : Headers) :
    (∃ message,
        toPublish library order subject payload
            (some headers) =
          .ok message) ↔
      ∃ map, headersToNats library order headers =
        .ok map := by
  unfold toPublish
  constructor
  · rintro ⟨message, hPublish⟩
    cases hMap : headersToNats library order headers with
    | error error =>
        simp only [hMap] at hPublish
        cases hPublish
    | ok map => exact ⟨map, rfl⟩
  · rintro ⟨map, hMap⟩
    simp only [hMap]
    exact ⟨_, rfl⟩

/- What is published, the client has been given and taken. -/
theorem publishBytes_ok_iff
    {client : Message Name Value → Except String Unit}
    {order : HeaderIteration} {subject : String}
    {payload : Bytes} {headers : Option Headers} :
    publishBytes library client order subject payload
        headers = .ok () ↔
      ∃ message,
        toPublish library order subject payload headers =
            .ok message ∧
          client message = .ok () := by
  unfold publishBytes
  cases toPublish library order subject payload headers with
  | error error => simp
  | ok message =>
      cases hClient : client message with
      | error text => simp [hClient]
      | ok => simp [hClient]

/- The values of the headers have no outer blanks. -/
def Plain (headers : Headers) : Prop :=
  ∀ name value, headers.lookup name = some value →
    Untrimmed value

/- What is received of a message, whatever the orders. -/
structure ReceivedAs
    (subject : String) (payload : Bytes) (headers : Headers)
    (fresh : String) (got : RawMessage) : Prop where
  subject : got.envelope.subject = subject
  payload : got.payload = payload
  ensured : ∃ seen : Headers,
    (∀ name, seen.lookup name = headers.lookup name) ∧
      got.envelope.messageId =
        (ensureMessageId fresh seen).1 ∧
      got.envelope.headers =
        some (ensureMessageId fresh seen).2

/- The headers that were published are received. -/
theorem receivedAs_of_yields
    {service : Service Name Value}
    (hCarries : service.Carries library)
    {order : HeaderIteration} {subject : String}
    {payload : Bytes} {headers : Headers}
    {published got : Message Name Value}
    (hPlain : Plain headers)
    (hPublish :
      toPublish library order subject payload
          (some headers) =
        .ok published)
    (hYields : service.yields published got)
    (entries : FiniteMap.Iteration
      (fun _ : Name => List Value))
    (iteration : HeaderIteration) (fresh : String)
    (id : UInt64) :
    ReceivedAs subject payload headers fresh
      (natsMsgToRaw library entries iteration fresh got
        id) := by
  unfold toPublish at hPublish
  cases hMap : headersToNats library order headers with
  | error error =>
      simp only [hMap] at hPublish
      cases hPublish
  | ok map =>
      simp only [hMap] at hPublish
      cases hPublish
      have hTexts :
          (map.entries.map (headerText library)).Perm
            ((order.order headers).entries.map pair) :=
        headerText_foldlM hCarries.toVerbatim []
          (order.order headers).nodupKeys
          (List.Perm.refl _) hMap
      have hSent := hTexts.trans
        ((order.perm headers).map pair)
      have hUntrimmed : ∀ header ∈ map.entries,
          Untrimmed (headerText library header).2 := by
        intro header hMem
        have hPair := hSent.mem_iff.mp
          (List.mem_map_of_mem hMem)
        rcases List.mem_map.mp hPair with
          ⟨sent, hEntry, hSame⟩
        rw [← hSame]
        exact hPlain _ _ (AList.mem_lookup_iff.mpr hEntry)
      rcases hCarries.headers _ _ _ hYields rfl hUntrimmed
        with ⟨map', hGot, hArrived⟩
      have hRead :
          ((entries.order map').entries.map
              (headerText library)).Perm
            (headers.entries.map pair) :=
        ((entries.perm map').map _).trans
          (hArrived.trans hSent)
      unfold natsMsgToRaw
      rw [hGot]
      refine ⟨hCarries.subject _ _ hYields,
        hCarries.payload _ _ hYields, _, ?_, rfl, rfl⟩
      intro name
      rw [iteration.lookup_order]
      exact lookup_collect_of_perm hRead name

/- A NATS bus carries a message with plain headers. -/
theorem carried_onNats
    {service : Service Name Value}
    (hCarries : service.Carries library)
    {order : HeaderIteration} {subject : String}
    {sent : RawMessage} {published got : Message Name Value}
    (hPlain : Plain (dispatchRawHeaders sent))
    (hPublish :
      toPublish library order subject sent.payload
          (some (dispatchRawHeaders sent)) =
        .ok published)
    (hYields : service.yields published got)
    (entries : FiniteMap.Iteration
      (fun _ : Name => List Value))
    (iteration : HeaderIteration) (fresh : String)
    (id : UInt64) :
    Carried sent
      (natsMsgToRaw library entries iteration fresh got
        id) := by
  have hReceived := receivedAs_of_yields hCarries hPlain
    hPublish hYields entries iteration fresh id
  apply carried_of_lookup hReceived.payload
  intro name hName
  rcases hReceived.ensured with ⟨seen, hSeen, _, hHeaders⟩
  unfold RawMessage.headers
  rw [hHeaders, Option.getD_some,
    lookup_ensureMessageId_of_not hName, hSeen]
  exact lookup_dispatchRawHeaders_of_other hName sent

end Nats

end Bus

end Qanat

------------------------------------------------------------
-- Identity
------------------------------------------------------------

namespace Qanat

namespace Bus

namespace Nats

variable {Name Value : Type} [DecidableEq Name]

/-
  Every receiver of the message that is dispatched and that
  the client takes, in all orders of iteration and with all
  fresh ids.
-/
def SurvivesNats
    (library : HeaderSyntax Name Value)
    (service : Service Name Value) (subject : String)
    (message : RawMessage) : Prop :=
  ∀ order published got entries iteration fresh id,
    toPublish library order subject message.payload
        (some (dispatchRawHeaders message)) =
      .ok published →
    service.publish published = .ok () →
    service.yields published got →
    ArrivesAs (fun name => name) message
      (natsMsgToRaw library entries iteration fresh got id)

variable {library : HeaderSyntax Name Value}
variable {service : Service Name Value}

theorem survivesNats_of_canonical
    (hCarries : service.Carries library)
    {subject : String} {message : RawMessage}
    (hPlain : Plain (dispatchRawHeaders message))
    (hId : message.envelope.messageId ≠ "")
    (hCanonical : CanonicalId message.headers) :
    SurvivesNats library service subject message := by
  intro order published got entries iteration fresh id
    hPublish _ hYields
  rcases (receivedAs_of_yields hCarries hPlain hPublish
      hYields entries iteration fresh id).ensured with
    ⟨seen, hSeen, hMessageId, hHeaders⟩
  have hSent :
      Identifies (dispatchRawHeaders message)
        message.envelope.messageId :=
    hCanonical.identifies_insert hId
  rcases (hSent.congr hSeen).ensured fresh with
    ⟨hFound, hKept⟩
  refine ⟨hMessageId.trans hFound, _, hHeaders, ?_, ?_⟩
  · rw [hKept, hSeen, hSent.lookup]
  · apply otherHeaders_perm
    intro name hName
    rw [hKept, hSeen, lookup_dispatchRawHeaders message hName]

/- The receiver drops all variants of the id. -/
theorem canonical_of_survivesNats
    (hCarries : service.Carries library)
    {order : HeaderIteration} {subject : String}
    {message : RawMessage} {published : Message Name Value}
    (hPlain : Plain (dispatchRawHeaders message))
    (hId : message.envelope.messageId ≠ "")
    (hPublish :
      toPublish library order subject message.payload
          (some (dispatchRawHeaders message)) =
        .ok published)
    (hTaken : service.publish published = .ok ())
    (hSurvives :
      SurvivesNats library service subject message) :
    CanonicalId message.headers := by
  rcases hCarries.reached published hTaken with
    ⟨got, hYields⟩
  rcases (receivedAs_of_yields hCarries hPlain hPublish
      hYields FiniteMap.Iteration.identity
      FiniteMap.Iteration.identity "" 0).ensured with
    ⟨seen, _, hMessageId, hHeaders⟩
  rcases hSurvives order published got
      FiniteMap.Iteration.identity
      FiniteMap.Iteration.identity "" 0 hPublish hTaken
      hYields with
    ⟨hSame, headers, hGot, _, hPerm⟩
  rw [hHeaders, Option.some.injEq] at hGot
  subst hGot
  rw [hMessageId] at hSame
  cases hFound : messageIdFromHeaders seen with
  | some id =>
      exact canonical_of_perm (fun _ _ => rfl)
        (identifies_ensureMessageId "" hFound).canonical
        hPerm
  | none =>
      -- the id that is made up would be the empty one
      unfold ensureMessageId at hSame
      rw [hFound] at hSame
      exact absurd hSame.symm hId

/-
  A NATS bus gives a message to its client exactly if the
  library accepts each of its headers, and publishes it if
  the client takes it.  If the values of its headers have no
  outer blanks, a message that is published then keeps its
  identity exactly if no header has the name of the id in
  another letter case.
-/
theorem identity_survives_nats_iff
    (hCarries : service.Carries library)
    (subject : String) (message : RawMessage)
    (hId : message.envelope.messageId ≠ "") :
    (∀ order,
      (∃ published,
        toPublish library order subject message.payload
            (some (dispatchRawHeaders message)) =
          .ok published) ↔
        ∀ name value,
          (dispatchRawHeaders message).lookup name =
              some value →
            Accepts library name value) ∧
      (∀ order,
        publishBytes library service.publish order subject
            message.payload
            (some (dispatchRawHeaders message)) = .ok () ↔
          ∃ published,
            toPublish library order subject message.payload
                (some (dispatchRawHeaders message)) =
              .ok published ∧
            service.publish published = .ok ()) ∧
      (Plain (dispatchRawHeaders message) →
        (∃ order,
          publishBytes library service.publish order subject
            message.payload
            (some (dispatchRawHeaders message)) = .ok ()) →
        (SurvivesNats library service subject message ↔
          CanonicalId message.headers)) := by
  refine ⟨?_, fun order => publishBytes_ok_iff, ?_⟩
  · intro order
    exact (toPublish_ok_iff order _ _ _).trans
      (headersToNats_ok_iff order _)
  · rintro hPlain ⟨order, hPublished⟩
    rcases publishBytes_ok_iff.mp hPublished with
      ⟨published, hPublish, hTaken⟩
    exact
      ⟨canonical_of_survivesNats hCarries hPlain hId
          hPublish hTaken,
        survivesNats_of_canonical hCarries hPlain hId⟩

/- Names without a colon and values of one line. -/
def sampleLibrary : HeaderSyntax String String where
  parseName text :=
    if text.toList.contains ':' then
      .error "invalid header name"
    else
      .ok text
  parseValue text :=
    if text.toList.contains '\n' then
      .error "invalid header value"
    else
      .ok text
  nameText := fun name => name
  valueText := fun value => value

theorem verbatim_sampleLibrary :
    sampleLibrary.Verbatim where
  name := by
    intro text parsed hParsed
    unfold sampleLibrary at hParsed
    dsimp only at hParsed
    split at hParsed
    · cases hParsed
    · cases hParsed
      rfl
  value := by
    intro text parsed hParsed
    unfold sampleLibrary at hParsed
    dsimp only at hParsed
    split at hParsed
    · cases hParsed
    · cases hParsed
      rfl

/- A server that hands a short message to its subscribers. -/
def sampleService : Service String String where
  publish message :=
    if message.payload.length ≤ 1048576 then
      .ok ()
    else
      .error "maximum payload exceeded"
  yields := fun published got => got = published

theorem carries_sampleService :
    sampleService.Carries sampleLibrary where
  toVerbatim := verbatim_sampleLibrary
  reached := fun published _ => ⟨published, rfl⟩
  subject := by
    rintro _ _ rfl
    rfl
  payload := by
    rintro _ _ rfl
    rfl
  headers := by
    rintro _ _ map rfl hHeaders _
    exact ⟨map, hHeaders, List.Perm.refl _⟩

theorem identity_survives_nats_iff_traced :
    SurvivesNats sampleLibrary sampleService "orders"
        (messageWithHeader "traceparent" "t") ∧
      publishBytes sampleLibrary sampleService.publish
          FiniteMap.Iteration.identity "orders" []
          (some (dispatchRawHeaders
            (messageWithHeader "traceparent" "t"))) =
        .ok () := by
  have hOnly : ∀ name value,
      (dispatchRawHeaders
          (messageWithHeader "traceparent" "t")).lookup
            name = some value →
        (name = messageIdHeader ∧ value = "m") ∨
          (name = "traceparent" ∧ value = "t") := by
    intro name value hLookup
    have hMem := AList.mem_lookup_iff.mp hLookup
    simpa [dispatchRawHeaders, messageWithHeader,
      RawMessage.headers, messageIdHeader] using hMem
  have hCanonical :
      CanonicalId
        (messageWithHeader "traceparent" "t").headers := by
    intro name hName hVariant
    cases hLookup : (messageWithHeader "traceparent"
        "t").headers.lookup name with
    | none => rfl
    | some value =>
        rw [← lookup_dispatchRawHeaders _ hName] at hLookup
        rcases hOnly name value hLookup with
          ⟨hSame, _⟩ | ⟨rfl, _⟩
        · exact absurd hSame hName
        · exact absurd hVariant (by decide)
  have hPlain :
      Plain (dispatchRawHeaders
        (messageWithHeader "traceparent" "t")) := by
    intro name value hLookup
    rcases hOnly name value hLookup with
      ⟨_, rfl⟩ | ⟨_, rfl⟩
    · exact rfl
    · exact rfl
  have hPublished :
      publishBytes sampleLibrary sampleService.publish
          FiniteMap.Iteration.identity "orders" []
          (some (dispatchRawHeaders
            (messageWithHeader "traceparent" "t"))) =
        .ok () := by
    rfl
  have hSurvives :=
    (identity_survives_nats_iff carries_sampleService
      "orders" (messageWithHeader "traceparent" "t")
      (by decide)).2.2
  exact ⟨(hSurvives hPlain ⟨_, hPublished⟩).mpr hCanonical,
    hPublished⟩

end Nats

end Bus

end Qanat
