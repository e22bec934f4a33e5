import Qanat.Library.Lists
import Qanat.Bus.MessageId
import Qanat.Http.ContentType

/-
  A message that an HTTP target sends and an HTTP source
  receives, with the HTTP libraries of both in between.

  The libraries send names in lower case.  The spellings of
  one name are then one name with several values, of which
  the source keeps the last that is visible text.

  Main declarations:
    * `HttpLibrary`, `HttpLibrary.Transfers`
    * `lookup_visibleHeaders`
    * `identity_survives_http_iff`
-/

------------------------------------------------------------
-- Requests on Their Way
------------------------------------------------------------

namespace Qanat

namespace Http

open Router (toAsciiLowercase)
open Bus (IsMessageId messageIdHeader)

/-
  What the HTTP libraries make of the texts of headers.  What
  can be sent may not be visible text when it is received.
  Some headers the libraries set themselves.
-/
structure HttpLibrary where
  acceptsName : String → Bool
  received : String → Option (Option String)
  sets : String → Bool

namespace HttpLibrary

/- A header as it is received. -/
def transmit
    (library : HttpLibrary)
    (header : Sigma (fun _ : String => String)) :
    String × Option String :=
  (toAsciiLowercase header.1,
    (library.received header.2).join)

/- The client library takes all the headers. -/
def Accepts (library : HttpLibrary) (headers : Headers) :
    Prop :=
  ∀ name value, headers.lookup name = some value →
    library.acceptsName name = true ∧
      (library.received value).isSome = true

/-
  The request that the server gets.  The values of a name
  stay in the order in which the client has added them, which
  is any order of its map.
-/
structure Transfers
    (library : HttpLibrary)
    (request : HttpRequest) (incoming : IncomingRequest) :
    Prop where
  accepted : library.Accepts request.headers
  body : incoming.body = some request.body
  headers :
    ∃ entries : List (Sigma (fun _ : String => String)),
      entries.Perm request.headers.entries ∧
      ∀ name, library.sets name = false →
        incoming.headers.filter
            (fun header => header.1 = name) =
          (entries.map library.transmit).filter
            (fun header => header.1 = name)

/- The visible values of the spellings of the message id. -/
def spellings
    (library : HttpLibrary)
    (entries : List (Sigma (fun _ : String => String))) :
    List String :=
  entries.filterMap (fun header =>
    if IsMessageId header.1 then
      (library.received header.2).join
    else
      none)

end HttpLibrary

theorem toAsciiLowercase_eq_messageIdHeader_iff
    (name : String) :
    toAsciiLowercase name = messageIdHeader ↔
      IsMessageId name = true := by
  have hLower :
      toAsciiLowercase messageIdHeader = messageIdHeader := by
    decide
  unfold IsMessageId Router.eqIgnoreAsciiCase
  rw [hLower, decide_eq_true_iff]

theorem filterMap_transmit
    (library : HttpLibrary)
    (entries : List (Sigma (fun _ : String => String))) :
    ((entries.map library.transmit).filter
        (fun header => header.1 = messageIdHeader)).filterMap
          (·.2) =
      library.spellings entries := by
  unfold HttpLibrary.spellings
  rw [List.filter_map, List.filterMap_map,
    List.filterMap_filter]
  apply List.filterMap_congr
  intro header _
  simp [HttpLibrary.transmit,
    toAsciiLowercase_eq_messageIdHeader_iff]

theorem lookup_visibleHeaders
    (request : IncomingRequest) (name : String) :
    (visibleHeaders request).lookup name =
      ((request.headers.filter
        (fun header => header.1 = name)).filterMap
          (·.2)).getLast? := by
  unfold visibleHeaders
  rw [Headers.lookup_collect, ← List.getLast?_map]
  congr 1
  induction request.headers with
  | nil => rfl
  | cons header rest ih =>
      rcases header with ⟨other, value⟩
      cases value with
      | none =>
          by_cases hSame : other = name
          · simpa [hSame] using ih
          · simpa [hSame] using ih
      | some value =>
          by_cases hSame : other = name
          · simpa [hSame] using ih
          · simpa [hSame] using ih

end Http

end Qanat

------------------------------------------------------------
-- Message Ids That Arrive
------------------------------------------------------------

namespace Qanat

namespace Http

open Router (RouteMessage replyToHeader toAsciiLowercase)
open Bus (HeaderIteration CanonicalId IsMessageId
  messageIdHeader messageIdFromHeaders ensureMessageId)

/- With one spelling only, no order counts. -/
theorem ensured_of_canonical
    {headers : Headers} (hCanonical : CanonicalId headers)
    (fresh : String) :
    (ensureMessageId fresh headers).1 =
      ((headers.lookup messageIdHeader).filter
        (fun value => !value.isEmpty)).getD fresh := by
  have hFound :
      messageIdFromHeaders headers =
        (headers.lookup messageIdHeader).filter
          (fun value => !value.isEmpty) := by
    unfold messageIdFromHeaders
    cases hLookup : headers.lookup messageIdHeader with
    | none =>
        rw [FiniteMap.find?_of_none]
        · rfl
        · intro name hName
          by_cases hSame : name = messageIdHeader
          · rw [hSame, hLookup]
          · exact hCanonical name hSame hName
    | some value =>
        rw [FiniteMap.find?_of_only hLookup
          Bus.isMessageId_canonical hCanonical]
        rfl
  unfold ensureMessageId
  rw [hFound]
  cases (headers.lookup messageIdHeader).filter
    (fun value => !value.isEmpty) <;> rfl

variable {library : HttpLibrary}
variable {request : HttpRequest} {incoming : IncomingRequest}

theorem not_sets_of_isMessageId
    (hSets : ∀ name, library.sets name = true →
      IsMessageId name = false)
    {name : String} (hName : IsMessageId name = true) :
    library.sets name = false := by
  rw [← Bool.not_eq_true]
  intro hSet
  rw [hSets name hSet] at hName
  cases hName

/- What is received has the names in lower case. -/
theorem canonicalId_of_transfers
    (hSets : ∀ name, library.sets name = true →
      IsMessageId name = false)
    (hTransfers : library.Transfers request incoming) :
    CanonicalId (visibleHeaders incoming) := by
  intro name hOther hName
  have hFree := not_sets_of_isMessageId hSets hName
  rcases hTransfers.headers with ⟨entries, _, hHeaders⟩
  have hNone :
      (entries.map library.transmit).filter
        (fun header => header.1 = name) = [] := by
    rw [List.filter_eq_nil_iff]
    intro header hMem hSame
    rcases List.mem_map.mp hMem with ⟨sent, _, rfl⟩
    have hLower : toAsciiLowercase sent.1 = name :=
      of_decide_eq_true hSame
    rw [← toAsciiLowercase_eq_messageIdHeader_iff, ← hLower,
      Router.toAsciiLowercase_idem, hLower] at hName
    exact hOther hName
  rw [lookup_visibleHeaders, hHeaders name hFree, hNone]
  rfl

/- The id of the message that is put on the channel. -/
theorem messageId_of_transfers
    (hSets : ∀ name, library.sets name = true →
      IsMessageId name = false)
    (hTransfers : library.Transfers request incoming)
    {entries : List (Sigma (fun _ : String => String))}
    (hHeaders : ∀ name, library.sets name = false →
      incoming.headers.filter
          (fun header => header.1 = name) =
        (entries.map library.transmit).filter
          (fun header => header.1 = name))
    {iteration : HeaderIteration} {fresh : String}
    {number : UInt64} {bodyLimit : Nat} {got : RouteMessage}
    (hGot :
      enqueueRequest iteration fresh number bodyLimit
          incoming =
        some got) :
    got.messageId =
      ((library.spellings entries).getLast?.filter
        (fun value => !value.isEmpty)).getD fresh := by
  rcases enqueueRequest_eq_some hGot with ⟨payload, rfl⟩
  have hFree :=
    not_sets_of_isMessageId hSets Bus.isMessageId_canonical
  have hCanonical := canonicalId_of_transfers hSets hTransfers
  change (ensureMessageId fresh
    (iteration.order (visibleHeaders incoming))).1 = _
  rw [ensured_of_canonical
    (hCanonical.congr (iteration.lookup_order _)),
    iteration.lookup_order, lookup_visibleHeaders,
    hHeaders _ hFree, filterMap_transmit]

end Http

end Qanat

------------------------------------------------------------
-- Identity over HTTP
------------------------------------------------------------

namespace Qanat

namespace Http

open Router (RouteMessage replyToHeader)
open Bus (HeaderIteration IsMessageId messageIdHeader)

variable {Ser De : Type → Type}

/- Whoever gets the request gives its message the id. -/
def SurvivesHttp
    (library : HttpLibrary) (request : HttpRequest)
    (id : String) : Prop :=
  ∀ incoming iteration fresh number bodyLimit got,
    library.Transfers request incoming →
    enqueueRequest iteration fresh number bodyLimit incoming =
      some got →
    got.messageId = id

/- A spelling of the message id is received as the text. -/
def HttpLibrary.Shows
    (library : HttpLibrary) (headers : Headers)
    (name text : String) : Prop :=
  IsMessageId name = true ∧ ∃ value,
    headers.lookup name = some value ∧
      library.received value = some (some text)

theorem mem_spellings_iff
    {library : HttpLibrary} {headers : Headers}
    {entries : List (Sigma (fun _ : String => String))}
    (hEntries : entries.Perm headers.entries)
    (text : String) :
    text ∈ library.spellings entries ↔
      ∃ name, library.Shows headers name text := by
  unfold HttpLibrary.spellings
  rw [List.mem_filterMap]
  constructor
  · rintro ⟨header, hMem, hText⟩
    split at hText
    · rename_i hName
      exact ⟨header.1, hName, header.2,
        AList.mem_lookup_iff.mpr (hEntries.mem_iff.mp hMem),
        Option.join_eq_some_iff.mp hText⟩
    · cases hText
  · rintro ⟨name, hName, value, hLookup, hReceived⟩
    refine ⟨⟨name, value⟩, hEntries.mem_iff.mpr
      (AList.mem_lookup_iff.mp hLookup), ?_⟩
    rw [if_pos hName, hReceived]
    rfl

/- An order of the client and what the server makes of it. -/
theorem last_of_survives
    {library : HttpLibrary} {request : HttpRequest}
    {id : String}
    (hSets : ∀ name, library.sets name = true →
      IsMessageId name = false)
    (hAccepts : library.Accepts request.headers)
    (hSurvives : SurvivesHttp library request id)
    {entries : List (Sigma (fun _ : String => String))}
    (hEntries : entries.Perm request.headers.entries) :
    (library.spellings entries).getLast? = some id := by
  have hTransfers : library.Transfers request
      { uri := request.url
        pathParameters := ∅
        headers := entries.map library.transmit
        body := some request.body } :=
    { accepted := hAccepts
      body := rfl
      headers := ⟨entries, hEntries, fun _ _ => rfl⟩ }
  -- a made-up id that is none of the others
  have hFresh : id ++ "x" ≠ id := by
    intro hSame
    have hLength := congrArg String.length hSame
    simp at hLength
  have hGot :
      enqueueRequest FiniteMap.Iteration.identity (id ++ "x")
          0 request.body.length
          { uri := request.url
            pathParameters := ∅
            headers := entries.map library.transmit
            body := some request.body } =
        some _ :=
    if_neg (Nat.lt_irrefl _)
  have hId := hSurvives _ _ _ _ _ _ hTransfers hGot
  rw [messageId_of_transfers hSets hTransfers
    (fun _ _ => rfl) hGot] at hId
  cases hLast : (library.spellings entries).getLast? with
  | none =>
      rw [hLast] at hId
      exact absurd hId hFresh
  | some text =>
      rw [hLast] at hId
      by_cases hEmpty : text = ""
      · subst hEmpty
        exact absurd hId hFresh
      · simpa [Option.filter, hEmpty] using hId

/- Other headers go into the request as they are. -/
theorem lookup_deliveryRequest
    (target : HttpTarget Ser De) (output : RouteMessage)
    {name : String}
    (hName : Headers.IsContentType name = false)
    (hOther : name ≠ replyToHeader) :
    (target.deliveryRequest output).headers.lookup name =
      output.headers.lookup name := by
  unfold HttpTarget.deliveryRequest
  rw [HttpTarget.lookup_request hName,
    AList.lookup_erase_ne hOther]

/- No spelling is added to those of the message. -/
theorem lookup_deliveryRequest_of_spelled
    (target : HttpTarget Ser De) {output : RouteMessage}
    {name other : String}
    (hSpelled : Router.toAsciiLowercase other = name)
    (hNe : other ≠ name)
    (hNone : output.headers.lookup other = none) :
    (target.deliveryRequest output).headers.lookup other =
      none := by
  rw [AList.lookup_eq_none] at hNone ⊢
  unfold HttpTarget.deliveryRequest
  rw [HttpTarget.mem_request_iff, AList.mem_erase]
  rintro (rfl | ⟨_, hMem⟩)
  · apply hNe
    rw [← hSpelled]
    decide
  · exact hNone hMem

theorem shows_deliveryRequest_iff
    {library : HttpLibrary} {target : HttpTarget Ser De}
    {output : RouteMessage} {name text : String} :
    library.Shows (target.deliveryRequest output).headers name
        text ↔
      library.Shows output.headers name text := by
  unfold HttpLibrary.Shows
  apply and_congr_right
  intro hName
  have hOther : name ≠ replyToHeader := by
    rintro rfl
    revert hName
    decide
  rw [lookup_deliveryRequest target output
    (Bus.isContentType_of_isMessageId hName) hOther]

theorem payload_of_transfers
    {library : HttpLibrary} {request : HttpRequest}
    {incoming : IncomingRequest}
    (hTransfers : library.Transfers request incoming)
    {iteration : HeaderIteration} {fresh : String}
    {number : UInt64} {bodyLimit : Nat} {got : RouteMessage}
    (hGot :
      enqueueRequest iteration fresh number bodyLimit
          incoming =
        some got) :
    got.payload = request.body := by
  unfold enqueueRequest at hGot
  rw [hTransfers.body] at hGot
  dsimp only at hGot
  split at hGot
  · cases hGot
  · cases hGot
    rfl

/- A header that is spelled in one way arrives. -/
theorem lookup_of_transfers
    {library : HttpLibrary} {request : HttpRequest}
    {incoming : IncomingRequest}
    (hTransfers : library.Transfers request incoming)
    {iteration : HeaderIteration} {fresh : String}
    {number : UInt64} {bodyLimit : Nat} {got : RouteMessage}
    (hGot :
      enqueueRequest iteration fresh number bodyLimit
          incoming =
        some got)
    {name value : String}
    (hFree : library.sets name = false)
    (hName : IsMessageId name = false)
    (hLower : Router.toAsciiLowercase name = name)
    (hLookup : request.headers.lookup name = some value)
    (hOnly : ∀ other, Router.toAsciiLowercase other = name →
      other ≠ name → request.headers.lookup other = none)
    (hVisible : library.received value = some (some value)) :
    got.headers.lookup name = some value := by
  rcases enqueueRequest_eq_some hGot with ⟨payload, rfl⟩
  rcases hTransfers.headers with ⟨entries, hPerm, hHeaders⟩
  change (Bus.ensureMessageId fresh
    (iteration.order (visibleHeaders incoming))).2.lookup
      name = _
  rw [Bus.lookup_ensureMessageId_of_not hName,
    iteration.lookup_order, lookup_visibleHeaders,
    hHeaders name hFree]
  apply Lists.getLast?_eq_of_forall
  · rw [List.mem_filterMap]
    refine ⟨(name, some value), ?_, rfl⟩
    rw [List.mem_filter]
    refine ⟨List.mem_map.mpr ⟨⟨name, value⟩, ?_, ?_⟩, ?_⟩
    · exact hPerm.mem_iff.mpr (AList.mem_lookup_iff.mp hLookup)
    · simp [HttpLibrary.transmit, hLower, hVisible]
    · simp
  · intro other hOther
    rcases List.mem_filterMap.mp hOther with
      ⟨header, hMem, hText⟩
    rcases List.mem_filter.mp hMem with ⟨hSent, hSame⟩
    rcases List.mem_map.mp hSent with ⟨sent, hEntry, rfl⟩
    have hSpelled : Router.toAsciiLowercase sent.1 = name :=
      of_decide_eq_true hSame
    have hFound :
        request.headers.lookup sent.1 = some sent.2 :=
      AList.mem_lookup_iff.mpr (hPerm.mem_iff.mp hEntry)
    by_cases hItself : sent.1 = name
    · rw [hItself, hLookup, Option.some.injEq] at hFound
      simp only [HttpLibrary.transmit, ← hFound, hVisible]
        at hText
      exact (Option.some.inj hText).symm
    · rw [hOnly sent.1 hSpelled hItself] at hFound
      cases hFound

/-
  The message that an HTTP target delivers keeps its id on
  its way into an HTTP source exactly if some spelling of the
  id's name shows it there and none shows anything else.  The
  payload arrives in any case, and so do other headers with
  one spelling, in lower case, and a visible value, the
  content type among them.
-/
theorem identity_survives_http_iff
    {library : HttpLibrary}
    (hSets : ∀ name, library.sets name = true →
      IsMessageId name = false)
    {target : HttpTarget Ser De} {output : RouteMessage}
    (hAccepts :
      library.Accepts (target.deliveryRequest output).headers)
    {id : String} (hId : id ≠ "") :
    (SurvivesHttp library (target.deliveryRequest output) id ↔
      (∃ name, library.Shows output.headers name id) ∧
        ∀ name text, library.Shows output.headers name text →
          text = id) ∧
    ∀ incoming iteration fresh number bodyLimit got,
      library.Transfers (target.deliveryRequest output)
          incoming →
      enqueueRequest iteration fresh number bodyLimit
          incoming =
        some got →
      got.payload = output.payload ∧
        got.headers.lookup messageIdHeader =
          some got.messageId ∧
        ∀ name value, library.sets name = false →
          IsMessageId name = false →
          name ≠ replyToHeader →
          Router.toAsciiLowercase name = name →
          output.headers.lookup name = some value →
          (∀ other, Router.toAsciiLowercase other = name →
            other ≠ name →
              output.headers.lookup other = none) →
          library.received value = some (some value) →
          got.headers.lookup name = some value := by
  refine ⟨⟨?_, ?_⟩, ?_⟩
  · intro hSurvives
    have hLast := last_of_survives hSets hAccepts hSurvives
      (List.Perm.refl _)
    have hMem := List.mem_of_getLast? hLast
    rcases (mem_spellings_iff (List.Perm.refl _) id).mp
        hMem with ⟨name, hShows⟩
    refine ⟨⟨name, shows_deliveryRequest_iff.mp hShows⟩, ?_⟩
    intro name' text hOther
    rcases shows_deliveryRequest_iff.mpr hOther with
      ⟨hName, value, hLookup, hReceived⟩
    -- the client may add this spelling last
    have hEntry :=
      AList.mem_lookup_iff.mp (Option.mem_def.mpr hLookup)
    have hPerm := (List.perm_cons_erase hEntry).symm
    have hLater := last_of_survives hSets hAccepts hSurvives
      ((List.perm_append_singleton _ _).trans hPerm)
    simpa [HttpLibrary.spellings, hName, hReceived]
      using hLater
  · rintro ⟨⟨name, hShows⟩, hOnly⟩
    intro incoming iteration fresh number bodyLimit got
      hTransfers hGot
    rcases hTransfers.headers with ⟨entries, hPerm, hHeaders⟩
    have hLast :
        (library.spellings entries).getLast? = some id := by
      apply Lists.getLast?_eq_of_forall
      · exact (mem_spellings_iff hPerm id).mpr
          ⟨name, shows_deliveryRequest_iff.mpr hShows⟩
      · intro text hMem
        rcases (mem_spellings_iff hPerm text).mp hMem with
          ⟨name', hOther⟩
        exact hOnly name' text
          (shows_deliveryRequest_iff.mp hOther)
    rw [messageId_of_transfers hSets hTransfers hHeaders hGot,
      hLast]
    simp [Option.filter, hId]
  · intro incoming iteration fresh number bodyLimit got
      hTransfers hGot
    refine ⟨payload_of_transfers hTransfers hGot, ?_, ?_⟩
    · rcases enqueueRequest_eq_some hGot with ⟨payload, rfl⟩
      exact Bus.lookup_ensureMessageId _ _
    intro name value hFree hName hReply hLower hLookup hOnly
      hVisible
    apply lookup_of_transfers hTransfers hGot hFree hName
      hLower _ _ hVisible
    · apply HttpTarget.lookup_request_of_mem
      rw [AList.lookup_erase_ne hReply, hLookup]
    · intro other hSpelled hNe
      exact lookup_deliveryRequest_of_spelled target hSpelled
        hNe (hOnly other hSpelled hNe)

/- Printable texts are visible, and others are not. -/
def printableLibrary : HttpLibrary where
  acceptsName name := !name.toList.contains ' '
  received value :=
    if value.toList.all
        (fun c => 32 ≤ c.toNat && c.toNat < 127) then
      some (some value)
    else
      some none
  sets name :=
    name == "host" || name == "content-length" ||
      name == "accept"

def eventMessage (headers : Headers) : RouteMessage where
  address := "/orders"
  id := 1
  messageId := "m"
  headers := headers.insert messageIdHeader "m"
  metadata := ∅
  attempts := 0
  payload := [1]

theorem accepts_of_entries
    {library : HttpLibrary} {headers : Headers}
    (hAll : ∀ header ∈ headers.entries,
      library.acceptsName header.1 = true ∧
        (library.received header.2).isSome = true) :
    library.Accepts headers :=
  fun _ _ hLookup => hAll _ (AList.mem_lookup_iff.mp hLookup)

/- The id arrives, unless it is beside another spelling. -/
theorem identity_survives_http_iff_events :
    SurvivesHttp printableLibrary
        (eventsTarget.deliveryRequest (eventMessage ∅)) "m" ∧
      ¬ SurvivesHttp printableLibrary
        (eventsTarget.deliveryRequest
          (eventMessage
            ((∅ : Headers).insert "Qanat-Message-Id" "n")))
        "m" := by
  have hSets : ∀ name, printableLibrary.sets name = true →
      IsMessageId name = false := by
    intro name hSet
    have hCases :
        name = "host" ∨ name = "content-length" ∨
          name = "accept" := by
      simpa [printableLibrary, or_assoc] using hSet
    rcases hCases with rfl | rfl | rfl <;> decide
  have hVisible :
      printableLibrary.received "m" = some (some "m") := by
    decide
  constructor
  · have hAccepts : printableLibrary.Accepts
        (eventsTarget.deliveryRequest
          (eventMessage ∅)).headers :=
      accepts_of_entries (by decide)
    refine (identity_survives_http_iff hSets hAccepts
      (by decide)).1.mpr ⟨⟨messageIdHeader, ?_⟩, ?_⟩
    · exact ⟨by decide, "m", by decide, hVisible⟩
    · rintro name text ⟨_, value, hLookup, hReceived⟩
      have hMem := AList.mem_lookup_iff.mp hLookup
      have hEntry : name = messageIdHeader ∧ value = "m" := by
        simpa [eventMessage] using hMem
      rw [hEntry.2, hVisible] at hReceived
      cases hReceived
      rfl
  · intro hSurvives
    have hAccepts : printableLibrary.Accepts
        (eventsTarget.deliveryRequest
          (eventMessage ((∅ : Headers).insert
            "Qanat-Message-Id" "n"))).headers :=
      accepts_of_entries (by decide)
    have hOnly := ((identity_survives_http_iff hSets hAccepts
      (by decide)).1.mp hSurvives).2
    have hSame := hOnly "Qanat-Message-Id" "n"
      ⟨by decide, "n", by decide, by decide⟩
    revert hSame
    decide

end Http

end Qanat
