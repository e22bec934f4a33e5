import Qanat.Bus.Adapter
import Qanat.Http.Adapter

/-
  The content types of what leaves the library.

  The ways to the outside that encode a value replace all
  spellings of the header; a plain `send` sees only one of
  them.

  Main declarations:
    * `Headers.OnlyContentType`
    * `HttpTarget.deliveryRequest`, `HttpTarget.SendsOne`
    * `HttpTarget.sendsOne_iff`
    * `one_content_type_iff`
-/

------------------------------------------------------------
-- One Content Type
------------------------------------------------------------

namespace Qanat

namespace Headers

/- One name is a content type, in any letter case. -/
def HasOneContentType (headers : Headers) : Prop :=
  ∃! name, IsContentType name = true ∧ name ∈ headers

/- It is the only one and has the value. -/
def OnlyContentType
    (headers : Headers) (value : String) : Prop :=
  HasOneContentType headers ∧
    contentType headers = some value

theorem onlyContentType_of_lookup
    {headers : Headers} {value : String}
    (hLookup : headers.lookup "content-type" = some value)
    (hOnly : ∀ name ∈ headers, IsContentType name = true →
      name = "content-type") :
    OnlyContentType headers value := by
  have hMem : "content-type" ∈ headers := by
    rw [← AList.lookup_isSome, hLookup]
    rfl
  constructor
  · refine ⟨"content-type",
      ⟨isContentType_canonical, hMem⟩, ?_⟩
    rintro name ⟨hName, hThere⟩
    exact hOnly name hThere hName
  · unfold contentType
    rw [FiniteMap.find?_of_only hLookup
      isContentType_canonical]
    · rfl
    · intro name hOther hName
      rw [AList.lookup_eq_none]
      exact fun hThere => hOther (hOnly name hThere hName)

theorem onlyContentType_setContentType
    (headers : Headers) (value : String) :
    OnlyContentType (setContentType headers value) value := by
  apply onlyContentType_of_lookup
  · exact AList.lookup_insert _
  · intro name hMem hName
    exact (mem_setContentType_iff hName).mp hMem

/- Headers of other names may leave. -/
theorem OnlyContentType.erase
    {headers : Headers} {value name : String}
    (hOnly : OnlyContentType headers value)
    (hName : IsContentType name = false) :
    OnlyContentType (headers.erase name) value := by
  have hKept : ∀ other, IsContentType other = true →
      (other ∈ headers.erase name ↔ other ∈ headers) := by
    intro other hOther
    rw [AList.mem_erase]
    refine and_iff_right ?_
    rintro rfl
    rw [hName] at hOther
    cases hOther
  rcases hOnly with ⟨⟨type, ⟨hType, hMem⟩, hUnique⟩, hValue⟩
  constructor
  · refine ⟨type, ⟨hType, (hKept type hType).mpr hMem⟩, ?_⟩
    rintro other ⟨hOther, hThere⟩
    exact hUnique other
      ⟨hOther, (hKept other hOther).mp hThere⟩
  · rwa [contentType_erase_of_not hName]

/- The only content type is the one that is looked up. -/
theorem contentType_of_hasOne
    {headers : Headers} {name value : String}
    (hOne : HasOneContentType headers)
    (hName : IsContentType name = true)
    (hLookup : headers.lookup name = some value) :
    contentType headers = some value := by
  unfold contentType
  rw [FiniteMap.find?_of_only hLookup hName]
  · rfl
  · intro other hOther hType
    rw [AList.lookup_eq_none]
    intro hMem
    apply hOther
    apply hOne.unique ⟨hType, hMem⟩
    refine ⟨hName, ?_⟩
    rw [← AList.lookup_isSome, hLookup]
    rfl

end Headers

end Qanat

------------------------------------------------------------
-- Requests
------------------------------------------------------------

namespace Qanat

namespace Http

namespace HttpTarget

open Router (RouteMessage replyToHeader)

variable {Ser De : Type → Type} {Value : Type}

/- The request that `deliver` makes. -/
def deliveryRequest
    (target : HttpTarget Ser De) (output : RouteMessage) :
    HttpRequest :=
  target.request output.payload
    (output.headers.erase replyToHeader)

theorem deliver_eq
    (target : HttpTarget Ser De) (output : RouteMessage) :
    target.deliver output =
      match target.invoker (target.deliveryRequest output) with
      | .error error => .error error
      | .ok response =>
          if IsSuccess response then .ok ()
          else .error (.backend (.http response)) := by
  unfold deliver send deliveryRequest
  cases target.invoker (target.request output.payload
      (output.headers.erase replyToHeader)) with
  | error error => rfl
  | ok response =>
      dsimp only
      split <;> rfl

/-
  A request that is sent has one content type, which is that
  of the caller if there was one.
-/
def SendsOne
    (target : HttpTarget Ser De) (body : Bytes)
    (headers : Headers) : Prop :=
  Headers.HasOneContentType
      (target.request body headers).headers ∧
    ∀ name value, Headers.IsContentType name = true →
      headers.lookup name = some value →
        Headers.contentType
            (target.request body headers).headers =
          some value

/- What was there under a name of its own is kept. -/
theorem mem_request_iff
    {target : HttpTarget Ser De} {body : Bytes}
    {headers : Headers} {name : String} :
    name ∈ (target.request body headers).headers ↔
      name = "content-type" ∨ name ∈ headers := by
  unfold request
  dsimp only
  by_cases hThere : (headers.lookup "content-type").isSome
  · rw [if_pos hThere]
    refine (or_iff_right_of_imp ?_).symm
    rintro rfl
    exact AList.lookup_isSome.mp hThere
  · rw [if_neg hThere, AList.mem_insert]

theorem lookup_request_of_mem
    {target : HttpTarget Ser De} {body : Bytes}
    {headers : Headers} {name value : String}
    (hLookup : headers.lookup name = some value) :
    (target.request body headers).headers.lookup name =
      some value := by
  unfold request
  dsimp only
  by_cases hThere : (headers.lookup "content-type").isSome
  · rw [if_pos hThere, hLookup]
  · rw [if_neg hThere]
    have hNe : name ≠ "content-type" := by
      rintro rfl
      rw [hLookup] at hThere
      exact hThere rfl
    rw [AList.lookup_insert_ne hNe, hLookup]

/- Only the spelling in lower case is looked for. -/
theorem sendsOne_iff
    (target : HttpTarget Ser De) (body : Bytes)
    (headers : Headers) :
    target.SendsOne body headers ↔
      ∀ name ∈ headers, Headers.IsContentType name = true →
        name = "content-type" := by
  constructor
  · rintro ⟨hOne, _⟩ name hMem hName
    exact hOne.unique
      ⟨hName, mem_request_iff.mpr (Or.inr hMem)⟩
      ⟨Headers.isContentType_canonical,
        mem_request_iff.mpr (Or.inl rfl)⟩
  · intro hOnly
    have hOne : Headers.HasOneContentType
        (target.request body headers).headers := by
      refine ⟨"content-type",
        ⟨Headers.isContentType_canonical,
          mem_request_iff.mpr (Or.inl rfl)⟩, ?_⟩
      rintro name ⟨hName, hMem⟩
      rcases mem_request_iff.mp hMem with hSame | hThere
      · exact hSame
      · exact hOnly name hThere hName
    refine ⟨hOne, ?_⟩
    intro name value hName hLookup
    exact Headers.contentType_of_hasOne hOne hName
      (lookup_request_of_mem hLookup)

/- An encoded value is delivered with the type of its codec. -/
theorem onlyContentType_deliveryRequest
    {target : HttpTarget Ser De} {ser : Ser Value}
    {value : Value} {message encoded : RouteMessage}
    (hEncode :
      target.encode ser value message = .ok encoded) :
    target.codec.encode ser value =
        .ok (target.deliveryRequest encoded).body ∧
      Headers.OnlyContentType
        (target.deliveryRequest encoded).headers
        target.codec.contentType := by
  unfold encode at hEncode
  split at hEncode
  · cases hEncode
  · rename_i payload hPayload
    cases hEncode
    refine ⟨hPayload, ?_⟩
    have hReply :
        Headers.IsContentType replyToHeader = false := by
      decide
    have hOnly :=
      (Headers.onlyContentType_setContentType
        message.headers target.codec.contentType).erase hReply
    have hThere :
        ((Headers.setContentType message.headers
            target.codec.contentType).erase
          replyToHeader).lookup "content-type" =
          some target.codec.contentType := by
      rw [AList.lookup_erase_ne (by decide)]
      exact AList.lookup_insert _
    unfold deliveryRequest request
    rw [if_pos (by rw [hThere]; rfl)]
    exact hOnly

end HttpTarget

end Http

end Qanat

------------------------------------------------------------
-- Everything that Leaves
------------------------------------------------------------

namespace Qanat

namespace Http

open Router (RouteMessage)
open Bus (ExternalBus)

variable {Ser De : Type → Type} {Value : Type}

/-
  A value that is encoded for a target or published on a bus
  has the content type of its codec and no other.  A body
  that is sent has one exactly if the caller's headers have
  no other spelling than that in lower case.
-/
theorem one_content_type_iff
    (target : HttpTarget Ser De) (bus : ExternalBus)
    (codec : Codec Ser De) :
    (∀ body headers,
      target.SendsOne body headers ↔
        ∀ name ∈ headers, Headers.IsContentType name = true →
          name = "content-type") ∧
    (∀ (ser : Ser Value) (value : Value)
        (message encoded : RouteMessage),
      target.encode ser value message = .ok encoded →
        (target.deliver encoded =
            match
              target.invoker (target.deliveryRequest encoded)
            with
            | .error error => .error error
            | .ok response =>
                if IsSuccess response then .ok ()
                else .error (.backend (.http response))) ∧
          target.codec.encode ser value =
            .ok (target.deliveryRequest encoded).body ∧
          Headers.OnlyContentType
            (target.deliveryRequest encoded).headers
            target.codec.contentType) ∧
    (bus.supportsContentTypeHeaders = true →
      ∀ (fresh subject : String) (ser : Ser Value)
          (value : Value) (headers : Option Headers),
        bus.publish codec fresh subject ser value headers =
            (match codec.encode ser value with
            | .error error => .failed error
            | .ok payload =>
                bus.publishBytes subject payload
                  (some (bus.publishHeaders codec fresh
                    headers))) ∧
          Headers.OnlyContentType
            (bus.publishHeaders codec fresh headers)
            codec.contentType) := by
  refine ⟨target.sendsOne_iff, ?_, ?_⟩
  · intro ser value message encoded hEncode
    exact ⟨target.deliver_eq encoded,
      target.onlyContentType_deliveryRequest hEncode⟩
  · intro hCapable fresh subject ser value headers
    constructor
    · rfl
    · unfold ExternalBus.publishHeaders
      rw [if_pos hCapable]
      exact Headers.onlyContentType_setContentType _ _

/- A target for bodies that are encoded already. -/
def eventsTarget :
    HttpTarget (fun _ => Unit) (fun _ => Unit) where
  method := .post
  url := "/events"
  invoker := fun _ =>
    .ok { status := 202, headers := ∅, body := [] }
  codec :=
    { encode := fun _ _ => .ok [1]
      decode := fun _ _ => .error (.serialization "no value") }

/- The header as callers usually spell it. -/
def spelledHeaders : Headers :=
  (∅ : Headers).insert "Content-Type" "application/json"

/- It is sent beside a second content type. -/
theorem spelled_content_type_sent_twice :
    ¬ eventsTarget.SendsOne [] spelledHeaders := by
  rintro ⟨hOne, _⟩
  have hSpelled :
      Headers.IsContentType "Content-Type" = true ∧
        "Content-Type" ∈
          (eventsTarget.request [] spelledHeaders).headers := by
    decide
  have hOwn :
      Headers.IsContentType "content-type" = true ∧
        "content-type" ∈
          (eventsTarget.request [] spelledHeaders).headers := by
    decide
  have hSame := hOne.unique hSpelled hOwn
  revert hSame
  decide

end Http

end Qanat
