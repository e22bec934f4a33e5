import Qanat.Bus.Identity
import Qanat.Bus.MessageId
import Qanat.Bus.Nng

/-
  What every byte-oriented bus keeps of a message on the way
  from who dispatches it to who receives it.

  The payload and the headers are kept, but for the message
  id, which a bus may replace, and the spelling of the
  content type.

  Main declarations:
    * `TypedAs`, `Carried`, `BrokerTarget.encode_eq_ok`
    * `carried_onRedis`, `carried_onNng`
    * `carried_onRabbitMq`
-/

------------------------------------------------------------
-- Carried Messages
------------------------------------------------------------

namespace Qanat

namespace Bus

/- The headers have this content type and no other. -/
structure TypedAs (headers : Headers) (value : String) :
    Prop where
  lookup : headers.lookup "content-type" = some value
  only : ∀ name, name ≠ "content-type" →
    Headers.IsContentType name = true →
      headers.lookup name = none

/- `got` is received for `sent`. -/
structure Carried (sent got : RawMessage) : Prop where
  payload : got.payload = sent.payload
  headers : ∀ name, IsMessageId name = false →
    Headers.IsContentType name = false →
      got.headers.lookup name = sent.headers.lookup name
  contentType : ∀ value, TypedAs sent.headers value →
    Headers.contentType got.headers = some value

theorem typedAs_setContentType
    (headers : Headers) (value : String) :
    TypedAs (Headers.setContentType headers value) value where
  lookup := AList.lookup_insert _
  only := by
    intro name hName hType
    rw [AList.lookup_eq_none,
      Headers.mem_setContentType_iff hType]
    exact hName

theorem TypedAs.congr
    {headers headers' : Headers} {value : String}
    (hTyped : TypedAs headers value)
    (hLookup : ∀ name, Headers.IsContentType name = true →
      headers'.lookup name = headers.lookup name) :
    TypedAs headers' value where
  lookup := by
    rw [hLookup _ Headers.isContentType_canonical,
      hTyped.lookup]
  only := by
    intro name hName hType
    rw [hLookup name hType, hTyped.only name hName hType]

/- It is found in every order of iteration. -/
theorem TypedAs.contentType_eq
    {headers : Headers} {value : String}
    (hTyped : TypedAs headers value) :
    Headers.contentType headers = some value := by
  unfold Headers.contentType
  rw [FiniteMap.find?_of_only hTyped.lookup
    Headers.isContentType_canonical hTyped.only]
  rfl

/- Where the same message is routed. -/
theorem Carried.refl (message : RawMessage) :
    Carried message message where
  payload := rfl
  headers := fun _ _ _ => rfl
  contentType := fun _ hTyped => hTyped.contentType_eq

/- A content type is no message id. -/
theorem isMessageId_of_isContentType
    {name : String}
    (hType : Headers.IsContentType name = true) :
    IsMessageId name = false := by
  cases hId : IsMessageId name with
  | false => rfl
  | true =>
      rw [isContentType_of_isMessageId hId] at hType
      cases hType

/- Headers that are all kept but for the message id. -/
theorem carried_of_lookup
    {sent got : RawMessage}
    (hPayload : got.payload = sent.payload)
    (hLookup : ∀ name, IsMessageId name = false →
      got.headers.lookup name = sent.headers.lookup name) :
    Carried sent got where
  payload := hPayload
  headers := fun name hName _ => hLookup name hName
  contentType := by
    intro value hTyped
    apply TypedAs.contentType_eq
    apply hTyped.congr
    intro name hType
    exact hLookup name (isMessageId_of_isContentType hType)

theorem lookup_dispatchRawHeaders_of_other
    {name : String} (hName : IsMessageId name = false)
    (message : RawMessage) :
    (dispatchRawHeaders message).lookup name =
      message.headers.lookup name := by
  apply lookup_dispatchRawHeaders
  rintro rfl
  rw [isMessageId_canonical] at hName
  cases hName

end Bus

end Qanat

------------------------------------------------------------
-- The Buses
------------------------------------------------------------

namespace Qanat

namespace Bus

/- A frame that does not overflow is rebuilt. -/
theorem carried_of_frame
    {subject : String} {headers : Option Headers}
    (hFits : Wire.Fits subject headers)
    {message : RawMessage}
    (hHeaders : ∀ name, IsMessageId name = false →
      (headers.getD ∅).lookup name =
        message.headers.lookup name)
    (order iteration : HeaderIteration) (fresh : String)
    (id : UInt64) :
    ∃ got,
      receiveFrame iteration fresh id
          (publishFrame order subject message.payload
            headers) =
        some got ∧
      Carried message got := by
  rcases receiveFrame_of_fits hFits order message.payload with
    ⟨decoded, hLookup, hReceived⟩
  refine ⟨_, hReceived iteration fresh id, ?_⟩
  apply carried_of_lookup
  · rfl
  intro name hName
  change (ensureMessageId fresh
    (iteration.order decoded)).2.lookup name = _
  rw [lookup_ensureMessageId_of_not hName,
    iteration.lookup_order, hLookup, hHeaders name hName]

theorem carried_onRedis
    {subject : String} {message : RawMessage}
    (hFits :
      Wire.Fits subject (some (dispatchRawHeaders message)))
    (order iteration : HeaderIteration) (fresh : String)
    (id : UInt64) :
    ∃ got,
      Redis.receive iteration fresh id
          (Redis.publishBytes order subject message.payload
            (some (dispatchRawHeaders message))) =
        some got ∧
      Carried message got :=
  carried_of_frame hFits
    (fun _ hName =>
      lookup_dispatchRawHeaders_of_other hName message)
    order iteration fresh id

/- On an NNG bus, on the own node and on every other one. -/
theorem carried_onNng
    {socket : Bytes → Except BusError Unit}
    {order : HeaderIteration} {subject : String}
    {message : RawMessage} {sent : Nng.Sent}
    (hFits : Wire.Fits subject message.envelope.headers)
    (hSent :
      Nng.dispatchRaw socket order subject message =
        .ok sent)
    (iteration : HeaderIteration) (fresh : String)
    (id : UInt64) :
    Carried message sent.routed ∧
      ∃ got,
        Nng.receive iteration fresh id sent.frame =
          some got ∧
        Carried message got := by
  have hEq := Nng.dispatchRaw_eq_ok hSent
  subst hEq
  exact ⟨Carried.refl message,
    carried_of_frame hFits (fun _ _ => rfl) order iteration
      fresh id⟩

/- A delivery has the headers of its table, but for the id. -/
theorem lookup_deliveryToRaw
    {published : RabbitMq.Published}
    {second third : HeaderIteration} {table : Headers}
    (hProperties :
      published.properties =
        RabbitMq.tableProperties second third table)
    (iteration : HeaderIteration) (fresh : String)
    (redelivered : Bool) (id : UInt64)
    {name : String} (hName : IsMessageId name = false) :
    (RabbitMq.deliveryToRaw iteration fresh published
        redelivered id).headers.lookup name =
      (RabbitMq.typedHeaders
        (RabbitMq.tableProperties second third
          table)).lookup name := by
  have hNe : name ≠ messageIdHeader := by
    rintro rfl
    rw [isMessageId_canonical] at hName
    cases hName
  have hInbound :
      ∃ headers,
        RabbitMq.propertiesToHeaders published.properties =
            some headers ∧
          headers.lookup name =
            (RabbitMq.typedHeaders
              (RabbitMq.tableProperties second third
                table)).lookup name := by
    rw [hProperties]
    unfold RabbitMq.propertiesToHeaders
    rw [if_neg (by simp [RabbitMq.tableProperties])]
    refine ⟨_, rfl, ?_⟩
    split
    · exact AList.lookup_insert_ne hNe
    · rfl
  rcases hInbound with ⟨headers, hHeaders, hLookup⟩
  unfold RabbitMq.deliveryToRaw
    RabbitMq.ensureInboundMessageId RawMessage.headers
  rw [hHeaders, ← hLookup]
  dsimp only
  split
  · rfl
  · exact AList.lookup_insert_ne hNe

/- Every delivery of a message by a RabbitMQ broker. -/
theorem carried_onRabbitMq
    {first second third : HeaderIteration}
    {fresh subject : String} {message : RawMessage}
    {published : RabbitMq.Published}
    (hPublished :
      RabbitMq.publishBytes first second third fresh subject
          message.payload (some (dispatchRawHeaders message)) =
        some published)
    (iteration : HeaderIteration) (fresh' : String)
    (redelivered : Bool) (id : UInt64) :
    Carried message
      (RabbitMq.deliveryToRaw iteration fresh' published
        redelivered id) := by
  rcases RabbitMq.publishBytes_eq_some_iff.mp hPublished with
    ⟨rfl, _⟩
  have hTable : ∀ name, IsMessageId name = false →
      (sentTable first fresh message).lookup name =
        message.headers.lookup name := by
    intro name hName
    unfold sentTable
    rw [lookup_ensureMessageId_of_not hName,
      first.lookup_order,
      lookup_dispatchRawHeaders_of_other hName]
  refine ⟨rfl, ?_, ?_⟩
  · intro name hName hType
    rw [lookup_deliveryToRaw rfl _ _ _ _ hName,
      lookup_typedHeaders hType]
    exact hTable name hName
  · intro value hTyped
    have hSent :
        TypedAs (sentTable first fresh message) value :=
      hTyped.congr (fun name hType =>
        hTable name (isMessageId_of_isContentType hType))
    have hFound :
        Headers.contentType
            (second.order (sentTable first fresh message)) =
          some value :=
      (hSent.congr (fun name _ =>
        second.lookup_order _ name)).contentType_eq
    apply TypedAs.contentType_eq
    apply (typedAs_setContentType
      (sentTable first fresh message) value).congr
    intro name hType
    rw [lookup_deliveryToRaw rfl _ _ _ _
        (isMessageId_of_isContentType hType),
      RabbitMq.typedHeaders_tableProperties]
    unfold sentTable at hFound ⊢
    rw [Option.getD_some, hFound]

end Bus

end Qanat

------------------------------------------------------------
-- Encoded Messages
------------------------------------------------------------

namespace Qanat

namespace Bus

namespace BrokerTarget

variable {Ser De : Type → Type} {Value : Type}

/- What is encoded has the content type that a bus carries. -/
theorem encode_eq_ok
    {target : BrokerTarget Ser De} {ser : Ser Value}
    {value : Value}
    {message encoded : Router.RouteMessage}
    (hEncode :
      target.encode ser value message = .ok encoded) :
    target.codec.encode ser value = .ok encoded.payload ∧
      (target.bus.supportsContentTypeHeaders = true →
        TypedAs encoded.headers target.codec.contentType) := by
  unfold encode at hEncode
  split at hEncode
  · cases hEncode
  · rename_i hBytes
    cases hEncode
    refine ⟨hBytes, ?_⟩
    intro hCarries
    simp only [if_pos hCarries]
    exact typedAs_setContentType _ _

end BrokerTarget

end Bus

end Qanat
