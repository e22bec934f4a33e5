import Qanat.Bus.Adapter
import Qanat.Bus.Nats
import Qanat.CodecSelection

/-
  Brokers as the sources of routes, and what a source reads
  of what a target has written on the same bus.

  A source looks at the content type of a message only where
  its bus carries content types, and a target sets it only
  there, so both ends have to go by the same rule.

  Main declarations:
    * `BrokerSource`, `BusKind`
    * `Hop`, `carried_of_hop`
    * `Reads`, `decode_of_hop`
-/

------------------------------------------------------------
-- Sources
------------------------------------------------------------

namespace Qanat

namespace Bus

open Router (RouteMessage RouteSource DeliveryDecision)

/- The pattern and the group it subscribes to are left out. -/
structure BrokerSource (Ser De : Type → Type) where
  bus : MessageBus
  codec : HeaderAwareCodec Ser De

namespace BrokerSource

variable {Ser De : Type → Type} {Value : Type}

def decode
    (source : BrokerSource Ser De) (de : De Value)
    (message : RouteMessage) : Except BusError Value :=
  let hint :=
    if source.bus.supportsContentTypeHeaders then
      Headers.contentType message.headers
    else
      none
  source.codec.decodeWithContentType de message.payload hint

def settle
    (source : BrokerSource Ser De) (message : RouteMessage)
    (decision : DeliveryDecision) : Except BusError Unit :=
  source.bus.settle message.id decision

def toRouteSource
    (source : BrokerSource Ser De) (de : De Value) :
    RouteSource Value where
  decode := source.decode de
  settle := source.settle

/- The codec is selected by the content type, if it counts. -/
theorem decode_eq
    {source : BrokerSource Ser De} {message : RouteMessage}
    {name : String} {codec : Codec Ser De}
    (hSelect : source.codec.codecs.select name = some codec)
    (hCarries :
      source.bus.supportsContentTypeHeaders = true →
        Headers.contentType message.headers = some name)
    (hDefault :
      source.bus.supportsContentTypeHeaders = false →
        source.codec.default = name)
    (de : De Value) :
    source.decode de message =
      codec.decode de message.payload := by
  unfold decode HeaderAwareCodec.decodeWithContentType
  rw [CodecCollection.decodeSelected_eq]
  cases hFlag : source.bus.supportsContentTypeHeaders with
  | true =>
      simp only [if_pos, hCarries hFlag, Option.getD_some,
        hSelect]
  | false =>
      simp only [Bool.false_eq_true, if_false,
        Option.getD_none, hDefault hFlag, hSelect]

end BrokerSource

end Bus

end Qanat

------------------------------------------------------------
-- Hops
------------------------------------------------------------

namespace Qanat

namespace Bus

/- The buses that move bytes. -/
inductive BusKind where
| redis
| nng
| rabbitMq
| nats
deriving DecidableEq

def BusKind.supportsContentTypeHeaders : BusKind → Bool
| .redis => false
| .nng => false
| .rabbitMq => true
| .nats => true

/-
  A bus is given a message by `dispatch_raw`, and one of its
  subscribers receives it.  An NNG bus routes a message on
  the own node as it is; a frame must not overflow, a NATS
  client has to take the message, whose header values have
  no outer blanks, and what AMQP keeps in short strings has
  been short enough to be published.
-/
inductive Hop
    {Name Value : Type} [DecidableEq Name]
    (library : Nats.HeaderSyntax Name Value)
    (service : Nats.Service Name Value) :
    BusKind → String → RawMessage → RawMessage → Prop where
| redis
    {subject : String} {sent got : RawMessage}
    (order iteration : HeaderIteration) (fresh : String)
    (id : UInt64) :
    Wire.Fits subject (some (dispatchRawHeaders sent)) →
    Redis.receive iteration fresh id
        (Redis.publishBytes order subject sent.payload
          (some (dispatchRawHeaders sent))) =
      some got →
    Hop library service .redis subject sent got
| nngLocal
    {subject : String} {sent : RawMessage} {out : Nng.Sent}
    (socket : Bytes → Except BusError Unit)
    (order : HeaderIteration) :
    Nng.dispatchRaw socket order subject sent = .ok out →
    Hop library service .nng subject sent out.routed
| nngRemote
    {subject : String} {sent got : RawMessage}
    {out : Nng.Sent}
    (socket : Bytes → Except BusError Unit)
    (order iteration : HeaderIteration) (fresh : String)
    (id : UInt64) :
    Wire.Fits subject sent.envelope.headers →
    Nng.dispatchRaw socket order subject sent = .ok out →
    Nng.receive iteration fresh id out.frame = some got →
    Hop library service .nng subject sent got
| rabbitMq
    {subject : String} {sent : RawMessage}
    {published : RabbitMq.Published}
    (first second third iteration : HeaderIteration)
    (fresh fresh' : String) (redelivered : Bool)
    (id : UInt64) :
    RabbitMq.publishBytes first second third fresh subject
        sent.payload (some (dispatchRawHeaders sent)) =
      some published →
    Hop library service .rabbitMq subject sent
      (RabbitMq.deliveryToRaw iteration fresh' published
        redelivered id)
| nats
    {subject : String} {sent : RawMessage}
    {published got : Nats.Message Name Value}
    (order iteration : HeaderIteration)
    (entries : FiniteMap.Iteration
      (fun _ : Name => List Value))
    (fresh : String) (id : UInt64) :
    Nats.Plain (dispatchRawHeaders sent) →
    Nats.toPublish library order subject sent.payload
        (some (dispatchRawHeaders sent)) =
      .ok published →
    service.publish published = .ok () →
    service.yields published got →
    Hop library service .nats subject sent
      (Nats.natsMsgToRaw library entries iteration fresh
        got id)

/- All of them carry what they are given. -/
theorem carried_of_hop
    {Name Value : Type} [DecidableEq Name]
    {library : Nats.HeaderSyntax Name Value}
    {service : Nats.Service Name Value}
    (hCarries : service.Carries library)
    {kind : BusKind} {subject : String}
    {sent got : RawMessage}
    (hHop : Hop library service kind subject sent got) :
    Carried sent got := by
  cases hHop with
  | redis order iteration fresh id hFits hReceive =>
      rcases carried_onRedis hFits order iteration fresh id
        with ⟨got', hReceive', hCarried⟩
      rw [hReceive', Option.some.injEq] at hReceive
      exact hReceive ▸ hCarried
  | nngLocal socket order hSent =>
      rw [Nng.dispatchRaw_eq_ok hSent]
      exact Carried.refl sent
  | nngRemote socket order iteration fresh id hFits hSent
      hReceive =>
      rcases (carried_onNng hFits hSent iteration fresh id).2
        with ⟨got', hReceive', hCarried⟩
      rw [hReceive', Option.some.injEq] at hReceive
      exact hReceive ▸ hCarried
  | rabbitMq first second third iteration fresh fresh'
      redelivered id hPublished =>
      exact carried_onRabbitMq hPublished iteration fresh'
        redelivered id
  | nats order iteration entries fresh id hPlain hPublish
      hTaken hYields =>
      exact Nats.carried_onNats hCarries hPlain hPublish
        hYields entries iteration fresh id

end Bus

end Qanat

------------------------------------------------------------
-- Reading What Was Written
------------------------------------------------------------

namespace Qanat

namespace Bus

open Router (RouteMessage replyToHeader)

variable {Ser De : Type → Type} {Value : Type}

/-
  The source finds a codec for the messages of the target on
  a bus of this kind, and what the target encodes is decoded
  to a value that is the same up to `Same`.  A format may
  forget, for example, how wide a number was.
-/
structure Reads
    (Same : Value → Value → Prop) (kind : BusKind)
    (target : BrokerTarget Ser De) (ser : Ser Value)
    (source : BrokerSource Ser De) (de : De Value) :
    Prop where
  sends :
    target.bus.supportsContentTypeHeaders =
      kind.supportsContentTypeHeaders
  receives :
    source.bus.supportsContentTypeHeaders =
      kind.supportsContentTypeHeaders
  decodes :
    ∃ codec,
      source.codec.codecs.select
          (if kind.supportsContentTypeHeaders then
            target.codec.contentType
          else
            source.codec.default) =
        some codec ∧
      ∀ value bytes,
        target.codec.encode ser value = .ok bytes →
          ∃ value', codec.decode de bytes = .ok value' ∧
            Same value value'

/-
  What a target has encoded, dispatched with some other
  headers, is read by a source of the same bus.
-/
theorem decode_of_hop
    {Name HeaderValue : Type} [DecidableEq Name]
    {library : Nats.HeaderSyntax Name HeaderValue}
    {service : Nats.Service Name HeaderValue}
    (hCarries : service.Carries library)
    {Same : Value → Value → Prop} {kind : BusKind}
    {target : BrokerTarget Ser De} {ser : Ser Value}
    {source : BrokerSource Ser De} {de : De Value}
    (hReads : Reads Same kind target ser source de)
    {value : Value} {message encoded output : RouteMessage}
    (hEncode : target.encode ser value message = .ok encoded)
    (hPayload : output.payload = encoded.payload)
    (hTypes : ∀ name, Headers.IsContentType name = true →
      output.headers.lookup name =
        encoded.headers.lookup name)
    {subject : String} {sent got : RawMessage}
    (hDispatched :
      target.dispatched output = .ok (subject, sent))
    (hHop : Hop library service kind subject sent got) :
    ∃ value',
      source.decode de (routeMessageFromBroker got) =
        .ok value' ∧
      Same value value' := by
  have hCarried := carried_of_hop hCarries hHop
  rcases BrokerTarget.dispatched_eq_ok hDispatched with
    ⟨_, hHeaders, hSent⟩
  have hBytes :
      target.codec.encode ser value = .ok got.payload := by
    rw [hCarried.payload, hSent, hPayload]
    exact (BrokerTarget.encode_eq_ok hEncode).1
  rcases hReads.decodes with ⟨codec, hSelect, hDecodes⟩
  rcases hDecodes value _ hBytes with ⟨value', hValue, hSame⟩
  refine ⟨value', ?_, hSame⟩
  rw [← hValue]
  refine BrokerSource.decode_eq hSelect ?_ ?_ de
  · intro hTyped
    rw [hReads.receives] at hTyped
    rw [if_pos hTyped]
    apply hCarried.contentType
    apply ((BrokerTarget.encode_eq_ok hEncode).2
      (hReads.sends.trans hTyped)).congr
    intro name hType
    have hNe : name ≠ replyToHeader := by
      rintro rfl
      revert hType
      decide
    rw [hHeaders, AList.lookup_erase_ne hNe,
      hTypes name hType]
  · intro hNot
    rw [hReads.receives] at hNot
    rw [hNot]
    rfl

end Bus

end Qanat
