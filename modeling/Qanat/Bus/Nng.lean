import Qanat.Bus.Adapter
import Qanat.Bus.Frames
import Qanat.Bus.Routing

/-
  A message on an NNG bus, as it is routed on the node that
  sends it and on those that receive its frame.

  The socket delivers a frame as it is to the other nodes
  and not to its own.

  Main declarations:
    * `Nng.dispatchRaw`, `Nng.publish`, `Nng.toMessageBus`
    * `Nng.Agrees`, `Nng.ReceivedAlike`
    * `Nng.receivedAlike_iff`
    * `Nng.local_and_remote_agree_iff`
-/

------------------------------------------------------------
-- Sending
------------------------------------------------------------

namespace Qanat

namespace Bus

namespace Nng

/- A frame that was sent and the message for the own node. -/
structure Sent where
  frame : Bytes
  routed : RawMessage

/- `publish_bytes`, with what the socket says to the frame. -/
def publishBytes
    (socket : Bytes → Except BusError Unit)
    (order : HeaderIteration) (subject : String)
    (payload : Bytes) (headers : Option Headers) :
    Except BusError Bytes :=
  match socket (publishFrame order subject payload headers) with
  | .error error => .error error
  | .ok () => .ok (publishFrame order subject payload headers)

/- `dispatch_raw` up to the local dispatch. -/
def dispatchRaw
    (socket : Bytes → Except BusError Unit)
    (order : HeaderIteration) (subject : String)
    (message : RawMessage) : Except BusError Sent :=
  match publishBytes socket order subject message.payload
      message.envelope.headers with
  | .error error => .error error
  | .ok frame => .ok { frame := frame, routed := message }

/-
  `publish` up to the local dispatch, of a value that was
  encoded with the given result.
-/
def publish
    (socket : Bytes → Except BusError Unit)
    (iteration order : HeaderIteration) (fresh : String)
    (id : UInt64) (subject : String)
    (payload : Except BusError Bytes)
    (headers : Option Headers) : Except BusError Sent :=
  let identified :=
    ensureMessageId fresh (iteration.order (headers.getD ∅))
  match payload with
  | .error error => .error error
  | .ok payload =>
      match publishBytes socket order subject payload
          (some identified.2) with
      | .error error => .error error
      | .ok frame =>
          .ok
            { frame := frame
              routed :=
                { envelope :=
                    { subject := subject
                      id := id
                      messageId := identified.1
                      headers := some identified.2
                      attempts := 0 }
                  payload := payload } }

/- What the receive loop of another node routes. -/
def receive
    (iteration : HeaderIteration) (fresh : String)
    (id : UInt64) (frame : Bytes) : Option RawMessage :=
  receiveFrame iteration fresh id frame

/-
  The node as a bus: a message that its own streams refuse
  has been sent to the other nodes.
-/
def toMessageBus
    (socket : Bytes → Except BusError Unit)
    (order : HeaderIteration)
    (dispatchLocal : RawMessage → Except BusError Unit) :
    MessageBus where
  dispatch := fun subject message =>
    match dispatchRaw socket order subject message with
    | .error error => .failed error
    | .ok sent =>
        { carried := true
          result := some (dispatchLocal sent.routed) }

/- `dispatch_local` routes by the subject of the envelope. -/
def localSubject (message : RawMessage) : String :=
  message.envelope.subject

end Nng

end Bus

end Qanat

------------------------------------------------------------
-- Agreement
------------------------------------------------------------

namespace Qanat

namespace Bus

namespace Nng

/- A message without a map has only its id. -/
def presentHeaders (message : RawMessage) : Headers :=
  message.envelope.headers.getD
    ((∅ : Headers).insert messageIdHeader
      message.envelope.messageId)

/- The two nodes route the same message. -/
structure Agrees (routed received : RawMessage) : Prop where
  subject :
    routed.envelope.subject = received.envelope.subject
  messageId :
    routed.envelope.messageId = received.envelope.messageId
  headers : ∀ name,
    (presentHeaders routed).lookup name =
      (presentHeaders received).lookup name
  payload : routed.payload = received.payload
  pattern : ∀ pattern,
    wildcardMatch pattern (localSubject routed) =
      wildcardMatch pattern (localSubject received)

/- Every node that receives the frame routes the same. -/
def ReceivedAlike (sent : Sent) : Prop :=
  ∀ iteration fresh id,
    ∃ received,
      receive iteration fresh id sent.frame =
          some received ∧
        Agrees sent.routed received

theorem publishBytes_eq_ok
    {socket : Bytes → Except BusError Unit}
    {order : HeaderIteration} {subject : String}
    {payload frame : Bytes} {headers : Option Headers}
    (hPublish :
      publishBytes socket order subject payload headers =
        .ok frame) :
    frame = publishFrame order subject payload headers := by
  unfold publishBytes at hPublish
  split at hPublish
  · cases hPublish
  · cases hPublish
    rfl

/- An id other than the one that is made up was found. -/
theorem identifies_of_ensured
    {fresh id : String} {headers : Headers}
    (hId : (ensureMessageId fresh headers).1 = id)
    (hFresh : fresh ≠ id) :
    messageIdFromHeaders headers = some id ∧
      Identifies (ensureMessageId fresh headers).2 id := by
  cases hFound : messageIdFromHeaders headers with
  | none =>
      unfold ensureMessageId at hId
      rw [hFound] at hId
      exact absurd hId hFresh
  | some found =>
      have hIdentifies :=
        identifies_ensureMessageId fresh hFound
      unfold ensureMessageId at hId
      rw [hFound] at hId
      subst hId
      exact ⟨rfl, hIdentifies⟩

theorem messageIdFromHeaders_of_empty
    {headers : Headers}
    (hEmpty : ∀ name, headers.lookup name = none) :
    messageIdFromHeaders headers = none := by
  unfold messageIdFromHeaders
  rw [FiniteMap.find?_of_none (fun name _ => hEmpty name)]
  rfl

/- An id that no other one is equal to by chance. -/
theorem append_dash_ne (id : String) : id ++ "-" ≠ id := by
  intro hSame
  have hLength := congrArg String.length hSame
  rw [String.length_append] at hLength
  revert hLength
  simp

/- What the nodes agree on was in the frame. -/
theorem identifies_of_receivedAlike
    {order : HeaderIteration} {subject : String}
    {message : RawMessage}
    (hAlike :
      ReceivedAlike
        { frame :=
            publishFrame order subject message.payload
              message.envelope.headers
          routed := message }) :
    subject = message.envelope.subject ∧
      Identifies message.headers message.envelope.messageId ∧
      Wire.Fits subject message.envelope.headers := by
  rcases hAlike FiniteMap.Iteration.identity
      (message.envelope.messageId ++ "-") 0 with
    ⟨received, hReceived, hAgrees⟩
  have hFits := fits_of_receiveFrame hReceived
    hAgrees.payload.symm
  rcases receiveFrame_of_fits hFits order message.payload with
    ⟨decoded, hLookup, hRebuilt⟩
  unfold receive at hReceived
  rw [hRebuilt, Option.some.injEq] at hReceived
  subst hReceived
  rcases identifies_of_ensured hAgrees.messageId.symm
      (append_dash_ne _) with
    ⟨hFound, hEnsured⟩
  refine ⟨hAgrees.subject.symm, ?_, hFits⟩
  cases hHeaders : message.envelope.headers with
  | none =>
      rw [hHeaders] at hLookup
      rw [messageIdFromHeaders_of_empty] at hFound
      · cases hFound
      · intro name
        exact hLookup name
  | some headers =>
      apply hEnsured.congr
      intro name
      have hPresent := hAgrees.headers name
      unfold presentHeaders at hPresent
      rw [hHeaders] at hPresent
      unfold RawMessage.headers
      rw [hHeaders]
      exact hPresent

theorem receivedAlike_of_identifies
    {message : RawMessage}
    (hIdentifies :
      Identifies message.headers message.envelope.messageId)
    (hFits :
      Wire.Fits message.envelope.subject
        message.envelope.headers)
    (order : HeaderIteration) :
    ReceivedAlike
      { frame :=
          publishFrame order message.envelope.subject
            message.payload message.envelope.headers
        routed := message } := by
  intro iteration fresh id
  rcases receiveFrame_of_identifies hFits hIdentifies order
      iteration fresh id message.payload with
    ⟨received, headers, hReceived, hSubject, hMessageId,
      hHeaders, hPayload, hLookup⟩
  refine ⟨received, hReceived, hSubject.symm,
    hMessageId.symm, ?_, hPayload.symm, ?_⟩
  · intro name
    unfold presentHeaders
    rw [hHeaders, Option.getD_some, hLookup]
    cases hSent : message.envelope.headers with
    | none =>
        have hNone := hIdentifies.lookup
        unfold RawMessage.headers at hNone
        rw [hSent] at hNone
        cases hNone
    | some headers => rfl
  · intro pattern
    unfold localSubject
    rw [hSubject]

/-
  The nodes agree exactly if the envelope has the subject,
  its headers identify it and the frame does not overflow.
-/
theorem receivedAlike_iff
    (order : HeaderIteration) (subject : String)
    (message : RawMessage) :
    ReceivedAlike
        { frame :=
            publishFrame order subject message.payload
              message.envelope.headers
          routed := message } ↔
      subject = message.envelope.subject ∧
        Identifies message.headers
          message.envelope.messageId ∧
        Wire.Fits subject message.envelope.headers := by
  constructor
  · exact identifies_of_receivedAlike
  · rintro ⟨rfl, hIdentifies, hFits⟩
    exact receivedAlike_of_identifies hIdentifies hFits order

end Nng

end Bus

end Qanat

------------------------------------------------------------
-- Dispatching and Publishing
------------------------------------------------------------

namespace Qanat

namespace Bus

namespace Nng

theorem dispatchRaw_eq_ok
    {socket : Bytes → Except BusError Unit}
    {order : HeaderIteration} {subject : String}
    {message : RawMessage} {sent : Sent}
    (hSent :
      dispatchRaw socket order subject message = .ok sent) :
    sent =
      { frame :=
          publishFrame order subject message.payload
            message.envelope.headers
        routed := message } := by
  unfold dispatchRaw at hSent
  split at hSent
  · cases hSent
  · rename_i hPublish
    cases hSent
    rw [publishBytes_eq_ok hPublish]

/- What is published is dispatched under its own subject. -/
theorem publish_eq_ok
    {socket : Bytes → Except BusError Unit}
    {iteration order : HeaderIteration}
    {fresh subject : String} {id : UInt64}
    {payload : Except BusError Bytes}
    {headers : Option Headers} {sent : Sent}
    (hSent :
      publish socket iteration order fresh id subject payload
          headers =
        .ok sent) :
    sent.routed.envelope.subject = subject ∧
      sent.routed.envelope.messageId =
        (ensureMessageId fresh
          (iteration.order (headers.getD ∅))).1 ∧
      sent.routed.envelope.headers =
        some (ensureMessageId fresh
          (iteration.order (headers.getD ∅))).2 ∧
      sent.frame =
        publishFrame order subject sent.routed.payload
          sent.routed.envelope.headers := by
  unfold publish at hSent
  dsimp only at hSent
  split at hSent
  · cases hSent
  · split at hSent
    · cases hSent
    · rename_i hPublish
      cases hSent
      exact ⟨rfl, rfl, rfl, publishBytes_eq_ok hPublish⟩

/- An empty variant can hide the id that is made up. -/
theorem canonical_ensureMessageId_iff
    (fresh : String) (headers : Headers) :
    CanonicalId (ensureMessageId fresh headers).2 ↔
      (messageIdFromHeaders headers).isSome = true ∨
        CanonicalId headers := by
  cases hFound : messageIdFromHeaders headers with
  | some id =>
      exact iff_of_true
        (identifies_ensureMessageId fresh hFound).canonical
        (Or.inl rfl)
  | none =>
      unfold ensureMessageId
      rw [hFound]
      constructor
      · intro hCanonical
        refine Or.inr (fun name hName hVariant => ?_)
        have hNone := hCanonical name hName hVariant
        rwa [AList.lookup_insert_ne hName] at hNone
      · rintro (hFalse | hCanonical)
        · cases hFalse
        · exact hCanonical.insert fresh

/- The id that is ensured is not empty, and it is there. -/
theorem identifies_ensureMessageId_iff
    {fresh : String} (hFresh : fresh ≠ "")
    (headers : Headers) :
    Identifies (ensureMessageId fresh headers).2
        (ensureMessageId fresh headers).1 ↔
      (messageIdFromHeaders headers).isSome = true ∨
        CanonicalId headers := by
  rw [← canonical_ensureMessageId_iff fresh headers]
  refine ⟨Identifies.canonical, fun hCanonical => ?_⟩
  refine ⟨?_, lookup_ensureMessageId fresh headers,
    hCanonical⟩
  unfold ensureMessageId
  cases hFound : messageIdFromHeaders headers with
  | none => exact hFresh
  | some id => exact ne_of_messageIdFromHeaders hFound

/-
  The own node and the others route the same message exactly
  if the envelope that is dispatched has the subject and its
  headers identify it, or if the headers that are published
  have an id or no empty one; and if no length overflows.
-/
theorem local_and_remote_agree_iff
    (socket : Bytes → Except BusError Unit)
    (iteration order : HeaderIteration) (fresh : String)
    (id : UInt64) (subject : String) (message : RawMessage)
    (payload : Except BusError Bytes)
    (headers : Option Headers) (hFresh : fresh ≠ "") :
    (∀ sent,
      dispatchRaw socket order subject message = .ok sent →
        (ReceivedAlike sent ↔
          subject = message.envelope.subject ∧
            Identifies message.headers
              message.envelope.messageId ∧
            Wire.Fits subject message.envelope.headers)) ∧
      ∀ sent,
        publish socket iteration order fresh id subject
            payload headers = .ok sent →
          (ReceivedAlike sent ↔
            ((messageIdFromHeaders
                (iteration.order
                  (headers.getD ∅))).isSome = true ∨
              CanonicalId (headers.getD ∅)) ∧
              Wire.Fits subject
                (some (ensureMessageId fresh
                  (iteration.order (headers.getD ∅))).2)) := by
  constructor
  · intro sent hSent
    rw [dispatchRaw_eq_ok hSent]
    exact receivedAlike_iff order subject message
  · intro sent hSent
    rcases publish_eq_ok hSent with
      ⟨hSubject, hMessageId, hHeaders, hFrame⟩
    have hOrdered :
        CanonicalId (iteration.order (headers.getD ∅)) ↔
          CanonicalId (headers.getD ∅) := by
      constructor
      · intro hCanonical
        exact hCanonical.congr
          (fun name => (iteration.lookup_order _ name).symm)
      · intro hCanonical
        exact hCanonical.congr
          (fun name => iteration.lookup_order _ name)
    have hEnsured : sent.routed.headers =
        (ensureMessageId fresh
          (iteration.order (headers.getD ∅))).2 := by
      unfold RawMessage.headers
      rw [hHeaders]
      rfl
    have hAlike :=
      receivedAlike_iff order subject sent.routed
    rw [← hFrame, hSubject, hEnsured, hMessageId, hHeaders,
      identifies_ensureMessageId_iff hFresh, hOrdered,
      eq_self, true_and] at hAlike
    exact hAlike

/- A message whose headers identify it. -/
def messageOf (subject : String) : RawMessage where
  envelope :=
    { subject := subject
      id := 7
      messageId := "message-7"
      headers :=
        some
          ((∅ : Headers).insert messageIdHeader "message-7")
      attempts := 0 }
  payload := [1]

theorem local_and_remote_agree_iff_orders :
    ∃ sent,
      dispatchRaw (fun _ => .ok ())
          FiniteMap.Iteration.identity "orders.created"
          (messageOf "orders.created") =
        .ok sent ∧
      ReceivedAlike sent := by
  refine ⟨_, rfl, ?_⟩
  have hIdentifies :
      Identifies (messageOf "orders.created").headers
        "message-7" := by
    refine ⟨by decide, AList.lookup_insert _, ?_⟩
    intro name hName _
    exact AList.lookup_insert_ne hName
  have hFits :
      Wire.Fits "orders.created"
        (messageOf "orders.created").envelope.headers := by
    decide +kernel
  exact ((local_and_remote_agree_iff (fun _ => .ok ())
    FiniteMap.Iteration.identity
    FiniteMap.Iteration.identity "fresh" 1 "orders.created"
    (messageOf "orders.created") (.ok []) none
    (by decide)).1 _ rfl).mpr ⟨rfl, hIdentifies, hFits⟩

/- The nodes route by two subjects. -/
theorem envelope_subject_is_not_sent :
    ∃ sent,
      dispatchRaw (fun _ => .ok ())
          FiniteMap.Iteration.identity "orders.created"
          (messageOf "ignored.envelope.subject") =
        .ok sent ∧
      ¬ ReceivedAlike sent := by
  refine ⟨_, rfl, ?_⟩
  intro hAlike
  have hSubject := ((receivedAlike_iff
    FiniteMap.Iteration.identity "orders.created"
    (messageOf "ignored.envelope.subject")).mp hAlike).1
  revert hSubject
  decide

end Nng

end Bus

end Qanat
