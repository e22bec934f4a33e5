import Qanat.Bus.ExternalBus
import Qanat.Bus.Wire.Grammar

/-
  Messages as frames, on the buses that route for themselves
  what they receive.

  Main declarations:
    * `publishFrame`, `receiveFrame`
    * `receiveFrame_of_identifies`, `fits_of_receiveFrame`
-/

------------------------------------------------------------
-- Publishing and Receiving
------------------------------------------------------------

namespace Qanat

namespace Bus

/- The largest `usize` of a 64-bit machine. -/
def usizeMax : Nat := 18446744073709551615

/- The frame of `publish_bytes`. -/
def publishFrame
    (order : HeaderIteration) (subject : String)
    (payload : Bytes) (headers : Option Headers) : Bytes :=
  Wire.encode subject (headers.map order.order) payload

/- The message of a frame. -/
def rebuild
    (iteration : HeaderIteration) (fresh : String)
    (id : UInt64) (frame : Wire.DecodedFrame) : RawMessage :=
  let identified :=
    ensureMessageId fresh
      (iteration.order (frame.headers.getD ∅))
  { envelope :=
      { subject := frame.subject
        id := id
        messageId := identified.1
        headers := some identified.2
        attempts := 0 }
    payload := frame.payload }

/- The receive loop, which drops what is no frame. -/
def receiveFrame
    (iteration : HeaderIteration) (fresh : String)
    (id : UInt64) (bytes : Bytes) : Option RawMessage :=
  match Wire.decode usizeMax bytes with
  | .error _ => none
  | .ok frame => some (rebuild iteration fresh id frame)

end Bus

end Qanat

------------------------------------------------------------
-- Round Trips
------------------------------------------------------------

namespace Qanat

namespace Bus

/- No machine is too small for the lengths of a frame. -/
theorem receiveFrame_eq
    (iteration : HeaderIteration) (fresh : String)
    (id : UInt64) (bytes : Bytes) :
    receiveFrame iteration fresh id bytes =
      (Wire.parseFrame bytes).map
        (rebuild iteration fresh id) := by
  have hRoom : 8589934598 ≤ usizeMax := by
    unfold usizeMax
    omega
  unfold receiveFrame
  rw [Wire.decode_eq (Or.inr hRoom)]
  cases Wire.parseFrame bytes <;> rfl

theorem fits_order_iff
    (order : HeaderIteration) (subject : String)
    (headers : Option Headers) :
    Wire.Fits subject (headers.map order.order) ↔
      Wire.Fits subject headers := by
  cases headers with
  | none => exact Iff.rfl
  | some headers =>
      constructor
      · intro hFits
        exact hFits.congr (order.perm headers).symm
      · intro hFits
        exact hFits.congr (order.perm headers)

/- A frame whose lengths fit is rebuilt with its headers. -/
theorem receiveFrame_of_fits
    {subject : String} {headers : Option Headers}
    (hFits : Wire.Fits subject headers)
    (order : HeaderIteration) (payload : Bytes) :
    ∃ decoded : Headers,
      (∀ name,
        decoded.lookup name =
          (headers.getD ∅).lookup name) ∧
      ∀ iteration fresh id,
        receiveFrame iteration fresh id
            (publishFrame order subject payload headers) =
          some
            (rebuild iteration fresh id
              { subject := subject, headers := some decoded
                payload := payload }) := by
  refine ⟨Headers.collect
    (Wire.pairs (headers.map order.order)), ?_, ?_⟩
  · intro name
    cases headers with
    | none => rfl
    | some headers =>
        rw [Option.map_some, Wire.lookup_collect_pairs,
          order.lookup_order]
        rfl
  · intro iteration fresh id
    rw [receiveFrame_eq, publishFrame, Wire.parseFrame_encode
      ((fits_order_iff order subject headers).mpr hFits),
      Option.map_some]
    unfold rebuild
    rw [Wire.getD_collect_pairs]
    rfl

/- If its headers identify it, they are all there again. -/
theorem receiveFrame_of_identifies
    {subject id : String} {headers : Option Headers}
    (hFits : Wire.Fits subject headers)
    (hIdentifies : Identifies (headers.getD ∅) id)
    (order iteration : HeaderIteration) (fresh : String)
    (number : UInt64) (payload : Bytes) :
    ∃ received headers',
      receiveFrame iteration fresh number
          (publishFrame order subject payload headers) =
        some received ∧
      received.envelope.subject = subject ∧
      received.envelope.messageId = id ∧
      received.envelope.headers = some headers' ∧
      received.payload = payload ∧
      ∀ name,
        headers'.lookup name =
          (headers.getD ∅).lookup name := by
  rcases receiveFrame_of_fits hFits order payload with
    ⟨decoded, hLookup, hReceived⟩
  have hOrdered : ∀ name,
      (iteration.order decoded).lookup name =
        (headers.getD ∅).lookup name := by
    intro name
    rw [iteration.lookup_order, hLookup]
  rcases (hIdentifies.congr hOrdered).ensured fresh with
    ⟨hMessageId, hKept⟩
  refine ⟨_, _, hReceived iteration fresh number, rfl,
    hMessageId, rfl, rfl, ?_⟩
  intro name
  rw [Option.getD_some, hKept, hOrdered]

/- What is rebuilt with its own payload did not overflow. -/
theorem fits_of_receiveFrame
    {order iteration : HeaderIteration}
    {fresh subject : String} {id : UInt64}
    {headers : Option Headers} {payload : Bytes}
    {received : RawMessage}
    (hReceived :
      receiveFrame iteration fresh id
          (publishFrame order subject payload headers) =
        some received)
    (hPayload : received.payload = payload) :
    Wire.Fits subject headers := by
  rw [receiveFrame_eq, Option.map_eq_some_iff] at hReceived
  rcases hReceived with ⟨frame, hParse, rfl⟩
  rw [← fits_order_iff order]
  exact Wire.fits_of_parseFrame hParse hPayload

end Bus

end Qanat
