import Qanat.Bus.Frames

/-
  The messages of a Redis bus as frames on a channel.

  Main declarations:
    * `Redis.publishBytes`, `Redis.receive`
-/

------------------------------------------------------------
-- Frames
------------------------------------------------------------

namespace Qanat

namespace Bus

namespace Redis

/- What `publish_bytes` publishes on the channel. -/
def publishBytes
    (order : HeaderIteration) (subject : String)
    (payload : Bytes) (headers : Option Headers) : Bytes :=
  publishFrame order subject payload headers

/- What the receive loop routes. -/
def receive
    (iteration : HeaderIteration) (fresh : String)
    (id : UInt64) (frame : Bytes) : Option RawMessage :=
  receiveFrame iteration fresh id frame

end Redis

end Bus

end Qanat
