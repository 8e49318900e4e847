import MediaServer.Webrtc.RtpSendStream

/-!
# The cursor of the eviction

The loop at the end of `save_buffer` finds the entry of `first_seq_` and erases it
through the iterator, which it does not compare with `end()`.  `Cursor` is the
invariant under which this is right: an entry for `first_seq_`, unless nothing has
been saved yet.  It asks nothing of the order of the packets.
-/

namespace MediaServer

namespace RtpSendStream

/-- The buffer is not too large, and `first_seq_` is an entry of it or was never set. -/
structure Cursor (s : RtpSendStream) : Prop where
  size : s.rtpBufferMap.size ≤ bufferMax s.mediaType
  entry : s.firstSeq = 0 ∨ s.firstSeq ∈ s.rtpBufferMap.keys

end RtpSendStream

end MediaServer
