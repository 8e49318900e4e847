import Mathlib.Logic.Function.Basic
import MediaServer.Rtmp.ChunkStream

/-!
# Reading chunks from a session

`net/rtmp/rtmp_session_base`: the fields of `rtmp_session_base` that parse the
incoming byte stream, `read_fmt_csid` and `read_chunk_stream`.

`receiveLoop` is the loop that both sessions run over `read_chunk_stream`
after each read, with the handling of a ready message reduced to what it can
do to the parser: the message is handed over, the chunk stream is reset, and
the session's chunk size may change (`onMessage`).

Two properties of the source are kept as they are.  The map of the chunk
streams has `uint8_t` keys while chunk stream ids are 16 bits wide, and a
basic header of two or three bytes is consumed byte by byte although it is
read again from its start when it is incomplete.
-/

namespace MediaServer

/-- The fields of `rtmp_session_base` that the parser uses.  The map has one
entry per key, so it is a function. -/
structure SessionBase where
  recvBuffer : DataBuffer := []
  fmtReady : Bool := false
  fmt : UInt8 := 0
  csid : UInt16 := 0
  csMap : UInt8 → Option ChunkStream := fun _ => none
  chunkSize : UInt32 := CHUNK_DEF_SIZE

namespace SessionBase

/-- The `uint8_t` under which `cs_map_` files a chunk stream id. -/
def mapKey (csid : UInt16) : UInt8 := csid.toUInt8

/-- `set_chunk_size`. -/
def setChunkSize (s : SessionBase) (chunkSize : UInt32) : SessionBase :=
  { s with chunkSize := chunkSize }

/-- `read_fmt_csid`. -/
def readFmtCsid (s : SessionBase) : RtmpRet × SessionBase :=
  match s.recvBuffer with
  | [] => (.needReadMore, s)
  | p :: rest =>
    let s := { s with fmt := (p >>> 6) &&& 0x3, csid := (p &&& 0x3f).toUInt16, recvBuffer := rest }
    if s.csid = 0 then
      -- the first byte is gone when the second one is missing
      match rest with
      | [] => (.needReadMore, s)
      | p :: rest => (.ok, { s with csid := 64 + p.toUInt16, recvBuffer := rest })
    else if s.csid = 1 then
      match rest with
      | p :: q :: rest =>
        (.ok, { s with csid := 64 + p.toUInt16 + q.toUInt16, recvBuffer := rest })
      | _ => (.needReadMore, s)
    else (.ok, s)

/-- The first part of `read_chunk_stream`: the basic header, unless an earlier
call has read it. -/
def readBasicHeader (s : SessionBase) : RtmpRet × SessionBase :=
  if s.fmtReady then (.ok, s)
  else
    match s.readFmtCsid with
    | (.ok, s) => (.ok, { s with fmtReady := true })
    | other => other

/-- The chunk stream of the basic header: the one filed under its key, or a new
one with the session's chunk size. -/
def currentStream (s : SessionBase) : ChunkStream :=
  (s.csMap (mapKey s.csid)).getD (ChunkStream.new s.fmt s.csid s.chunkSize)

/-- Header, then payload, of one chunk. -/
def readMessage (fmt : UInt8) (csid : UInt16) (cs : ChunkStream) (buffer : DataBuffer) :
    RtmpRet × ChunkStream × DataBuffer :=
  match cs.readMessageHeader buffer fmt csid with
  | (.ok, cs, buffer) => cs.readMessagePayload buffer
  | other => other

/-- The session after its current chunk stream has returned: the stream is in
the map also when it is new, and the basic header is done with on success. -/
def fileStream (s : SessionBase) (r : RtmpRet × ChunkStream × DataBuffer) :
    RtmpRet × SessionBase :=
  (r.1, { s with
    csMap := Function.update s.csMap (mapKey s.csid) (some r.2.1)
    recvBuffer := r.2.2
    fmtReady := if r.1 = .ok then false else s.fmtReady })

/-- The second part of `read_chunk_stream`: find or create the chunk stream and
let it read. -/
def readCurrentStream (s : SessionBase) : RtmpRet × SessionBase :=
  s.fileStream (readMessage s.fmt s.csid s.currentStream s.recvBuffer)

/-- `read_chunk_stream`.  The stream it hands back through `cs_ptr` is the one
under the key of the session's `csid`. -/
def readChunkStream (s : SessionBase) : RtmpRet × SessionBase :=
  match s.readBasicHeader with
  | (.ok, s) => s.readCurrentStream
  | other => other

end SessionBase

/-! ## Messages -/

/-- What a ready chunk stream hands to its session. -/
structure Message where
  csid : UInt16
  timestamp : UInt32
  typeId : UInt8
  msgStreamId : UInt32
  payload : Bytes
  deriving DecidableEq, Repr

/-- The message assembled in a chunk stream. -/
def ChunkStream.message (cs : ChunkStream) : Message :=
  { csid := cs.csid
    timestamp := cs.timestamp32
    typeId := cs.typeId
    msgStreamId := cs.msgStreamId
    payload := cs.chunkData }

namespace SessionBase

/-- A successful `read_chunk_stream` with the handling of the message, if it
completed one. -/
def deliver (onMessage : Message → UInt32 → UInt32) (s : SessionBase) :
    SessionBase × List Message :=
  if s.currentStream.isReady then
    ({ s with
      csMap := Function.update s.csMap (mapKey s.csid) (some s.currentStream.reset)
      chunkSize := onMessage s.currentStream.message s.chunkSize }, [s.currentStream.message])
  else (s, [])

/-- At most `n` passes through the `while (true)` loop over
`read_chunk_stream`. -/
def receiveLoop (onMessage : Message → UInt32 → UInt32) :
    Nat → SessionBase → SessionBase × List Message
  | 0, s => (s, [])
  | n + 1, s =>
    match s.readChunkStream with
    | (.ok, s) =>
      let r := s.deliver onMessage
      if r.1.recvBuffer.dataLen > 0 then
        let t := receiveLoop onMessage n r.1
        (t.1, r.2 ++ t.2)
      else r
    | (_, s) => (s, [])

/-- `append_data` and the loop.  The bound on the passes is never reached
(`receiveLoop_eq_consume`). -/
def receive (onMessage : Message → UInt32 → UInt32) (s : SessionBase) (data : Bytes) :
    SessionBase × List Message :=
  let s := { s with recvBuffer := s.recvBuffer.appendData data }
  receiveLoop onMessage (s.recvBuffer.dataLen + 2) s

/-- The reads of a connection, one after another. -/
def receiveAll (onMessage : Message → UInt32 → UInt32) :
    SessionBase → List Bytes → SessionBase × List Message
  | s, [] => (s, [])
  | s, data :: rest =>
    let r := s.receive onMessage data
    let t := receiveAll onMessage r.1 rest
    (t.1, r.2 ++ t.2)

/-- Messages whose handling does not touch the parser. -/
def keepChunkSize (_ : Message) (chunkSize : UInt32) : UInt32 := chunkSize

end SessionBase

end MediaServer
