import MediaServer.Utils.DataBuffer

/-!
# RTMP chunk streams

`net/rtmp/chunk_stream`: the state that one chunk stream keeps between two
chunks, the two phases in which a chunk is read (message header, then
payload), and the writer that splits a message into chunks.

A read takes the bytes that the session has received so far and returns the
bytes it leaves.  The readers of the header formats 0, 1 and 2 differ in the
header length and in the fields they store, so they are `readMsgFormat`
applied to those two; format 3 has no fields of its own and reads an extended
timestamp only.
-/

namespace MediaServer

/-! ## Return codes -/

/-- `RTMP_OK`, `RTMP_NEED_READ_MORE` and the negative codes, of which every
function here uses `-1` only. -/
inductive RtmpRet where
  | ok
  | needReadMore
  | error
  deriving DecidableEq, Repr

/-! ## The state of a chunk stream -/

/-- The chunk size before any is announced. -/
def CHUNK_DEF_SIZE : UInt32 := 128

/-- `CHUNK_STREAM_PHASE`: what is read next. -/
inductive ChunkStreamPhase where
  | header
  | payload
  deriving DecidableEq, Repr

/-- `chunk_stream`.  `remain` and `requireLen` are `int64_t` in the source and
never negative: `remain` is set from a length and reduced by at most itself. -/
structure ChunkStream where
  timestampDelta : UInt32 := 0
  timestamp32 : UInt32 := 0
  msgLen : UInt32 := 0
  typeId : UInt8 := 0
  msgStreamId : UInt32 := 0
  remain : Nat := 0
  requireLen : Nat := 0
  chunkSize : UInt32 := CHUNK_DEF_SIZE
  chunkAll : DataBuffer := []
  chunkData : DataBuffer := []
  extTsFlag : Bool := false
  fmt : UInt8 := 0
  csid : UInt16 := 0
  phase : ChunkStreamPhase := .header
  chunkReady : Bool := false
  msgCount : Nat := 0
  deriving DecidableEq, Repr

namespace ChunkStream

/-- The constructor of `chunk_stream`. -/
def new (fmt : UInt8) (csid : UInt16) (chunkSize : UInt32) : ChunkStream :=
  { fmt := fmt, csid := csid, chunkSize := chunkSize }

/-- `is_ready`. -/
def isReady (cs : ChunkStream) : Bool := cs.chunkReady

/-- `reset`.  `remain_` and the fields of the header stay. -/
def reset (cs : ChunkStream) : ChunkStream :=
  { cs with phase := .header, chunkReady := false, chunkAll := [], chunkData := [] }

/-! ## Reading a message header -/

/-- The length of a message header of format 0. -/
def FORMAT0_HEADER_LEN : Nat := 11

/-- The length of a message header of format 1. -/
def FORMAT1_HEADER_LEN : Nat := 7

/-- The length of a message header of format 2. -/
def FORMAT2_HEADER_LEN : Nat := 3

/-- The length of an extended timestamp. -/
def EXT_TS_LEN : Nat := 4

/-- The common part of `read_msg_format0`, `1` and `2`.  The flag of the
extended timestamp is set before the four bytes of it are there. -/
def readMsgFormat (headerLen : Nat) (fields : Bytes → UInt32 → ChunkStream → ChunkStream)
    (cs : ChunkStream) (buffer : DataBuffer) (inputFmt : UInt8) (inputCsid : UInt16) :
    RtmpRet × ChunkStream × DataBuffer :=
  if !buffer.require headerLen then
    (.needReadMore, cs, buffer)
  else
    let cs := { cs with fmt := inputFmt, csid := inputCsid }
    let header := buffer.take headerLen
    let ts := read3bytes header
    if ts ≥ 0xffffff then
      let cs := { cs with extTsFlag := true }
      if !buffer.require (headerLen + EXT_TS_LEN) then
        (.needReadMore, cs, buffer)
      else
        let buffer := buffer.consumeData headerLen
        (.ok, fields header (read4bytes buffer) cs, buffer.consumeData EXT_TS_LEN)
    else
      (.ok, fields header ts cs, buffer.consumeData headerLen)

/-- `read_msg_format0`. -/
def readMsgFormat0 : ChunkStream → DataBuffer → UInt8 → UInt16 →
    RtmpRet × ChunkStream × DataBuffer :=
  readMsgFormat FORMAT0_HEADER_LEN fun p ts cs =>
    { cs with
      timestamp32 := ts
      timestampDelta := 0
      msgLen := read3bytes (p.drop 3)
      typeId := (p.drop 6).headD 0
      msgStreamId := read4bytes (p.drop 7)
      remain := (read3bytes (p.drop 3)).toNat }

/-- `read_msg_format1`: the stream id stays, and the timestamp is a difference. -/
def readMsgFormat1 : ChunkStream → DataBuffer → UInt8 → UInt16 →
    RtmpRet × ChunkStream × DataBuffer :=
  readMsgFormat FORMAT1_HEADER_LEN fun p ts cs =>
    { cs with
      timestampDelta := ts
      timestamp32 := cs.timestamp32 + ts
      msgLen := read3bytes (p.drop 3)
      typeId := (p.drop 6).headD 0
      remain := (read3bytes (p.drop 3)).toNat }

/-- `read_msg_format2`: the length and the type stay as well. -/
def readMsgFormat2 : ChunkStream → DataBuffer → UInt8 → UInt16 →
    RtmpRet × ChunkStream × DataBuffer :=
  readMsgFormat FORMAT2_HEADER_LEN fun _ ts cs =>
    { cs with
      timestampDelta := ts
      timestamp32 := cs.timestamp32 + ts
      remain := cs.msgLen.toNat }

/-- The timestamp that a type 3 header starts a new message with, and what it
leaves of the buffer; `none` while an extended timestamp is incomplete. -/
def readNewTimestamp (cs : ChunkStream) (buffer : DataBuffer) :
    Option (UInt32 × DataBuffer) :=
  if cs.fmt = 0 then
    if cs.extTsFlag then
      if !buffer.require EXT_TS_LEN then none
      else some (read4bytes buffer, buffer.consumeData EXT_TS_LEN)
    else some (cs.timestamp32, buffer)
  else if cs.fmt = 1 ∨ cs.fmt = 2 then
    if cs.extTsFlag then
      if !buffer.require EXT_TS_LEN then none
      else some (cs.timestamp32 + read4bytes buffer, buffer.consumeData EXT_TS_LEN)
    else some (cs.timestamp32 + cs.timestampDelta, buffer)
  else some (cs.timestamp32, buffer)

/-- What a type 3 header inside a message leaves of the buffer: the extended
timestamp is skipped when it repeats the one of the message. -/
def skipTimestamp (cs : ChunkStream) (buffer : DataBuffer) : Option DataBuffer :=
  if cs.extTsFlag then
    if !buffer.require EXT_TS_LEN then none
    else if read4bytes buffer = cs.timestamp32 then some (buffer.consumeData EXT_TS_LEN)
    else some buffer
  else some buffer

/-- `read_msg_format3`: a new message when nothing of the last one is missing. -/
def readMsgFormat3 (cs : ChunkStream) (buffer : DataBuffer) (inputFmt : UInt8)
    (inputCsid : UInt16) : RtmpRet × ChunkStream × DataBuffer :=
  if cs.remain = 0 then
    -- it's a new one
    match readNewTimestamp cs buffer with
    | none => (.needReadMore, cs, buffer)
    | some (ts, buffer) =>
      (.ok, { cs with
        timestamp32 := ts
        chunkAll := []
        chunkData := []
        remain := cs.msgLen.toNat
        chunkReady := false
        fmt := inputFmt
        csid := inputCsid }, buffer)
  else
    match skipTimestamp cs buffer with
    | none => (.needReadMore, cs, buffer)
    | some buffer => (.ok, { cs with fmt := inputFmt, csid := inputCsid }, buffer)

/-- The format that `input_fmt` selects.  Two bits cannot select another. -/
def readMsgHeader (cs : ChunkStream) (buffer : DataBuffer) (inputFmt : UInt8)
    (inputCsid : UInt16) : RtmpRet × ChunkStream × DataBuffer :=
  if inputFmt = 0 then readMsgFormat0 cs buffer inputFmt inputCsid
  else if inputFmt = 1 then readMsgFormat1 cs buffer inputFmt inputCsid
  else if inputFmt = 2 then readMsgFormat2 cs buffer inputFmt inputCsid
  else if inputFmt = 3 then readMsgFormat3 cs buffer inputFmt inputCsid
  else (.error, cs, buffer)

/-- `read_message_header`. -/
def readMessageHeader (cs : ChunkStream) (buffer : DataBuffer) (inputFmt : UInt8)
    (inputCsid : UInt16) : RtmpRet × ChunkStream × DataBuffer :=
  if cs.phase ≠ .header then (.ok, cs, buffer)
  else
    match readMsgHeader cs buffer inputFmt inputCsid with
    | (.ok, cs, buffer) => (.ok, { cs with phase := .payload }, buffer)
    | other => other

/-! ## Reading the payload of a chunk -/

/-- The length that the next payload must have. -/
def payloadLen (cs : ChunkStream) : Nat :=
  if cs.remain > cs.chunkSize.toNat then cs.chunkSize.toNat else cs.remain

/-- The payload `data` of a chunk, whose length is `requireLen`, is stored. -/
def acceptPayload (cs : ChunkStream) (data : Bytes) : ChunkStream :=
  { cs with
    chunkData := cs.chunkData.appendData data
    remain := cs.remain - cs.requireLen
    msgCount := cs.msgCount + 1
    chunkReady := if cs.remain - cs.requireLen = 0 then true else cs.chunkReady
    phase := .header }

/-- `read_message_payload`. -/
def readMessagePayload (cs : ChunkStream) (buffer : DataBuffer) :
    RtmpRet × ChunkStream × DataBuffer :=
  if cs.phase ≠ .payload then (.ok, cs, buffer)
  else
    let cs := { cs with requireLen := cs.payloadLen }
    if !buffer.require cs.requireLen then (.needReadMore, cs, buffer)
    else
      (.ok, cs.acceptPayload (buffer.take cs.requireLen), buffer.consumeData cs.requireLen)

/-! ## Writing chunks -/

/-- The basic header that `gen_data` writes. -/
def genBasicHeader (cs : ChunkStream) : Option Bytes :=
  if cs.csid < 64 then
    some [(cs.fmt <<< 6) ||| (cs.csid &&& 0x3f).toUInt8]
  else if cs.csid.toNat - 64 < 256 then
    some [(cs.fmt <<< 6) &&& 0xc0, cs.csid.toUInt8]
  else if cs.csid.toNat - 64 < 65536 then
    some (((cs.fmt <<< 6) &&& 0xc0 ||| 0x01) :: write2bytes cs.csid)
  else none

/-- The message header that `gen_data` writes; format 3 has none. -/
def genMessageHeader (cs : ChunkStream) : Bytes :=
  if cs.fmt = 0 then
    write3bytes cs.timestamp32 ++ write3bytes cs.msgLen ++ [cs.typeId] ++
      write4bytes cs.msgStreamId
  else if cs.fmt = 1 then
    write3bytes cs.timestamp32 ++ write3bytes cs.msgLen ++ [cs.typeId]
  else if cs.fmt = 2 then
    write3bytes cs.timestamp32
  else []

/-- `gen_data`. -/
def genData (cs : ChunkStream) (data : Bytes) : RtmpRet × ChunkStream :=
  match cs.genBasicHeader with
  | none => (.error, cs)
  | some basic =>
    (.ok, { cs with
      chunkAll := ((cs.chunkAll.appendData basic).appendData cs.genMessageHeader).appendData data })

end ChunkStream

/-- The length of chunk `index` of `count` chunks of a message of `dataLen`
bytes. -/
def chunkLen (dataLen chunkSize count index : Nat) : Nat :=
  if index = count - 1 then
    if dataLen % chunkSize > 0 then dataLen % chunkSize else chunkSize
  else chunkSize

/-- The number of chunks of a message of `dataLen` bytes. -/
def chunkCount (dataLen chunkSize : Nat) : Nat :=
  if dataLen % chunkSize > 0 then dataLen / chunkSize + 1 else dataLen / chunkSize

/-- The body of the loop in `write_data_by_chunk_stream`: chunk `index`. -/
def writeChunk (csid : UInt16) (timestamp : UInt32) (typeId : UInt8) (msgStreamId : UInt32)
    (chunkSize : UInt32) (input : Bytes) (index : Nat) : Bytes :=
  let count := chunkCount input.length chunkSize.toNat
  let fmt := if index = 0 then 0 else 3
  let data := (input.drop (index * chunkSize.toNat)).take
    (chunkLen input.length chunkSize.toNat count index)
  let c := { ChunkStream.new fmt csid chunkSize with
    timestamp32 := timestamp
    msgLen := UInt32.ofNat input.length
    typeId := typeId
    msgStreamId := msgStreamId }
  (c.genData data).2.chunkAll

/-- `write_data_by_chunk_stream`: the buffers it hands to `rtmp_send`, in
order. -/
def writeDataByChunkStream (csid : UInt16) (timestamp : UInt32) (typeId : UInt8)
    (msgStreamId : UInt32) (chunkSize : UInt32) (input : Bytes) :
    Except Fault (List Bytes) :=
  if chunkSize = 0 then .error .divisionByZero
  else .ok ((List.range (chunkCount input.length chunkSize.toNat)).map
    (writeChunk csid timestamp typeId msgStreamId chunkSize input))

end MediaServer
