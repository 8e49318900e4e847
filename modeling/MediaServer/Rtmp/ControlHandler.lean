import MediaServer.Rtmp.Amf0
import MediaServer.Rtmp.SessionBase

/-!
# Control and command messages of a session

`net/rtmp/rtmp_control_handler`, as an `rtmp_server_session` uses it, and the
fields of `rtmp_session_base` that it works on.  `sent` collects the buffers
that were handed to `rtmp_send`, oldest first.

Every response that is longer than one chunk goes through
`write_data_by_chunk_stream` with the chunk size of the session, which divides
by it.  One field serves both directions: `set_chunk_size` is called when the
peer announces its chunk size and when the server announces its own.
-/

namespace MediaServer

/-! ## The session -/

/-- `rtmp_request`.  `transaction_id_` and `stream_id_` are written and never
read. -/
structure RtmpRequest where
  publishFlag : Bool := false
  isReady : Bool := false
  app : Bytes := []
  tcurl : Bytes := []
  flashVer : Bytes := []
  streamName : Bytes := []
  key : Bytes := []
  deriving DecidableEq, Repr

/-- `RTMP_SERVER_SESSION_PHASE`. -/
inductive ServerPhase where
  | initial
  | handshakeC2
  | connect
  | createStream
  | createPublishPlay
  | mediaHandle
  deriving DecidableEq, Repr

/-- `rtmp_session_base` of a server session. -/
structure Session where
  base : SessionBase := {}
  remoteWindowAcksize : UInt32 := 2500000
  ackReceived : UInt32 := 0
  req : RtmpRequest := {}
  serverPhase : ServerPhase := .initial
  sent : List Bytes := []

namespace Session

/-- `g_config_chunk_size`. -/
def CONFIG_CHUNK_SIZE : UInt32 := 4096

/-- `stream_id_`, which no function changes. -/
def STREAM_ID : UInt32 := 1

/-- `get_chunk_size`. -/
def getChunkSize (s : Session) : UInt32 := s.base.chunkSize

/-- `set_chunk_size`. -/
def setChunkSize (s : Session) (chunkSize : UInt32) : Session :=
  { s with base := s.base.setChunkSize chunkSize }

/-- `rtmp_send`. -/
def rtmpSend (s : Session) (data : Bytes) : Session := { s with sent := s.sent ++ [data] }

/-- `write_data_by_chunk_stream` on this session. -/
def writeData (csid : UInt16) (timestamp : UInt32) (typeId : UInt8) (msgStreamId : UInt32)
    (input : Bytes) (s : Session) : Except Fault Session := do
  let chunks ← writeDataByChunkStream csid timestamp typeId msgStreamId s.getChunkSize input
  return { s with sent := s.sent ++ chunks }

/-! ## Control messages -/

/-- The body of a control message, for the sizes that are used. -/
def controlData (size : Nat) (value : UInt32) : Bytes :=
  match size with
  | 1 => [value.toUInt8]
  | 2 => write2bytes value.toUInt16
  | 3 => write3bytes value
  | 4 => write4bytes value
  | 5 => write4bytes value ++ [2]
  | _ => []

/-- `gen_control_message` on a new chunk stream with id 3. -/
def genControlMessage (ctrlType : UInt8) (size : Nat) (value : UInt32) (chunkSize : UInt32) :
    Bytes :=
  let cs := { ChunkStream.new 0 3 chunkSize with
    typeId := ctrlType, msgStreamId := 0, msgLen := UInt32.ofNat size }
  (cs.genData (controlData size value)).2.chunkAll

/-- `gen_set_recorded_message` and `gen_set_begin_message`: a user control
message for stream 1 on a new chunk stream with id 2. -/
def genUserControl (event : UInt8) (chunkSize : UInt32) : Bytes :=
  let cs := { ChunkStream.new 0 2 chunkSize with typeId := 4, msgStreamId := 1, msgLen := 6 }
  (cs.genData [0, event, 0, 0, 0, 1]).2.chunkAll

/-- `send_set_chunksize`. -/
def sendSetChunksize (chunkSize : UInt32) (s : Session) : Session :=
  s.rtmpSend (genControlMessage 1 4 chunkSize s.getChunkSize)

/-- `send_rtmp_ack`.  The message carries the chunk size. -/
def sendRtmpAck (size : UInt32) (s : Session) : Session :=
  let s := { s with ackReceived := s.ackReceived + size }
  if s.ackReceived > s.remoteWindowAcksize then
    { s.rtmpSend (genControlMessage 3 4 s.getChunkSize s.getChunkSize) with ackReceived := 0 }
  else s

/-- `handle_rtmp_control_message`. -/
def handleRtmpControlMessage (m : Message) (s : Session) : RtmpRet × Session :=
  if m.typeId = 1 then
    if m.payload.length < 4 then (.error, s)
    else
      let s := s.setChunkSize (read4bytes m.payload)
      (.ok, s.sendSetChunksize s.getChunkSize)
  else if m.typeId = 5 then
    if m.payload.length < 4 then (.error, s)
    else (.ok, { s with remoteWindowAcksize := read4bytes m.payload })
  else (.ok, s)

/-! ## Responses -/

/-- 1.0 as a 64-bit pattern. -/
def DOUBLE_ONE : UInt64 := 0x3ff0000000000000

/-- 31.0 as a 64-bit pattern. -/
def DOUBLE_31 : UInt64 := 0x403f000000000000

/-- The body of the answer to `connect`. -/
def connectRespData : Bytes :=
  let buffer := AmfEncoder.encodeNumber DOUBLE_ONE
    (AmfEncoder.encodeString (ascii "_result") false [])
  let buffer := (AmfEncoder.encodeObject
    [(ascii "fmsVer", .string (ascii "FMS/3,0,1,123")),
      (ascii "capabilities", .number DOUBLE_31)] buffer).2
  (AmfEncoder.encodeObject
    [(ascii "level", .string (ascii "status")),
      (ascii "code", .string (ascii "NetConnection.Connect.Success")),
      (ascii "description", .string (ascii "Connection succeeded."))] buffer).2

/-- `send_rtmp_connect_resp`.  It sets the chunk size of the session to the one
that it announces. -/
def sendRtmpConnectResp (streamId : UInt32) (s : Session) : Except Fault (RtmpRet × Session) := do
  let winSize := genControlMessage 5 4 2500000 s.getChunkSize
  let peerBw := genControlMessage 6 5 2500000 s.getChunkSize
  let setChunkSizeMsg := genControlMessage 1 4 CONFIG_CHUNK_SIZE s.getChunkSize
  let s := s.setChunkSize CONFIG_CHUNK_SIZE
  let s := ((s.rtmpSend winSize).rtmpSend peerBw).rtmpSend setChunkSizeMsg
  let s ← s.writeData 3 0 20 streamId connectRespData
  return (.ok, { s with serverPhase := .createStream })

/-- The body of the answer to `createStream`. -/
def createStreamRespData (transactionId : UInt64) : Bytes :=
  AmfEncoder.encodeNumber DOUBLE_ONE (AmfEncoder.encodeNull
    (AmfEncoder.encodeNumber transactionId (AmfEncoder.encodeString (ascii "_result") false [])))

/-- `send_rtmp_create_stream_resp`. -/
def sendRtmpCreateStreamResp (transactionId : UInt64) (s : Session) :
    Except Fault (RtmpRet × Session) := do
  let s ← s.writeData 3 0 20 STREAM_ID (createStreamRespData transactionId)
  return (.ok, { s with serverPhase := .createPublishPlay })

/-- An `onStatus` command with a code and a description. -/
def onStatusData (code description : Bytes) : Bytes :=
  let buffer := AmfEncoder.encodeNull (AmfEncoder.encodeNumber 0
    (AmfEncoder.encodeString (ascii "onStatus") false []))
  (AmfEncoder.encodeObject
    [(ascii "level", .string (ascii "status")), (ascii "code", .string code),
      (ascii "description", .string description)] buffer).2

/-- The common part of the responses that send an `onStatus` command. -/
def sendOnStatus (code description : Bytes) (s : Session) : Except Fault Session :=
  s.writeData 3 0 20 STREAM_ID (onStatusData code description)

/-- `send_rtmp_play_reset_resp`. -/
def sendRtmpPlayResetResp : Session → Except Fault Session :=
  sendOnStatus (ascii "NetStream.Play.Reset") (ascii "Playing and resetting stream.")

/-- `send_rtmp_play_start_resp`. -/
def sendRtmpPlayStartResp : Session → Except Fault Session :=
  sendOnStatus (ascii "NetStream.Play.Start") (ascii "Started playing stream.")

/-- `send_rtmp_play_data_resp`. -/
def sendRtmpPlayDataResp : Session → Except Fault Session :=
  sendOnStatus (ascii "NetStream.Data.Start") (ascii "Started playing stream.")

/-- `send_rtmp_play_notify_resp`. -/
def sendRtmpPlayNotifyResp : Session → Except Fault Session :=
  sendOnStatus (ascii "NetStream.Play.PublishNotify") (ascii "Started playing notify.")

/-- `send_rtmp_play_resp`. -/
def sendRtmpPlayResp (s : Session) : Except Fault (RtmpRet × Session) := do
  let s := (s.rtmpSend (genUserControl 4 6)).rtmpSend (genUserControl 0 6)
  let s ← s.sendRtmpPlayResetResp
  let s ← s.sendRtmpPlayStartResp
  let s ← s.sendRtmpPlayDataResp
  let s ← s.sendRtmpPlayNotifyResp
  return (.ok, s)

/-- `send_rtmp_publish_resp`. -/
def sendRtmpPublishResp (s : Session) : Except Fault (RtmpRet × Session) := do
  let s ← s.sendOnStatus (ascii "NetStream.Publish.Start") (ascii "Start publising.")
  return (.ok, { s with serverPhase := .mediaHandle })

/-! ## Commands -/

/-- One field of the object of a `connect` command, if it is there. -/
def connectField (name : Bytes) (set : Bytes → RtmpRequest → RtmpRequest)
    (fields : List (Bytes × AmfItem)) (req : RtmpRequest) : RtmpRet × RtmpRequest :=
  match fields.find? (·.1 = name) with
  | some (_, .string desc) => (.ok, set desc req)
  | some _ => (.error, req)
  | none => (.ok, req)

/-- What `handle_rtmp_connect_command` takes from an object. -/
def connectObject (fields : List (Bytes × AmfItem)) (req : RtmpRequest) :
    RtmpRet × RtmpRequest :=
  match connectField (ascii "app") (fun v r => { r with app := v }) fields req with
  | (.ok, req) =>
    match connectField (ascii "tcUrl") (fun v r => { r with tcurl := v }) fields req with
    | (.ok, req) => connectField (ascii "flashVer") (fun v r => { r with flashVer := v }) fields req
    | other => other
  | other => other

/-- The loop of `handle_rtmp_connect_command` over the values behind the
command's name. -/
def connectItems : List AmfItem → RtmpRequest → RtmpRet × RtmpRequest
  | [], req => (.ok, req)
  | .object fields :: rest, req =>
    match connectObject fields req with
    | (.ok, req) => connectItems rest req
    | other => other
  | _ :: rest, req => connectItems rest req

/-- `handle_rtmp_connect_command`. -/
def handleRtmpConnectCommand (items : List AmfItem) (s : Session) :
    Except Fault (RtmpRet × Session) :=
  if items.length < 3 then .ok (.error, s)
  else
    match connectItems items.tail s.req with
    | (.ok, req) => sendRtmpConnectResp STREAM_ID { s with req := req }
    | (ret, req) => .ok (ret, { s with req := req })

/-- The last number behind the command's name, 0 if there is none. -/
def lastNumber (items : List AmfItem) : UInt64 :=
  items.foldl (fun id item => match item with | .number bits => bits | _ => id) 0

/-- `handle_rtmp_createstream_command`. -/
def handleRtmpCreatestreamCommand (items : List AmfItem) (s : Session) :
    Except Fault (RtmpRet × Session) :=
  if items.length < 3 then .ok (.error, s)
  else sendRtmpCreateStreamResp (lastNumber items.tail) s

/-- The stream name of a `play` or `publish` command: the first string behind
the command's name that is not empty. -/
def streamNameOf (items : List AmfItem) : Bytes :=
  items.foldl (fun name item => match item with
    | .string desc => if name = [] then desc else name
    | _ => name) []

/-- The request after an accepted `play` or `publish` command. -/
def acceptRequest (publish : Bool) (items : List AmfItem) (req : RtmpRequest) : RtmpRequest :=
  { req with
    streamName := streamNameOf items.tail
    publishFlag := publish
    isReady := true
    key := req.app ++ ascii "/" ++ streamNameOf items.tail }

/-- `handle_rtmp_play_command`. -/
def handleRtmpPlayCommand (items : List AmfItem) (s : Session) :
    Except Fault (RtmpRet × Session) :=
  if items.length < 3 then .ok (.error, s)
  else sendRtmpPlayResp { s with req := acceptRequest false items s.req }

/-- `handle_rtmp_publish_command`. -/
def handleRtmpPublishCommand (items : List AmfItem) (s : Session) :
    Except Fault (RtmpRet × Session) :=
  if items.length < 3 then .ok (.error, s)
  else sendRtmpPublishResp { s with req := acceptRequest true items s.req }

/-- The command that the name selects.  Other commands are ignored. -/
def handleCommand (name : Bytes) (items : List AmfItem) (s : Session) :
    Except Fault (RtmpRet × Session) :=
  if name = ascii "connect" then handleRtmpConnectCommand items s
  else if name = ascii "createStream" then handleRtmpCreatestreamCommand items s
  else if name = ascii "publish" then handleRtmpPublishCommand items s
  else if name = ascii "play" then handleRtmpPlayCommand items s
  else .ok (.ok, s)

/-- `handle_client_command_message`; `after` is the memory behind the payload. -/
def handleClientCommandMessage (after : Bytes) (m : Message) (s : Session) :
    Except Fault (RtmpRet × Session) := do
  let items ← AmfDecoder.decodePayload m.payload after
  match items with
  | [] => return (.error, s)
  | .string name :: _ =>
    let (ret, s) ← handleCommand name items s
    if ret = .ok then
      if s.req.isReady && !s.req.publishFlag then return (.ok, s)
      else return (.needReadMore, s)
    else return (ret, s)
  | _ => return (.error, s)

end Session

end MediaServer
