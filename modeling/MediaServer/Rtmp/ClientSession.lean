import MediaServer.Rtmp.ServerSession

/-!
# The RTMP client

`net/rtmp/rtmp_client_session`, with `handle_server_command_message` of
`rtmp_control_handler`: one session that connects to a server and publishes or
plays one stream.

As for the server, the loop of a callback is cut into passes.
`handle_message` runs the loop `receive_resp_message` for three of its phases
and does something else with the code of each, so `ClientControl` says for
which phase the loop in progress runs.  The phases behind it follow in the same
call (`resume`).

The outcome of the TCP connect, the random bytes of C1 and the memory behind
the payload of a message come with the events.  A session that is closed may be
started again for the same stream.

`log` records what happened on the connection.  No step looks at it.
-/

namespace MediaServer

/-- `RTMP_CLIENT_SESSION_PHASE`. -/
inductive ClientPhase where
  | initial
  | c0c1
  | connect
  | connectResp
  | createStream
  | createStreamResp
  | createPlay
  | createPublish
  | mediaHandle
  deriving DecidableEq, Repr

/-- The phases that read messages from the server. -/
inductive RespPhase where
  | connectResp
  | createStreamResp
  | mediaHandle
  deriving DecidableEq, Repr

/-- What is in progress: nothing, or `receive_resp_message` for a phase. -/
inductive ClientControl where
  | idle
  | receiving (phase : RespPhase)
  deriving DecidableEq, Repr

/-- The commands that a client sends. -/
inductive ClientCommand where
  | connect
  | createStream
  | play
  | publish
  deriving DecidableEq, Repr

/-- What is recorded of a connection. -/
inductive ClientObs where
  | sent (command : ClientCommand)
  | received (after : Bytes) (m : Message)
  | delivered (pkt : MediaPacket)

/-- `rtmp_client_session`.  `connected` is `is_connect_` of its `tcp_client`,
and `reading` is set while an asynchronous read is outstanding. -/
structure ClientSession extends Session where
  clientPhase : ClientPhase := .initial
  connected : Bool := false
  reading : Bool := false
  control : ClientControl := .idle
  log : List ClientObs := []

namespace ClientSession

/-- The fields that `start` sets. -/
def start (publish : Bool) (tcurl app streamName : Bytes) : ClientSession :=
  { req :=
      { publishFlag := publish
        app := app
        tcurl := tcurl
        streamName := streamName
        key := app ++ ascii "/" ++ streamName } }

/-- What is recorded. -/
def note (obs : ClientObs) (s : ClientSession) : ClientSession := { s with log := s.log ++ [obs] }

/-- `try_read`. -/
def tryRead (s : ClientSession) : ClientSession := { s with reading := true }

/-- The phase in which the stream is requested. -/
def requestPhase (s : ClientSession) : ClientPhase :=
  if s.req.publishFlag then .createPublish else .createPlay

/-- `recv_buffer_.reset()`. -/
def resetBuffer (s : ClientSession) : ClientSession :=
  { s with base := { s.base with recvBuffer := [] } }

/-- `close`.  The outstanding read is cancelled with the socket. -/
def close (s : ClientSession) : ClientSession :=
  { s with connected := false, reading := false, control := .idle }

/-- The callback returns. -/
def done (s : ClientSession) : ClientSession := { s with control := .idle }

/-! ## Commands to the server -/

/-- A command is sent on chunk stream 3 and recorded. -/
def sendCommand (command : ClientCommand) (data : Bytes) (s : ClientSession) :
    Except Fault ClientSession := do
  let session ← s.toSession.writeData 3 0 20 0 data
  return { s with toSession := session, log := s.log ++ [.sent command] }

/-- The body of a `connect` command. -/
def connectData (req : RtmpRequest) : Bytes :=
  (AmfEncoder.encodeObject
    [(ascii "app", .string req.app), (ascii "type", .string (ascii "nonprivate")),
      (ascii "flashVer", .string (ascii "FMS.3.1")), (ascii "tcUrl", .string req.tcurl)]
    (AmfEncoder.encodeNumber Session.DOUBLE_ONE
      (AmfEncoder.encodeString (ascii "connect") false []))).2

/-- The body of a `createStream` command. -/
def createStreamData : Bytes :=
  AmfEncoder.encodeNull (AmfEncoder.encodeNumber Session.DOUBLE_ONE
    (AmfEncoder.encodeString (ascii "createStream") false []))

/-- The body of a `play` command. -/
def playData (req : RtmpRequest) : Bytes :=
  AmfEncoder.encodeString req.streamName false (AmfEncoder.encodeNull
    (AmfEncoder.encodeNumber 0 (AmfEncoder.encodeString (ascii "play") false [])))

/-- The body of a `publish` command. -/
def publishData (req : RtmpRequest) : Bytes :=
  AmfEncoder.encodeString (ascii "live") false
    (AmfEncoder.encodeString req.streamName false (AmfEncoder.encodeNull
      (AmfEncoder.encodeNumber 0 (AmfEncoder.encodeString (ascii "publish") false []))))

/-- `rtmp_connect`. -/
def rtmpConnect (s : ClientSession) : Except Fault ClientSession :=
  s.sendCommand .connect (connectData s.req)

/-- `rtmp_createstream`. -/
def rtmpCreatestream (s : ClientSession) : Except Fault ClientSession :=
  s.sendCommand .createStream createStreamData

/-- `rtmp_play`. -/
def rtmpPlay (s : ClientSession) : Except Fault ClientSession :=
  s.sendCommand .play (playData s.req)

/-- `rtmp_publish`. -/
def rtmpPublish (s : ClientSession) : Except Fault ClientSession :=
  s.sendCommand .publish (publishData s.req)

/-- `rtmp_write`.  The codes that it returns are not looked at here. -/
def rtmpWrite (pkt : MediaPacket) (s : ClientSession) : Except Fault ClientSession :=
  if !s.connected then .ok s
  else
    match Heap.packetRoute pkt with
    | none => .ok s
    | some (csid, typeId) => do
      let session ← s.toSession.writeData csid (UInt32.ofNat pkt.dts.toNat) typeId pkt.streamid
        pkt.buffer
      return { s with toSession := session }

/-! ## Commands from the server -/

/-- The phases in which an answer to `connect` or `createStream` is due. -/
def awaitsResult (phase : ClientPhase) : Bool :=
  phase = .connect || phase = .connectResp || phase = .createStream || phase = .createStreamResp

/-- The phases in which the stream has been asked for. -/
def awaitsStatus (phase : ClientPhase) : Bool :=
  phase = .createPublish || phase = .createPlay

/-- The phase that a `_result` leads to. -/
def resultPhase (request phase : ClientPhase) : ClientPhase :=
  if phase = .connect ∨ phase = .connectResp then .createStream else request

/-- A string of a command in `handle_server_command_message`.  The result is
the new `next_phase`, or `none` when the command is refused. -/
def serverString (request phase : ClientPhase) (desc : Bytes) (next : ClientPhase) :
    Option ClientPhase :=
  if awaitsResult phase then
    if desc = ascii "_result" then some (resultPhase request phase)
    else if desc = ascii "onBWDone" then some next
    else none
  else if awaitsStatus phase then
    if desc = ascii "_result" ∨ desc = ascii "onStatus" then some next else none
  else some next

/-- The `code` of an object of a command is one that the phase accepts. -/
def codeAccepted (phase : ClientPhase) (desc : Bytes) : Bool :=
  if phase = .connect then desc = ascii "NetConnection.Connect.Success"
  else if awaitsStatus phase then
    desc = ascii "NetStream.Publish.Start" || desc = ascii "NetStream.Play.Start"
  else true

/-- The string under the key `code` of an object. -/
def codeOf (fields : List (Bytes × AmfItem)) : Option Bytes :=
  match fields.find? (·.1 = ascii "code") with
  | some (_, .string desc) => some desc
  | _ => none

/-- One value of a command. -/
def serverItem (request phase : ClientPhase) (item : AmfItem) (next : ClientPhase) :
    Option ClientPhase :=
  match item with
  | .string desc => serverString request phase desc next
  | .object fields =>
    match codeOf fields with
    | some desc => if codeAccepted phase desc then some next else none
    | none => some next
  | _ => some next

/-- The loop of `handle_server_command_message` over the values.  The phase of
the session does not change in it. -/
def serverItems (request phase : ClientPhase) : List AmfItem → ClientPhase → Option ClientPhase
  | [], next => some next
  | item :: rest, next =>
    match serverItem request phase item next with
    | some next => serverItems request phase rest next
    | none => none

/-- `handle_server_command_message`. -/
def handleServerCommandMessage (after : Bytes) (m : Message) (s : ClientSession) :
    Except Fault (RtmpRet × ClientSession) := do
  let items ← AmfDecoder.decodePayload m.payload after
  if items = [] then return (.error, s)
  else
    match serverItems s.requestPhase s.clientPhase items s.clientPhase with
    | some next => return (.ok, { s with clientPhase := next })
    | none => return (.error, s)

/-! ## Messages -/

/-- `reset` of the chunk stream whose message was handled, and the end of the
pass: the loop goes on while there is data. -/
def finishMessage (ret : RtmpRet) (s : ClientSession) : Option RtmpRet × ClientSession :=
  if ret = .error then (some .error, s)
  else
    let s := { s with toSession := s.toSession.resetStream }
    (if s.base.recvBuffer.dataLen > 0 then none else some ret, s)

/-- The part of `receive_resp_message` that handles a ready message.  The loop
goes on behind audio, video and metadata also when there is no data, and
behind a message of another type, whose chunk stream is not reset. -/
def handleMessage (after : Bytes) (m : Message) (s : ClientSession) :
    Except Fault (Option RtmpRet × ClientSession) :=
  if 1 ≤ m.typeId ∧ m.typeId ≤ 6 then
    let r := s.toSession.handleRtmpControlMessage m
    .ok (finishMessage r.1 { s with toSession := r.2 })
  else if m.typeId = 20 then do
    let r ← s.handleServerCommandMessage after m
    return finishMessage r.1 r.2
  else if Session.isMedia m.typeId then do
    let pkt ← s.toSession.getMediaPacket after m
    if pkt.buffer.dataLen = 0 then return (some .error, s)
    else return (none, { s.note (.delivered pkt) with toSession := s.toSession.resetStream })
  else .ok (none, s)

/-- One pass through the loop of `receive_resp_message`.  The result has the
code with which the loop ends, if it ends. -/
def respPass (after : Bytes) (s : ClientSession) : Except Fault (Option RtmpRet × ClientSession) :=
  match s.base.readChunkStream with
  | (.ok, base) =>
    let s := { s with base := base }
    if !base.currentStream.isReady then
      .ok (if base.recvBuffer.dataLen > 0 then none else some .needReadMore, s)
    else
      let m := base.currentStream.message
      (s.note (.received after m)).handleMessage after m
  | (ret, base) => .ok (some ret, { s with base := base })

/-! ## `handle_message` -/

/-- `handle_message` in the phase of the handshake. -/
def handleS0s1s2 (s : ClientSession) : Except Fault ClientSession :=
  if !s.base.recvBuffer.require 3073 then .ok s.tryRead.done
  else do
    let c2 := (s.base.recvBuffer.drop 1).take 1536
    let s := { s with clientPhase := .connect, toSession := s.toSession.rtmpSend c2 }
    let s ← s.rtmpConnect
    return { s.resetBuffer with clientPhase := .connectResp }.tryRead.done

/-- `handle_message` from the phase `create_stream` on. -/
def resume (s : ClientSession) : Except Fault ClientSession :=
  match s.clientPhase with
  | .createStream => do
    let s ← s.rtmpCreatestream
    return { s.resetBuffer with clientPhase := .createStreamResp }.tryRead.done
  | .createStreamResp => .ok { s with control := .receiving .createStreamResp }
  | .createPlay => do
    let s ← s.rtmpPlay
    return { s.resetBuffer.tryRead with clientPhase := .mediaHandle }.done
  | .createPublish => do
    let s ← s.rtmpPublish
    return { s.resetBuffer.tryRead with clientPhase := .mediaHandle }.done
  | .mediaHandle => .ok { s with control := .receiving .mediaHandle }
  | _ => .ok s.done

/-- What `handle_message` does with the code of the loop. -/
def endLoop (phase : RespPhase) (ret : RtmpRet) (s : ClientSession) : Except Fault ClientSession :=
  match phase, ret with
  | _, .error => .ok s.close
  | .connectResp, .needReadMore => .ok s.done
  | .connectResp, .ok =>
    if s.clientPhase = .connectResp then s.tryRead.resume else s.resume
  | .createStreamResp, .needReadMore => .ok s.tryRead.done
  | .createStreamResp, .ok => { s.resetBuffer with clientPhase := s.requestPhase }.resume
  | .mediaHandle, _ => .ok s.tryRead.done

/-- `on_connect`. -/
def onConnect (c1 : Option Bytes) (s : ClientSession) : ClientSession :=
  match c1 with
  | none => s.close
  | some c1 =>
    { s.resetBuffer with
      clientPhase := .c0c1
      connected := true
      log := []
      toSession := s.resetBuffer.toSession.rtmpSend (3 :: c1) }.tryRead

/-- `on_read` with data, up to the loop over the chunks. -/
def onRead (data : Bytes) (s : ClientSession) : Except Fault ClientSession :=
  let s := { s with
    base := { s.base with recvBuffer := s.base.recvBuffer.appendData data }, reading := false }
  match s.clientPhase with
  | .c0c1 => s.handleS0s1s2
  | .connectResp => .ok { s with control := .receiving .connectResp }
  | _ => s.resume

/-- One pass of the loop that is in progress. -/
def receivePass (after : Bytes) (s : ClientSession) : Except Fault ClientSession :=
  match s.control with
  | .idle => .ok s
  | .receiving phase => do
    let (ret, s) ← s.respPass after
    match ret with
    | none => return s
    | some ret => s.endLoop phase ret

/-! ## The machine -/

/-- The events.  `connect` is the end of the TCP connect, with the random bytes
of C1 when it has succeeded; `hangup` is a failed read or write; `write` is a
packet that the application sends. -/
inductive Event where
  | connect (c1 : Option Bytes)
  | read (data : Bytes)
  | pass (after : Bytes)
  | hangup
  | write (pkt : MediaPacket)

/-- The event can occur. -/
def enabled (s : ClientSession) : Event → Bool
  | .connect _ => s.control = .idle && !s.connected
  | .read data => s.control = .idle && s.connected && s.reading && !data.isEmpty
  | .pass _ => s.control ≠ .idle
  | .hangup => s.control = .idle && s.connected
  | .write _ => s.control = .idle

/-- One step of the client.  An event that cannot occur changes nothing. -/
def step (e : Event) (s : ClientSession) : Except Fault ClientSession :=
  if !s.enabled e then .ok s
  else
    match e with
    | .connect c1 => .ok (s.onConnect c1)
    | .read data => s.onRead data
    | .pass after => s.receivePass after
    | .hangup => .ok s.close
    | .write pkt => s.rtmpWrite pkt

end ClientSession

end MediaServer
