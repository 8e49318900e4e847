import MediaServer.Av.MediaStreamManager
import MediaServer.Rtmp.ControlHandler

/-!
# The RTMP server

`net/rtmp/rtmp_server_session`, `rtmp_writer` and `rtmp_server`: any number of
sessions that share the stream manager.

The program is one thread that runs callbacks to their end.  The callback of a
read may handle many messages, so its loop is cut into passes: `Control` says
whether a callback is in progress, and an event is either the start of a
callback or one pass of the loop.  States between two messages are states of
the machine in this way.

An object is known by its address.  `sessions` holds the sessions that are
open: `close` ends with `on_close`, which destroys the session, so there is no
closed session in it.  `writers` holds the `rtmp_writer` objects.  A call
through a pointer to an object that is gone is a fault.

Two things come with the events because the program does not determine them:
the outcome of the handshake, and the bytes that stand in memory behind the
payload of a message.

`log` records what happened.  No step looks at it.
-/

namespace MediaServer

/-! ## One message -/

namespace Session

/-- The codec in the first byte of a video message. -/
def videoCodec (p0 : UInt8) : Option MediaCodecType :=
  if p0 &&& 0x0f = 0x07 then some .h264
  else if p0 &&& 0x0f = 0x0c then some .h265
  else if p0 &&& 0x0f = 0x0e then some .vp8
  else if p0 &&& 0x0f = 0x0f then some .vp9
  else none

/-- The codec in the first byte of an audio message. -/
def audioCodec (p0 : UInt8) : Option MediaCodecType :=
  if p0 &&& 0xf0 = 0xa0 then some .aac
  else if p0 &&& 0xf0 = 0x90 then some .opus
  else none

/-- The fields that `get_media_packet` sets last. -/
def fillPacket (m : Message) (tsDelta : UInt32) (s : Session) (pkt : MediaPacket) : MediaPacket :=
  { pkt with
    typeid := m.typeId
    fmtType := .raw
    dts := m.timestamp.toNat
    pts := m.timestamp.toNat + tsDelta.toNat
    buffer := m.payload
    app := s.req.app
    streamname := s.req.streamName
    key := s.req.key
    streamid := m.msgStreamId }

/-- `get_media_packet`.  The packet of a key frame with an unknown NALU type
has no data.  A payload of less than two bytes gives a null pointer, which the
caller dereferences. -/
def getMediaPacket (after : Bytes) (m : Message) (s : Session) : Except Fault MediaPacket :=
  match m.payload with
  | p0 :: p1 :: rest =>
    if m.typeId = 9 then
      match videoCodec p0 with
      | none => .error .assertFailed
      | some codec =>
        if p0 &&& 0xf0 = 0x10 ∧ p1 ≠ 0x00 ∧ p1 ≠ 0x01 then
          .ok { avType := .video, codecType := codec, typeid := m.typeId, fmtType := .raw }
        else if (rest ++ after).length < 3 then .error .outOfBounds
        else
          .ok (fillPacket m (read3bytes (rest ++ after)) s
            { avType := .video
              codecType := codec
              isSeqHdr := p0 &&& 0xf0 = 0x10 ∧ p1 = 0x00
              isKeyFrame := p0 &&& 0xf0 = 0x10 ∧ p1 = 0x01 })
    else if m.typeId = 8 then
      match audioCodec p0 with
      | none => .error .assertFailed
      | some codec =>
        .ok (fillPacket m 0 s { avType := .audio, codecType := codec, isSeqHdr := p1 = 0x00 })
    else .ok (fillPacket m 0 s { avType := .metadata })
  | _ => .error .nullPointer

/-- What is left to do for a message outside its session. -/
inductive Action where
  | none
  | play
  | publish (pkt : MediaPacket)

/-- The message is one of audio, video or metadata. -/
def isMedia (typeId : UInt8) : Bool :=
  typeId = 9 || typeId = 8 || typeId = 18 || typeId = 15

/-- The part of `receive_chunk_stream` that handles a ready message.  The code
is the one that the loop ends with when this was the last message. -/
def handleMessage (after : Bytes) (m : Message) (s : Session) :
    Except Fault (RtmpRet × Action × Session) := do
  let s := s.sendRtmpAck (UInt32.ofNat m.payload.length)
  if 1 ≤ m.typeId ∧ m.typeId ≤ 6 then
    let (ret, s) := s.handleRtmpControlMessage m
    return (ret, .none, s)
  else if m.typeId = 20 then
    let (ret, s) ← s.handleClientCommandMessage after m
    if ret = .error then return (.error, .none, s)
    else return (ret, if s.req.isReady && !s.req.publishFlag then .play else .none, s)
  else if m.typeId = 17 then return (.error, .none, s)
  else if isMedia m.typeId then
    let pkt ← s.getMediaPacket after m
    if pkt.buffer.dataLen = 0 then return (.error, .none, s)
    else return (.ok, .publish pkt, s)
  else return (.ok, .none, s)

/-- `reset` of the chunk stream whose message was handled. -/
def resetStream (s : Session) : Session :=
  { s with base := { s.base with
    csMap := Function.update s.base.csMap (SessionBase.mapKey s.base.csid)
      (some s.base.currentStream.reset) } }

/-- One pass through the loop of `receive_chunk_stream`, as far as the session
is concerned.  The chunk stream of a message is reset before the packet is
handed to the stream manager, which does not look at it.  The result says
which message was handled, and the code with which the loop ends, if it ends.
-/
def receivePass (after : Bytes) (s : Session) :
    Except Fault (Option Message × Option RtmpRet × Action × Session) :=
  match s.base.readChunkStream with
  | (.ok, base) =>
    let s := { s with base := base }
    if !base.currentStream.isReady then
      .ok (none, if base.recvBuffer.dataLen > 0 then none else some .needReadMore, .none, s)
    else do
      let m := base.currentStream.message
      let (ret, action, s) ← s.handleMessage after m
      if ret = .error then return (some m, some .error, .none, s)
      let s := s.resetStream
      return (some m, if s.base.recvBuffer.dataLen > 0 then none else some ret, action, s)
  | (ret, base) => .ok (none, some ret, .none, { s with base := base })

end Session

/-! ## Sessions and writers -/

/-- `rtmp_server_session`.  `reading` is set while an asynchronous read is
outstanding. -/
structure ServerSession extends Session where
  sessionKey : Bytes := []
  playWriter : Option Nat := none
  reading : Bool := true

/-- `rtmp_writer`.  `deleted` marks an object that is gone; what it pointed to
is kept for the sake of statements about dangling pointers. -/
structure RtmpWriter where
  session : Nat
  initFlag : Bool := false
  deleted : Bool := false
  deriving DecidableEq, Repr

/-- The objects. -/
structure Heap where
  sessions : Nat → Option ServerSession := fun _ => none
  writers : Nat → Option RtmpWriter := fun _ => none

namespace Heap

/-- Access to a writer through a pointer. -/
def derefWriter (w : Nat) (h : Heap) : Except Fault RtmpWriter :=
  match h.writers w with
  | some writer => if writer.deleted then .error .useAfterFree else .ok writer
  | none => .error .useAfterFree

/-- Access to a session through a pointer. -/
def derefSession (sid : Nat) (h : Heap) : Except Fault ServerSession :=
  match h.sessions sid with
  | some s => .ok s
  | none => .error .useAfterFree

/-- A session is changed. -/
def setSession (sid : Nat) (s : ServerSession) (h : Heap) : Heap :=
  { h with sessions := Function.update h.sessions sid (some s) }

/-- A writer is changed. -/
def setWriter (w : Nat) (writer : RtmpWriter) (h : Heap) : Heap :=
  { h with writers := Function.update h.writers w (some writer) }

/-- `delete` of a writer. -/
def deleteWriter (w : Nat) (h : Heap) : Heap :=
  match h.writers w with
  | some writer => h.setWriter w { writer with deleted := true }
  | none => h

/-- The session that a writer writes to. -/
def sessionOf (w : Nat) (h : Heap) : Except Fault (Nat × ServerSession) := do
  let writer ← h.derefWriter w
  let s ← h.derefSession writer.session
  return (writer.session, s)

/-- The chunk stream id and the type with which a packet is sent. -/
def packetRoute (pkt : MediaPacket) : Option (UInt16 × UInt8) :=
  match pkt.avType with
  | .video => some (6, 9)
  | .audio => some (4, 8)
  | .metadata => some (6, pkt.typeid)
  | .unkown => none

/-- `rtmp_writer::write_packet`. -/
def writePacket (pkt : MediaPacket) (w : Nat) (h : Heap) : Except Fault (Int × Heap) := do
  let _ ← h.derefWriter w
  match packetRoute pkt with
  | none => return (-1, h)
  | some (csid, typeId) =>
    let (sid, s) ← h.sessionOf w
    let session ← s.toSession.writeData csid (UInt32.ofNat pkt.dts.toNat) typeId pkt.streamid
      pkt.buffer
    return (0, h.setSession sid { s with toSession := session })

/-- `rtmp_writer` as a class of writers.  Its key is the current key of the
session. -/
def rtmpWriter : AvWriterBase Heap Nat where
  writePacket := writePacket
  getKey w h := do return (← h.sessionOf w).2.req.key
  getWriterid w h := do return (← h.sessionOf w).2.sessionKey
  isInited w h := do return (← h.derefWriter w).initFlag
  setInitFlag flag w h := do
    let writer ← h.derefWriter w
    return h.setWriter w { writer with initFlag := flag }

end Heap

/-! ## The machine -/

/-- What is in progress: nothing, or the loop of session `sid`.  `afterC2` says
that the callback began in the phase of the handshake. -/
inductive Control where
  | idle
  | receiving (sid : Nat) (afterC2 : Bool)
  deriving DecidableEq, Repr

/-- What is recorded of a run. -/
inductive Obs where
  | received (sid : Nat) (after : Bytes) (m : Message)
  | played (sid : Nat) (req : RtmpRequest)
  | published (sid : Nat) (req : RtmpRequest) (pkt : MediaPacket)
  | closed (sid : Nat)

/-- The server: its objects, the streams and the callback in progress. -/
structure World where
  heap : Heap := {}
  streams : Streams Nat := fun _ => none
  nextSession : Nat := 0
  nextWriter : Nat := 0
  control : Control := .idle
  log : List Obs := []

/-- The events.  `handshake` is what `send_s0s1s2` sends, `none` when the
handshake fails; `after` is the memory behind the payload of a message.
`hangup` is a failed read or write, or the timer that closes silent sessions. -/
inductive Event where
  | accept (sessionKey : Bytes)
  | read (sid : Nat) (data : Bytes) (handshake : Option Bytes)
  | pass (after : Bytes)
  | hangup (sid : Nat)

namespace World

/-- The session with a number. -/
def session (w : World) (sid : Nat) : Option ServerSession := w.heap.sessions sid

/-- A session is changed. -/
def setSession (sid : Nat) (s : ServerSession) (w : World) : World :=
  { w with heap := w.heap.setSession sid s }

/-- What is recorded. -/
def note (obs : List Obs) (w : World) : World := { w with log := w.log ++ obs }

/-- `on_close`: the server drops the session, which ends its life. -/
def destroy (sid : Nat) (w : World) : World :=
  { w with
    heap := { w.heap with sessions := Function.update w.heap.sessions sid none }
    log := w.log ++ [.closed sid] }

/-- `rtmp_server_session::close`. -/
def close (sid : Nat) (w : World) : Except Fault World :=
  match w.session sid with
  | none => .ok w
  | some s => do
    let w ←
      if s.req.isReady && !s.req.publishFlag then
        match s.playWriter with
        | some p => do
          let streams ← MediaStreamManager.removePlayer Heap.rtmpWriter p w.heap w.streams
          pure { w with streams := streams, heap := w.heap.deleteWriter p }
        | none => pure w
      else if s.req.key ≠ [] then
        pure { w with streams := MediaStreamManager.removePublisher s.req.key w.streams }
      else pure w
    return w.destroy sid

/-- `on_read` when `handle_request` has returned `ret`. -/
def endRead (sid : Nat) (ret : RtmpRet) (w : World) : Except Fault World :=
  let w := { w with control := .idle }
  match ret with
  | .error => w.close sid
  | .needReadMore =>
    match w.session sid with
    | some s => .ok (w.setSession sid { s with reading := true })
    | none => .ok w
  | .ok => .ok w

/-- `on_accept`.  The key is the address of the peer. -/
def accept (sessionKey : Bytes) (w : World) : World :=
  { w with
    heap := w.heap.setSession w.nextSession { sessionKey := sessionKey }
    nextSession := w.nextSession + 1 }

/-- `on_read` with data, up to the loop over the chunks. -/
def onRead (sid : Nat) (data : Bytes) (handshake : Option Bytes) (w : World) :
    Except Fault World :=
  match w.session sid with
  | none => .ok w
  | some s =>
    let buffer := s.base.recvBuffer.appendData data
    let put (s : ServerSession) (buffer : DataBuffer) : World :=
      w.setSession sid { s with base := { s.base with recvBuffer := buffer }, reading := false }
    match s.serverPhase with
    | .initial =>
      if !buffer.require 1537 then (put s buffer).endRead sid .needReadMore
      else
        match handshake with
        | none => (put s buffer).endRead sid .error
        | some s0s1s2 =>
          (put { s with
            sent := s.sent ++ [s0s1s2], serverPhase := .handshakeC2 } []).endRead sid .needReadMore
    | .handshakeC2 =>
      if !buffer.require 1536 then (put s buffer).endRead sid .needReadMore
      else
        let w := put { s with serverPhase := .connect } (buffer.consumeData 1536)
        if (buffer.consumeData 1536).dataLen = 0 then w.endRead sid .needReadMore
        else .ok { w with control := .receiving sid true }
    | _ => .ok { put s buffer with control := .receiving sid false }

/-- What a message makes the rest of the server do. -/
def perform (sid : Nat) (req : RtmpRequest) : Session.Action → World → Except Fault World
  | .none, w => .ok w
  | .play, w => do
    let p := w.nextWriter
    let heap := w.heap.setWriter p { session := sid }
    let heap := match heap.sessions sid with
      | some s => heap.setSession sid { s with playWriter := some p }
      | none => heap
    let streams ← MediaStreamManager.addPlayer Heap.rtmpWriter p heap w.streams
    return { w with
      heap := heap, streams := streams, nextWriter := p + 1, log := w.log ++ [.played sid req] }
  | .publish pkt, w => do
    let (heap, streams) ←
      MediaStreamManager.writerMediaPacket Heap.rtmpWriter pkt w.heap w.streams
    return { w with
      heap := heap, streams := streams, log := w.log ++ [.published sid req pkt] }

/-- One pass of the loop that is in progress. -/
def receivePass (after : Bytes) (w : World) : Except Fault World :=
  match w.control with
  | .idle => .ok w
  | .receiving sid afterC2 =>
    match w.session sid with
    | none => .ok w
    | some s => do
      let (m, ret, action, session) ← s.toSession.receivePass after
      let w := w.setSession sid { s with toSession := session }
      let w := w.note (m.toList.map (Obs.received sid after))
      let w ← w.perform sid session.req action
      match ret with
      | none => return w
      | some ret => w.endRead sid (if ret = .ok && !afterC2 then .needReadMore else ret)

/-- No open session has this key. -/
def freshKey (sessionKey : Bytes) (w : World) : Bool :=
  (List.range w.nextSession).all fun sid =>
    (w.session sid).all fun s => s.sessionKey ≠ sessionKey

/-- The event can occur.  A session reads only after it has asked for data, and
no two open connections have the same peer address. -/
def enabled (w : World) : Event → Bool
  | .accept sessionKey => w.control = .idle && w.freshKey sessionKey
  | .read sid data _ => w.control = .idle && !data.isEmpty && (w.session sid).any (·.reading)
  | .pass _ => w.control ≠ .idle
  | .hangup _ => w.control = .idle

/-- One step of the server.  An event that cannot occur changes nothing. -/
def step (e : Event) (w : World) : Except Fault World :=
  if !w.enabled e then .ok w
  else
    match e with
    | .accept sessionKey => .ok (w.accept sessionKey)
    | .read sid data handshake => w.onRead sid data handshake
    | .pass after => w.receivePass after
    | .hangup sid => w.close sid

end World

end MediaServer
