import Mathlib.Logic.Function.Basic
import Mathlib.Tactic.Common
import MediaServer.Av.MediaStreamManager
import MediaServer.Http.HttpSession
import MediaServer.Httpflv.HttpflvWriter
import MediaServer.Lib.OrderedMap

/-!
# The HTTP-FLV server

`net/httpflv/httpflv_server` over `net/http/http_server`: a session reads one request, the
handler makes a writer for the stream in its path, and the stream manager writes to it.
Two timers look for what has been silent, one for sessions and one for writers.

A session, a response and a writer hold pointers to each other, and a socket holds one to its
session (`tcp_session::callback_`).  An object is known by its address, and a call through a
pointer to an object that is gone is a fault.  A session that is destroyed does not close its
socket, which may call back later.  A response is shared by its session and its writer, so that
it never goes.  The players of the other
servers are the parameter `others`; the stream manager has them beside the writers.

The unordered maps are walked in the order of their keys.  `log` records what keeps the
sessions and the writers alive, and no step looks at it.
-/

namespace MediaServer

/-- `session_aliver`. -/
structure SessionAliver where
  notAliveCnt : Nat := 0
  tryMax : Nat := 4
  deriving DecidableEq, Repr

namespace SessionAliver

/-- `keep_alive`. -/
def keepAlive (a : SessionAliver) : SessionAliver := { a with notAliveCnt := 0 }

/-- `is_alive`, which counts its calls. -/
def isAlive (a : SessionAliver) : Bool × SessionAliver :=
  (!decide (a.notAliveCnt > a.tryMax), { a with notAliveCnt := a.notAliveCnt + 1 })

theorem isAlive_iff {a : SessionAliver} (hmax : a.tryMax = 4) :
    a.isAlive.1 = true ↔ a.notAliveCnt ≤ 4 := by
  simp [isAlive, hmax]

end SessionAliver

namespace HttpflvServer

/-- `http_session`.  `sent` is what it has given to its socket.  `reading` is set while an
asynchronous read is outstanding, and `failed` when a read has failed. -/
structure Session where
  remoteEndpoint : Bytes
  input : HttpInput := {}
  response : Option Nat := none
  isClosed : Bool := false
  aliver : SessionAliver := {}
  sent : Bytes := []
  reading : Bool := true
  failed : Bool := false
  deriving DecidableEq, Repr

/-- `http_response`. -/
structure Response where
  session : Option Nat
  isClose : Bool := false
  writtenHeader : Bool := false
  deriving DecidableEq, Repr

/-- `httpflv_writer`. -/
structure Writer where
  key : Bytes
  writerId : Bytes
  resp : Nat
  initFlag : Bool := false
  hasVideo : Bool := true
  hasAudio : Bool := true
  flvHeaderReady : Bool := false
  closedFlag : Bool := false
  aliver : SessionAliver := {}
  deriving DecidableEq, Repr

/-- What is recorded.  `heard` is a callback of the socket of a session, `ticked` and
`checked` are the timers of the sessions and of the writers. -/
inductive Obs where
  | accepted (c : Nat)
  | heard (c : Nat)
  | ticked
  | made (p : Nat)
  | wrote (p : Nat) (pkt : MediaPacket)
  | checked

/-- The objects, with `session_ptr_map_` and `s_httpflv_handle_map`. -/
structure Heap where
  sessions : Nat → Option Session := fun _ => none
  responses : Nat → Option Response := fun _ => none
  writers : Nat → Option Writer := fun _ => none
  sessionPtrMap : OrderedMap Bytes Nat := .empty
  handleMap : OrderedMap Bytes Nat := .empty
  nextSession : Nat := 0
  nextResponse : Nat := 0
  nextWriter : Nat := 0
  log : List Obs := []

namespace Heap

/-! ## Pointers -/

/-- What a pointer points to. -/
def deref {α : Type} : Option α → Except Fault α
  | some a => .ok a
  | none => .error .useAfterFree

/-- A session is changed. -/
def setSession (c : Nat) (s : Session) (h : Heap) : Heap :=
  { h with sessions := Function.update h.sessions c (some s) }

/-- A response is changed. -/
def setResponse (r : Nat) (resp : Response) (h : Heap) : Heap :=
  { h with responses := Function.update h.responses r (some resp) }

/-- A writer is changed. -/
def setWriter (p : Nat) (w : Writer) (h : Heap) : Heap :=
  { h with writers := Function.update h.writers p (some w) }

/-- What is recorded. -/
def record (o : Obs) (h : Heap) : Heap := { h with log := h.log ++ [o] }

/-! ## `http_session` and `http_response` -/

/-- `http_response::set_close`. -/
def setClose (r : Nat) (h : Heap) : Except Fault Heap := do
  let resp ← deref (h.responses r)
  return h.setResponse r { resp with isClose := true, session := none }

/-- `http_session::close`. -/
def closeSession (c : Nat) (h : Heap) : Except Fault Heap := do
  let s ← deref (h.sessions c)
  if s.isClosed then return h
  let h := h.setSession c { s with isClosed := true }
  match s.response with
  | none => return h
  | some r => setClose r h

/-- The destructor of a session that has gone from `session_ptr_map_`. -/
def destroySession (c : Nat) (h : Heap) : Except Fault Heap := do
  let h ← closeSession c h
  return { h with sessions := Function.update h.sessions c none }

/-- `http_session::write`. -/
def writeSession (c : Nat) (data : Bytes) (h : Heap) : Except Fault Heap := do
  let s ← deref (h.sessions c)
  return h.setSession c { s with sent := s.sent ++ data }

/-- What a response sends before its first data.  No header is ever set. -/
def responseHeader (len : Nat) (continueFlag : Bool) : Bytes :=
  ascii "HTTP/1.1 200 OK\r\n" ++
    (if continueFlag then [] else ascii ("Content-Length:" ++ toString len ++ "\r\n")) ++
      ascii "\r\n"

/-- `http_response::write`. -/
def writeResponse (r : Nat) (data : Bytes) (continueFlag : Bool) (h : Heap) :
    Except Fault (Int × Heap) := do
  let resp ← deref (h.responses r)
  match resp.isClose, resp.session with
  | true, _ => return (-1, h)
  | false, none => return (-1, h)
  | false, some c =>
    let h ← if resp.writtenHeader then pure h else do
      let h ← writeSession c (responseHeader data.length continueFlag) h
      pure (h.setResponse r { resp with writtenHeader := true })
    let h ← writeSession c data h
    return (0, h)

/-- `http_response::close`. -/
def closeResponse (r : Nat) (h : Heap) : Except Fault Heap := do
  let resp ← deref (h.responses r)
  if resp.isClose then return h
  let h := h.setResponse r { resp with isClose := true }
  match resp.session with
  | none => .error .nullPointer
  | some c => do
    let h ← closeSession c h
    setClose r h

/-! ## `httpflv_writer` -/

/-- `send_flv_header`.  What the write of the header returns is not looked at. -/
def sendFlvHeader (p : Nat) (h : Heap) : Except Fault (Int × Heap) := do
  let w ← deref (h.writers p)
  if w.flvHeaderReady then return (0, h)
  if !w.hasAudio && !w.hasVideo then return (-1, h)
  let (_, h) ←
    writeResponse w.resp (flvFileHeader (FlvMuxer.headerFlag w.hasVideo w.hasAudio)) true h
  return (0, h.setWriter p { w with flvHeaderReady := true })

/-- The parts of a tag. -/
def tagParts (tagType : UInt8) (pkt : MediaPacket) : List Bytes :=
  let preSize : Nat := 11 + pkt.buffer.length
  [HttpflvWriter.flvHeader tagType pkt.buffer.length pkt.dts, pkt.buffer,
    BigEndian.digits 4 preSize]

/-- The writes of a tag, up to the first that fails. -/
def writeParts (r : Nat) : List Bytes → Heap → Except Fault (Int × Heap)
  | [], h => .ok (0, h)
  | data :: rest, h => do
    let (ret, h) ← writeResponse r data true h
    if ret < 0 then return (ret, h)
    writeParts r rest h

/-- `keep_alive` of a writer. -/
def keepWriter (p : Nat) (h : Heap) : Except Fault Heap := do
  let w ← deref (h.writers p)
  return h.setWriter p { w with aliver := w.aliver.keepAlive }

/-- The tag type of a packet, if it has one. -/
def tagType (pkt : MediaPacket) : Option UInt8 :=
  match pkt.avType with
  | .video => some FLV_TAG_VIDEO
  | .audio => some FLV_TAG_AUDIO
  | .metadata | .unkown => none

/-- `write_packet`. -/
def writePacket (pkt : MediaPacket) (p : Nat) (h : Heap) : Except Fault (Int × Heap) := do
  let (ret, h) ← sendFlvHeader p h
  if ret ≠ 0 then return (0, h)
  match tagType pkt with
  | none => return (0, h)
  | some tag =>
    let w ← deref (h.writers p)
    let (ret, h) ← writeParts w.resp (tagParts tag pkt) h
    if ret < 0 then return (ret, h)
    let h ← keepWriter p h
    return (0, h.record (.wrote p pkt))

/-- `close_writer`. -/
def closeWriter (p : Nat) (h : Heap) : Except Fault Heap := do
  let w ← deref (h.writers p)
  if w.closedFlag then return h
  closeResponse w.resp (h.setWriter p { w with closedFlag := true })

/-- `delete` of a writer. -/
def deleteWriter (p : Nat) (h : Heap) : Except Fault Heap := do
  let h ← closeWriter p h
  return { h with writers := Function.update h.writers p none }

end Heap

/-! ## The players of the stream manager -/

section Machine

variable {τ V : Type}

/-- The writers of this server and those of the others. -/
def players (others : AvWriterBase τ V) : AvWriterBase (Heap × τ) (Nat ⊕ V) where
  writePacket pkt w st :=
    match w with
    | .inl p => do
      let (ret, h) ← st.1.writePacket pkt p
      return (ret, (h, st.2))
    | .inr v => do
      let (ret, t) ← others.writePacket pkt v st.2
      return (ret, (st.1, t))
  getKey w st :=
    match w with
    | .inl p => do return (← Heap.deref (st.1.writers p)).key
    | .inr v => others.getKey v st.2
  getWriterid w st :=
    match w with
    | .inl p => do return (← Heap.deref (st.1.writers p)).writerId
    | .inr v => others.getWriterid v st.2
  isInited w st :=
    match w with
    | .inl p => do return (← Heap.deref (st.1.writers p)).initFlag
    | .inr v => others.isInited v st.2
  setInitFlag flag w st :=
    match w with
    | .inl p => do
      let w ← Heap.deref (st.1.writers p)
      return (st.1.setWriter p { w with initFlag := flag }, st.2)
    | .inr v => do
      let t ← others.setInitFlag flag v st.2
      return (st.1, t)

/-- The server, the other writers of the streams and the streams. -/
structure World (τ V : Type) where
  heap : Heap := {}
  others : τ
  streams : Streams (Nat ⊕ V) := fun _ => none

/-- What ends a run. -/
inductive Stop where
  | fault (f : Fault)
  /-- An exception that `analyze_header` throws. -/
  | thrown
  deriving DecidableEq

/-- A fault ends the run. -/
def ofFault {α : Type} : Except Fault α → Except Stop α
  | .ok a => .ok a
  | .error f => .error (.fault f)

namespace World

variable (others : AvWriterBase τ V) (uuid : Nat → Bytes)

/-- A callback that changes the objects only. -/
def withHeap (f : Heap → Except Fault Heap) (w : World τ V) : Except Fault (World τ V) := do
  let h ← f w.heap
  return { w with heap := h }

/-- The stream that a path names, without the slash before it. -/
def streamKey (uri : Bytes) : Option Bytes :=
  (find (ascii ".flv") uri).map fun pos =>
    if (uri.take pos).head? = some 47 then (uri.take pos).tail else uri.take pos

/-- `httpflv_handle`.  An id that is in the map stays there. -/
def httpflvHandle (uri : Bytes) (r : Nat) (w : World τ V) : Except Fault (World τ V) :=
  match streamKey uri with
  | none => w.withHeap (Heap.closeResponse r)
  | some key => do
    let p := w.heap.nextWriter
    let id := uuid p
    let h := { w.heap with nextWriter := p + 1 }.setWriter p { key, writerId := id, resp := r }
    let h := { h with handleMap := if (h.handleMap.find? id).isSome then h.handleMap
      else h.handleMap.assign id p }
    let streams ← MediaStreamManager.addPlayer (players others) (.inl p) (h, w.others) w.streams
    return { w with heap := h.record (.made p), streams := streams }

/-- The call of the handler, which every path has: it is the one of `/`. -/
def handle (c : Nat) (w : World τ V) : Except Fault (World τ V) := do
  let s ← Heap.deref (w.heap.sessions c)
  let r := w.heap.nextResponse
  let h := { w.heap with nextResponse := r + 1 }.setResponse r { session := some c }
  let h := h.setSession c { s with response := some r }
  httpflvHandle others uuid s.input.request.uri r { w with heap := h }

/-- `on_close` of the server. -/
def onClose (endpoint : Bytes) (h : Heap) : Except Fault Heap :=
  match h.sessionPtrMap.find? endpoint with
  | none => .ok h
  | some c => Heap.destroySession c { h with sessionPtrMap := h.sessionPtrMap.erase endpoint }

/-- `on_read`, through the pointer `callback_` of the socket.  `none` is a read that has
failed, which has no data. -/
def onRead (c : Nat) (read : Option Bytes) (w : World τ V) : Except Stop (World τ V) :=
  match w.heap.sessions c with
  | none => .error (.fault .useAfterFree)
  | some s =>
    if !s.reading then .ok w
    else do
      let h := w.heap.setSession c { s with reading := false, failed := s.failed || read.isNone }
      let h ← ofFault (if read.isNone then Heap.closeSession c h else .ok h)
      let s ← ofFault (Heap.deref (h.sessions c))
      match s.input.takeData (read.getD []) with
      | .error _ => .error .thrown
      | .ok (found, input) =>
        let s := { s with input := input, aliver := s.aliver.keepAlive }
        let h := (h.setSession c s).record (.heard c)
        match found with
        | .rejected => ofFault (withHeap (onClose s.remoteEndpoint) { w with heap := h })
        | .incomplete => return { w with heap := h.setSession c { s with reading := true } }
        | .complete _ => ofFault (handle others uuid c { w with heap := h })

/-- `on_write`, of something that has been written, through the pointer `callback_`. -/
def onWrite (c : Nat) (retCode : Int) (w : World τ V) : Except Stop (World τ V) :=
  match w.heap.sessions c with
  | none => .error (.fault .useAfterFree)
  | some s =>
    if s.sent = [] then .ok w
    else do
      let h := (w.heap.setSession c { s with aliver := s.aliver.keepAlive }).record (.heard c)
      let h ← ofFault (if retCode ≠ 0 then Heap.closeSession c h else .ok h)
      return { w with heap := h }

/-- `on_accept`.  A session whose endpoint is in the map goes with the last pointer to it. -/
def onAccept (endpoint : Bytes) (h : Heap) : Except Fault Heap :=
  let c := h.nextSession
  let h := { h with nextSession := c + 1 }.setSession c { remoteEndpoint := endpoint }
  let h := h.record (.accepted c)
  match h.sessionPtrMap.find? endpoint with
  | none => .ok { h with sessionPtrMap := h.sessionPtrMap.assign endpoint c }
  | some _ => Heap.destroySession c h

/-- One turn of the loop in `http_server::on_timer`. -/
def checkSession (h : Heap) (e : Bytes × Nat) : Except Fault Heap := do
  let s ← Heap.deref (h.sessions e.2)
  let h := h.setSession e.2 { s with aliver := s.aliver.isAlive.2 }
  if s.aliver.isAlive.1 then return h
  Heap.destroySession e.2 { h with sessionPtrMap := h.sessionPtrMap.erase e.1 }

/-- `http_server::on_timer`. -/
def onTimer (h : Heap) : Except Fault Heap :=
  h.sessionPtrMap.entries.foldlM checkSession (h.record .ticked)

/-- One turn of the loop in `on_check_alive`. -/
def checkWriter (w : World τ V) (e : Bytes × Nat) : Except Fault (World τ V) := do
  let writer ← Heap.deref (w.heap.writers e.2)
  let h := w.heap.setWriter e.2 { writer with aliver := writer.aliver.isAlive.2 }
  if writer.aliver.isAlive.1 then return { w with heap := h }
  let h := { h with handleMap := h.handleMap.erase e.1 }
  let streams ← MediaStreamManager.removePlayer (players others) (.inl e.2) (h, w.others) w.streams
  let h ← h.deleteWriter e.2
  return { w with heap := h, streams := streams }

/-- `on_check_alive`. -/
def onCheckAlive (w : World τ V) : Except Fault (World τ V) :=
  w.heap.handleMap.entries.foldlM (checkWriter others) { w with heap := w.heap.record .checked }

/-! ## Events -/

/-- What the sockets, the timers and the other servers do. -/
inductive Event (V : Type) where
  | accept (endpoint : Bytes)
  | read (c : Nat) (data : Bytes)
  | readFailed (c : Nat)
  | wrote (c : Nat) (retCode : Int)
  | timer
  | checkAlive
  | packet (pkt : MediaPacket)
  | addPublisher (key : Bytes)
  | removePublisher (key : Bytes)
  | addOther (v : V)
  | removeOther (v : V)

/-- One step of the server. -/
def step : Event V → World τ V → Except Stop (World τ V)
  | .accept endpoint, w => ofFault (w.withHeap (onAccept endpoint))
  | .read c data, w => onRead others uuid c (some data) w
  | .readFailed c, w => onRead others uuid c none w
  | .wrote c retCode, w => onWrite c retCode w
  | .timer, w => ofFault (w.withHeap onTimer)
  | .checkAlive, w => ofFault (onCheckAlive others w)
  | .packet pkt, w => do
    let (st, streams) ← ofFault
      (MediaStreamManager.writerMediaPacket (players others) pkt (w.heap, w.others) w.streams)
    return { heap := st.1, others := st.2, streams := streams }
  | .addPublisher key, w =>
    .ok { w with streams := MediaStreamManager.addPublisher key w.streams }
  | .removePublisher key, w =>
    .ok { w with streams := MediaStreamManager.removePublisher key w.streams }
  | .addOther v, w => do
    let streams ← ofFault
      (MediaStreamManager.addPlayer (players others) (.inr v) (w.heap, w.others) w.streams)
    return { w with streams := streams }
  | .removeOther v, w => do
    let streams ← ofFault
      (MediaStreamManager.removePlayer (players others) (.inr v) (w.heap, w.others) w.streams)
    return { w with streams := streams }

end World

end Machine

end HttpflvServer

end MediaServer
