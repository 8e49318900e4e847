import Mathlib.Logic.Function.Basic
import Mathlib.Tactic.Common
import MediaServer.Webrtc.RoomService
import MediaServer.Webrtc.RtpSendReports
import MediaServer.Webrtc.SenderReports

/-!
# The media of a room

What `webrtc_session`, `rtc_publisher`, `rtc_subscriber` and `room_service` do with the
packets between their requests.  A packet of a publisher goes to every subscriber that the
room has for it.  What a player sends back about its packets goes to the subscriber, and a
request for a key frame goes on to the session of the publisher.

A packet is here behind the decryption and the parser, and what is sent is here before the
encryption.  An event has one time.  The streams of publishers and subscribers stand under
the ids of these, because no id is made twice.  What a publisher reports back about its own
stream is left out.
-/

namespace MediaServer

/-- What is handed to a session to be sent. -/
inductive Sent where
  /-- By `send_rtp_packet` of the subscriber `sid`. -/
  | forward (session sid : Bytes) (pkt : RtpPacket)
  /-- Again, for a NACK. -/
  | again (session sid : Bytes) (pkt : RtpPacket)
  | report (session sid : Bytes) (srPkt : RtcpSrPacket)
  /-- By `request_keyframe` of the publisher `pid`. -/
  | keyframe (session pid : Bytes) (mediaSsrc : Nat)
  deriving DecidableEq

/-- A room with the streams of its publishers and subscribers.  The lists at the end are
not in the program: what the publishers have given to the room, by their ids, and what has
been handed to the sessions. -/
structure RoomMedia where
  room : Room
  rtpHandlers : SenderReports.Handlers := fun _ => none
  /-- `stream_ptr_`, where a stream that nothing has reached is none. -/
  streams : Bytes → Option RtpSendReports := fun _ => none
  delivered : List (Bytes × RtpPacket) := []
  sent : List Sent := []

/-! ## Lookups -/

/-- The stream that the constructor of `rtc_subscriber` makes. -/
def RtcSubscriber.newStream (sub : RtcSubscriber) : RtpSendReports :=
  { mediaType := textOf sub.mediaInfo.mediaType
    rtpSsrc := UInt32.ofNat sub.stream.rtpSsrc
    clock := sub.stream.clockRate }

/-- `insert` of a map keeps what is there. -/
def insertSsrc (m : OrderedMap Nat RtcSubscriber) (sub : RtcSubscriber) :
    OrderedMap Nat RtcSubscriber :=
  match m.find? sub.stream.rtpSsrc with
  | some _ => m
  | none => m.assign sub.stream.rtpSsrc sub

namespace RtcBaseSession

/-- The subscribers of a session in the order in which they were made. -/
def subscribers (s : RtcBaseSession) : List RtcSubscriber :=
  s.medias.filterMap fun media => s.mid2subscribers.find? media.mid

/-- `ssrc2subscribers_`. -/
def ssrc2subscribers (s : RtcBaseSession) : OrderedMap Nat RtcSubscriber :=
  s.subscribers.foldl insertSsrc .empty

/-- `get_subscriber`. -/
def getSubscriber (s : RtcBaseSession) (ssrc : Nat) : Option RtcSubscriber :=
  s.ssrc2subscribers.find? ssrc

end RtcBaseSession

namespace Room

/-- The sessions of the users. -/
def sessions (r : Room) : List RtcBaseSession :=
  r.users.entries.flatMap fun u =>
    (u.2.publishSessions.entries ++ u.2.subscribeSessions.entries).map Prod.snd

/-- The session with an id. -/
def findSession (r : Room) (id : Bytes) : Option RtcBaseSession :=
  r.sessions.find? fun s => s.id = id

/-- The subscriber `sid`, for as long as a session has it. -/
def findSubscriber (r : Room) (sid : Bytes) : Option RtcSubscriber :=
  (r.sessions.flatMap fun s => s.mid2subscribers.entries.map Prod.snd).find? fun sub =>
    sub.sid = sid

/-- The publisher `pid` of a user, with its session, in the loop of `on_request_keyframe`:
the first session that has it under the number `mediaSsrc`. -/
def publisherOf (pid : Bytes) (mediaSsrc : Nat) (user : UserInfo) :
    Option (RtcBaseSession × RtcPublisher) :=
  user.publishSessions.entries.findSome? fun e =>
    ((e.2.ssrc2publishers.find? mediaSsrc).filter fun p => p.pid = pid).map fun p => (e.2, p)

/-- `rtc_publisher::request_keyframe`. -/
def requestKeyframe (mediaSsrc : Nat) (session : RtcBaseSession) (p : RtcPublisher) :
    Option Sent :=
  if p.stream.rtpSsrc ≠ mediaSsrc then none
  else some (.keyframe session.id p.pid mediaSsrc)

/-- `on_request_keyframe`.  The loop over the sessions stops at a publisher, the one over the
users goes on. -/
def onRequestKeyframe (pid : Bytes) (mediaSsrc : Nat) (r : Room) : List Sent :=
  r.users.entries.filterMap fun u =>
    (publisherOf pid mediaSsrc u.2).bind fun e => requestKeyframe mediaSsrc e.1 e.2

end Room

namespace RoomMedia

/-! ## Subscribers -/

/-- The stream of a subscriber, a new one if nothing has reached it. -/
def streamOf (s : RoomMedia) (sub : RtcSubscriber) : RtpSendReports :=
  (s.streams sub.sid).getD sub.newStream

/-- The stream of a subscriber is changed. -/
def setStream (s : RoomMedia) (sub : RtcSubscriber) (stream : RtpSendReports) : RoomMedia :=
  { s with streams := Function.update s.streams sub.sid (some stream) }

/-- What is handed to the sessions. -/
def send (s : RoomMedia) (sent : List Sent) : RoomMedia := { s with sent := s.sent ++ sent }

/-- A fault of a stream. -/
def ofFault {α : Type} : Except Fault α → Except Halt α
  | .ok a => .ok a
  | .error f => .error (.fault f)

/-- `send_rtp_packet`. -/
def sendRtpPacket (nowMs : Int) (pkt : RtpPacket) (sub : RtcSubscriber) (s : RoomMedia) :
    Except Halt RoomMedia := do
  let stream ← ofFault ((s.streamOf sub).onSendRtpPacket nowMs pkt)
  return (s.setStream sub stream).send [.forward sub.session sub.sid pkt]

/-- `handle_fb_rtp_nack` of a subscriber. -/
def handleFbRtpNack (nowMs : Int) (nackPkt : RtcpFbNack) (sub : RtcSubscriber) (s : RoomMedia) :
    Except Halt RoomMedia := do
  let (pkts, stream) ← ofFault ((s.streamOf sub).handleFbRtpNack nowMs nackPkt)
  return (s.setStream sub stream).send (pkts.map (.again sub.session sub.sid))

/-- `handle_rtcp_rr` of a subscriber. -/
def handleRtcpRr (nowMs : Int) (rrPkt : RtcpRrPacket) (sub : RtcSubscriber) (s : RoomMedia) :
    Except Halt RoomMedia := do
  let stream ← ofFault ((s.streamOf sub).handleRtcpRr nowMs rrPkt)
  return s.setStream sub stream

/-- `on_timer` of a subscriber. -/
def onSubscriberTimer (nowMs : Int) (sub : RtcSubscriber) (s : RoomMedia) :
    Except Halt RoomMedia := do
  let (srPkt, stream) ← ofFault ((s.streamOf sub).onTimer nowMs)
  return (s.setStream sub stream).send (srPkt.toList.map (.report sub.session sub.sid))

/-! ## Publishers -/

/-- `on_rtppacket_publisher2room`. -/
def onRtppacketPublisher2room (nowMs : Int) (pid : Bytes) (pkt : RtpPacket) (s : RoomMedia) :
    Except Halt RoomMedia :=
  let s := { s with delivered := s.delivered ++ [(pid, pkt)] }
  match s.room.pid2subscribers.find? pid with
  | none => .ok s
  | some subs => subs.entries.foldlM (fun s e => sendRtpPacket nowMs pkt e.2 s) s

/-- `on_handle_rtppacket` of a publisher, up to the end of what the room does. -/
def onHandleRtppacket (nowMs : Int) (pkt : Rtp.Packet) (p : RtcPublisher) (s : RoomMedia) :
    Except Halt RoomMedia := do
  let d ← p.onHandleRtppacket nowMs pkt (s.rtpHandlers p.pid)
  let s := { s with rtpHandlers := Function.update s.rtpHandlers p.pid d.rtpHandler }
  match d.toRoom with
  | none => return s
  | some pkt =>
    onRtppacketPublisher2room nowMs p.pid { data := pkt.getData, localMs := pkt.localMs } s

/-- `on_handle_rtcp_sr` of a publisher. -/
def onHandleRtcpSr (nowMs : Int) (srPkt : RtcpSrPacket) (p : RtcPublisher) (s : RoomMedia) :
    Except Halt RoomMedia := do
  let handler ← RtcPublisher.onHandleRtcpSr nowMs srPkt (s.rtpHandlers p.pid)
  return { s with rtpHandlers := Function.update s.rtpHandlers p.pid (some handler) }

/-- `on_timer` of a publisher. -/
def onPublisherTimer (nowMs : Int) (jitter dlsr : UInt32) (pid : Bytes) (s : RoomMedia) :
    Except Halt RoomMedia := do
  let handler ← RtcPublisher.onTimer nowMs jitter dlsr (s.rtpHandlers pid)
  return { s with rtpHandlers := Function.update s.rtpHandlers pid handler }

/-! ## Events -/

/-- What a session receives, what the timers do, and what the users request. -/
inductive Event where
  | room (e : Room.Event)
  | rtp (session : Bytes) (nowMs : Int) (pkt : Rtp.Packet)
  | sr (session : Bytes) (nowMs : Int) (srPkt : RtcpSrPacket)
  | rr (session : Bytes) (nowMs : Int) (rrPkt : RtcpRrPacket)
  | nack (session : Bytes) (nowMs : Int) (nackPkt : RtcpFbNack)
  | pspli (session : Bytes) (mediaSsrc : UInt32)
  | publisherTimer (pid : Bytes) (nowMs : Int) (jitter dlsr : UInt32)
  | subscriberTimer (sid : Bytes) (nowMs : Int)

/-- What the session `id` does, for as long as a user has it. -/
def atSession (id : Bytes) (f : RtcBaseSession → Except Halt RoomMedia) (s : RoomMedia) :
    Except Halt RoomMedia :=
  match s.room.findSession id with
  | none => .ok s
  | some session => f session

/-- What the publisher of a stream does in its session. -/
def atPublisher (id : Bytes) (ssrc : UInt32) (f : RtcPublisher → RoomMedia → Except Halt RoomMedia)
    (s : RoomMedia) : Except Halt RoomMedia :=
  s.atSession id fun session =>
    match SenderReports.getPublisher session ssrc with
    | none => .ok s
    | some p => f p s

/-- What the subscriber of a stream does in its session. -/
def atSubscriber (id : Bytes) (ssrc : UInt32)
    (f : RtcSubscriber → RoomMedia → Except Halt RoomMedia) (s : RoomMedia) :
    Except Halt RoomMedia :=
  s.atSession id fun session =>
    match session.getSubscriber ssrc.toNat with
    | none => .ok s
    | some sub => f sub s

/-- `handle_rtcp_psfb` behind the parser: `rtc_subscriber::request_keyframe`, which names its
own stream. -/
def onKeyframeRequest (session : RtcBaseSession) (mediaSsrc : UInt32) (s : RoomMedia) :
    RoomMedia :=
  if session.direction ≠ .send then s
  else
    match session.getSubscriber mediaSsrc.toNat with
    | none => s
    | some sub => s.send (s.room.onRequestKeyframe sub.pid sub.stream.rtpSsrc)

/-- One step of the room. -/
def step (libs : RoomLibs) : Event → RoomMedia → Except Halt RoomMedia
  | .room e, s => do
    let room ← ofFault (Room.step libs e s.room)
    return { s with room }
  | .rtp id nowMs pkt, s => s.atPublisher id (Rtp.getSsrc pkt.getData) (onHandleRtppacket nowMs pkt)
  | .sr id nowMs srPkt, s => s.atPublisher id srPkt.ssrc (onHandleRtcpSr nowMs srPkt)
  | .rr id nowMs rrPkt, s => s.atSubscriber id rrPkt.reporteeSsrc (handleRtcpRr nowMs rrPkt)
  | .nack id nowMs nackPkt, s =>
    s.atSubscriber id nackPkt.getMediaSsrc (handleFbRtpNack nowMs nackPkt)
  | .pspli id mediaSsrc, s =>
    s.atSession id fun session => .ok (s.onKeyframeRequest session mediaSsrc)
  | .publisherTimer pid nowMs jitter dlsr, s => s.onPublisherTimer nowMs jitter dlsr pid
  | .subscriberTimer sid nowMs, s =>
    match s.room.findSubscriber sid with
    | none => .ok s
    | some sub => s.onSubscriberTimer nowMs sub

end RoomMedia

end MediaServer
