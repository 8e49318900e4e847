import MediaServer.Lib.OrderedMap
import MediaServer.Webrtc.RtcMediaInfo

/-!
# Publishers, subscribers and the sessions that hold them

`net/webrtc/rtc_publisher`, `rtc_subscriber` and `rtc_base_session`, as far as a room
sees them: who they are, which streams they carry, and in which maps a session keeps
them.  `webrtc_session::close_session` takes the publishers out of these maps.

A subscriber points to its session.  The pointer is the id of the session here.

The maps `ssrc2subscribers_` and `pid2subscribers_` of a session are left out, because
only the handling of RTCP reads them.
-/

namespace MediaServer

/-- A function ends in another way than by returning. -/
inductive Exit where
  | thrown
  /-- It leaves the defined behaviour. -/
  | fault (f : Fault)
  deriving DecidableEq

/-- `publisher_info`: what the users are told of a publisher. -/
structure PublisherInfo where
  mediaType : Bytes
  ssrc : Nat
  mid : Int
  pid : Bytes
  deriving DecidableEq

/-- What the constructors of `rtc_publisher` and `rtc_subscriber` read from a media
section. -/
structure StreamInfo where
  clockRate : Int
  hasRtx : Bool
  payloadtype : UInt8
  rtxPayloadtype : UInt8
  rtpSsrc : Nat
  rtxSsrc : Nat
  deriving DecidableEq

namespace StreamInfo

/-- The codec of a repair stream. -/
def rtx : Bytes := ascii "rtx"

/-- One of the encodings is a repair stream. -/
def hasRtxOf (encodings : List RtpEncoding) : Bool := encodings.any fun enc => enc.codec = rtx

/-- The payload of the last encoding that is chosen, as a `uint8_t`. -/
def payloadOf (chosen : RtpEncoding → Bool) (encodings : List RtpEncoding) : UInt8 :=
  match (encodings.filter chosen).getLast? with
  | none => 0
  | some enc => UInt8.ofNat (enc.payload % 256).toNat

/-- The numbers of the two streams.  The index of the loop over the lines stays zero, so
that the last line gives the first number.  `group.ssrcs[0]` of an empty group is behind
a null pointer, `group.ssrcs.at(0)` throws. -/
def ssrcsOf (hasRtx : Bool) (media : MediaRtcInfo) : Except Exit (Nat × Nat) :=
  match media.ssrcGroups with
  | [] => .ok (((media.ssrcInfos.getLast?).map SsrcInfo.ssrc).getD 0, 0)
  | group :: _ =>
    match hasRtx, group.ssrcs with
    | true, rtp :: rtx :: _ => .ok (rtp, rtx)
    | true, [rtp] => .ok (rtp, 0)
    | true, [] => .error (.fault .nullPointer)
    | false, rtp :: _ => .ok (rtp, 0)
    | false, [] => .error .thrown

/-- The first encoding is read without a check that there is one. -/
def ofMedia (media : MediaRtcInfo) : Except Exit StreamInfo :=
  match media.rtpEncodings with
  | [] => .error (.fault .nullPointer)
  | first :: _ =>
    let hasRtx := hasRtxOf media.rtpEncodings
    match ssrcsOf hasRtx media with
    | .error e => .error e
    | .ok (rtpSsrc, rtxSsrc) => .ok
      { clockRate := first.clockRate, hasRtx
        payloadtype := payloadOf (fun enc => enc.codec ≠ rtx) media.rtpEncodings
        rtxPayloadtype := payloadOf (fun enc => enc.codec = rtx) media.rtpEncodings
        rtpSsrc, rtxSsrc }

end StreamInfo

/-- `rtc_publisher`, as far as it is made. -/
structure RtcPublisher where
  pid : Bytes
  mediaInfo : MediaRtcInfo
  stream : StreamInfo
  deriving DecidableEq

/-- `rtc_subscriber`, as far as it is made. -/
structure RtcSubscriber where
  /-- The id of the publisher. -/
  pid : Bytes
  sid : Bytes
  /-- The id of the session it belongs to. -/
  session : Bytes
  uid : Bytes
  remoteUid : Bytes
  mediaInfo : MediaRtcInfo
  stream : StreamInfo
  deriving DecidableEq

/-- Whether the server sends or receives. -/
inductive RtcDirection where
  | send
  | recv
  deriving DecidableEq

/-- `rtc_base_session`. -/
structure RtcBaseSession where
  id : Bytes
  uid : Bytes
  direction : RtcDirection
  /-- The media sections of `media_info_`. -/
  medias : List MediaRtcInfo
  closeSession : Bool := false
  pid2publishers : OrderedMap Bytes RtcPublisher := .empty
  ssrc2publishers : OrderedMap Nat RtcPublisher := .empty
  mid2publishers : OrderedMap Int RtcPublisher := .empty
  mid2subscribers : OrderedMap Int RtcSubscriber := .empty
  deriving DecidableEq

/-- The subscribers of a room by the id of the publisher and by their own. -/
abbrev Subscribers := OrderedMap Bytes (OrderedMap Bytes RtcSubscriber)

namespace Subscribers

/-- `on_unpublish`. -/
def onUnpublish (m : Subscribers) (pid : Bytes) : Subscribers := m.erase pid

/-- `on_unsubscribe`.  The entry of the publisher stays, even an empty one. -/
def onUnsubscribe (m : Subscribers) (pid sid : Bytes) : Subscribers :=
  match m.find? pid with
  | none => m
  | some subs =>
    match subs.find? sid with
    | none => m
    | some _ => m.assign pid (subs.erase sid)

/-- `insert_subscriber`. -/
def insertSubscriber (m : Subscribers) (pid : Bytes) (sub : RtcSubscriber) :
    Except Exit Subscribers :=
  match m.find? pid with
  | none => .ok (m.assign pid (OrderedMap.empty.assign sub.sid sub))
  | some subs =>
    match subs.find? sub.sid with
    | some _ => .error .thrown
    | none => .ok (m.assign pid (subs.assign sub.sid sub))

end Subscribers

namespace RtcBaseSession

/-! ## Publishers -/

/-- There is a publisher for the section already. -/
def hasPublisher (s : RtcBaseSession) (media : MediaRtcInfo) : Bool :=
  (s.mid2publishers.find? media.mid).isSome ||
    media.ssrcInfos.any fun info => (s.ssrc2publishers.find? info.ssrc).isSome

/-- A new publisher enters the maps. -/
def addPublisher (s : RtcBaseSession) (publisher : RtcPublisher) : RtcBaseSession :=
  { s with
    pid2publishers := s.pid2publishers.assign publisher.pid publisher
    mid2publishers :=
      if 0 ≤ publisher.mediaInfo.mid then
        s.mid2publishers.assign publisher.mediaInfo.mid publisher
      else s.mid2publishers
    ssrc2publishers := publisher.mediaInfo.ssrcInfos.foldl
      (fun m info => m.assign info.ssrc publisher) s.ssrc2publishers }

/-- A session that is being filled, and how many ids have been made. -/
structure Filling where
  session : RtcBaseSession
  made : Nat

/-- `create_publisher`. -/
def createPublisher (uuid : Nat → Bytes) (media : MediaRtcInfo) (st : Filling) :
    Except Exit Filling :=
  if st.session.hasPublisher media then .ok st
  else
    match StreamInfo.ofMedia media with
    | .error e => .error e
    | .ok stream => .ok
      { session := st.session.addPublisher { pid := uuid st.made, mediaInfo := media, stream }
        made := st.made + 1 }

/-- `create_publisher` for every section, up to the one that fails. -/
def createPublishers (uuid : Nat → Bytes) : List MediaRtcInfo → Filling → Filling × Option Exit
  | [], st => (st, none)
  | media :: rest, st =>
    match createPublisher uuid media st with
    | .error e => (st, some e)
    | .ok st' => createPublishers uuid rest st'

/-- `remove_publisher` for a section. -/
def removePublisher (s : RtcBaseSession) (media : MediaRtcInfo) : RtcBaseSession :=
  { s with
    mid2publishers := s.mid2publishers.erase media.mid
    ssrc2publishers := media.ssrcInfos.foldl (fun m info => m.erase info.ssrc) s.ssrc2publishers
    pid2publishers :=
      match s.mid2publishers.find? media.mid with
      | none => s.pid2publishers
      | some publisher => s.pid2publishers.erase publisher.pid }

/-- There is no publisher to remove. -/
def RM_PUBLISH_ERROR : Nat := 1013

/-- `remove_publisher` for the number and the type of a section: its result, and the session
afterwards. -/
def removePublisherByMid (s : RtcBaseSession) (mid : Int) (mediaType : Bytes) :
    Nat × RtcBaseSession :=
  match s.mid2publishers.find? mid with
  | none => (RM_PUBLISH_ERROR, s)
  | some publisher =>
    if publisher.mediaInfo.mediaType ≠ mediaType then (RM_PUBLISH_ERROR, s)
    else
      let ssrc2publishers := s.ssrc2publishers.erase publisher.stream.rtpSsrc
      (0, { s with
        mid2publishers := s.mid2publishers.erase mid
        pid2publishers := s.pid2publishers.erase publisher.pid
        ssrc2publishers :=
          if publisher.stream.hasRtx then ssrc2publishers.erase publisher.stream.rtxSsrc
          else ssrc2publishers })

/-- `get_publisher` by the number of the section. -/
def getPublisher (s : RtcBaseSession) (mid : Int) : Option RtcPublisher :=
  s.mid2publishers.find? mid

/-- `get_publishs_information`: what stands under the number of its own RTP stream. -/
def getPublishsInformation (s : RtcBaseSession) : List PublisherInfo :=
  (s.ssrc2publishers.entries.filter fun e => e.2.stream.rtpSsrc = e.1).map fun e =>
    { mediaType := e.2.mediaInfo.mediaType, ssrc := e.1, mid := e.2.mediaInfo.mid, pid := e.2.pid }

/-! ## Subscribers -/

/-- `create_subscriber`. -/
def createSubscriber (s : RtcBaseSession) (sid remoteUid : Bytes) (media : MediaRtcInfo) :
    Except Exit (RtcBaseSession × RtcSubscriber) :=
  match s.mid2subscribers.find? media.mid with
  | some _ => .error .thrown
  | none =>
    match StreamInfo.ofMedia media with
    | .error e => .error e
    | .ok stream =>
      let sub : RtcSubscriber :=
        { pid := media.publisherId, sid, session := s.id, uid := s.uid, remoteUid
          mediaInfo := media, stream }
      .ok ({ s with mid2subscribers := s.mid2subscribers.assign media.mid sub }, sub)

/-! ## The end of a session -/

/-- `webrtc_session::close_session`. -/
def close (s : RtcBaseSession) : RtcBaseSession :=
  if s.closeSession then s
  else
    match s.direction with
    | .send => { s with closeSession := true }
    | .recv => s.medias.foldl removePublisher { s with closeSession := true }

/-- The destructors of `webrtc_session` and of `rtc_base_session`, by what they do to the
subscribers of the room. -/
def destruct (s : RtcBaseSession) (m : Subscribers) : Subscribers :=
  match s.direction with
  | .send => s.close.mid2subscribers.entries.foldl (fun m e => m.onUnsubscribe e.2.pid e.2.sid) m
  | .recv => s.close.mid2publishers.entries.foldl (fun m e => m.onUnpublish e.2.pid) m

end RtcBaseSession

end MediaServer
