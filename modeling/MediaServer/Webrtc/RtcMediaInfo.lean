import MediaServer.Utils.Json

/-!
# What an offer says

`net/webrtc/rtc_media_info` and `net/webrtc/support_rtc_info`.  A session description
comes as the JSON value that the SDP library makes of it.  `rtc_media_info::parse` reads
it into the object of the user, field after field, so that an exception leaves a part of
the old object behind: `Parse` keeps the object next to the result.

`get_support_rtc_media` makes of an offer what the server can do of it.

Numbers that C++ leaves without a value are zero here.  `get_rtcpfb` and `src_mid` are
left out: nothing calls the one or reads the other.
-/

namespace MediaServer

/-- `FINGER_PRINT`: the hash of a certificate and its algorithm. -/
structure FingerPrint where
  hash : Bytes := []
  type : Bytes := []
  deriving DecidableEq

/-- `ICE_INFO`. -/
structure IceInfo where
  iceOptions : Bytes := []
  icePwd : Bytes := []
  iceUfrag : Bytes := []
  deriving DecidableEq

/-- `HEADER_EXT`: an `extmap` line. -/
structure HeaderExt where
  uri : Bytes
  value : Int
  deriving DecidableEq

/-- `RTCP_FB`: an `rtcp-fb` line. -/
structure RtcpFb where
  payload : Int
  type : Bytes
  subtype : Bytes
  deriving DecidableEq

/-- `RTP_ENCODING`: an `rtpmap` line. -/
structure RtpEncoding where
  codec : Bytes
  payload : Int
  clockRate : Int
  encoding : Bytes := []
  deriving DecidableEq

/-- One `ssrc` line.  The number is a `uint32_t`. -/
structure SsrcInfo where
  attr : Bytes
  value : Bytes
  ssrc : Nat
  deriving DecidableEq

/-- `FMTP`: the parameters of a format. -/
structure Fmtp where
  config : Bytes
  payload : Int
  deriving DecidableEq

/-- `CONNECT_INFO`. -/
structure ConnectInfo where
  ip : Bytes := []
  version : Int := 0
  deriving DecidableEq

/-- `RTCP_BASIC`. -/
structure RtcpBasic where
  address : Bytes
  ipVer : Int
  netType : Bytes
  port : Int
  deriving DecidableEq

/-- `SSRC_GROUPS`: one `ssrc-group` line. -/
structure SsrcGroups where
  semantics : Bytes
  ssrcs : List Nat
  deriving DecidableEq

/-- `BASIC_GROUP`: one `group` line. -/
structure BasicGroup where
  mids : List Int
  type : Bytes
  deriving DecidableEq

/-- `ORIGIN`.  The session id is a `uint64_t`. -/
structure Origin where
  address : Bytes := []
  ipVer : Int := 0
  netType : Bytes := []
  sessionId : Nat := 0
  sessionVersion : Int := 0
  userName : Bytes := []
  deriving DecidableEq

/-- `TIMING_BASIC`. -/
structure TimingBasic where
  start : Int := 0
  stop : Int := 0
  deriving DecidableEq

/-- `CANDIDATE_INFO`. -/
structure CandidateInfo where
  foundation : Bytes
  component : Int
  transport : Bytes
  priority : Int
  ip : Bytes
  port : Int
  type : Bytes
  deriving DecidableEq

/-- `MEDIA_RTC_INFO`: one media section. -/
structure MediaRtcInfo where
  mid : Int
  msid : Bytes := []
  mediaType : Bytes
  port : Int
  rtcpMux : Bytes
  rtcpRsize : Bytes := []
  setup : Bytes
  rtcp : RtcpBasic
  ssrcGroups : List SsrcGroups := []
  protocol : Bytes
  payloads : List Int
  headerExtentions : List HeaderExt
  rtcpFbs : List RtcpFb := []
  rtpEncodings : List RtpEncoding
  ssrcInfos : List SsrcInfo := []
  fmtps : List Fmtp
  publisherId : Bytes := []
  deriving DecidableEq

/-- `SEND_ONLY`, `RECV_ONLY` and `SEND_RECV`. -/
inductive DirectionType where
  | sendOnly
  | recvOnly
  | sendRecv
  deriving DecidableEq

/-- `rtc_media_info`: a session description. -/
structure RtcMediaInfo where
  version : Int := 0
  extmapAllowMixed : Bytes := []
  name : Bytes := []
  origin : Origin := {}
  groups : List BasicGroup := []
  /-- The token. -/
  msidSemantic : Bytes := []
  timing : TimingBasic := {}
  candidates : List CandidateInfo := []
  directionType : DirectionType := .sendOnly
  connectInfo : ConnectInfo := {}
  fingerPrint : FingerPrint := {}
  ice : IceInfo := {}
  medias : List MediaRtcInfo := []
  deriving DecidableEq

namespace RtcMediaInfo

/-- What a session description had before stays in the fields that are not named. -/
def reset (info : RtcMediaInfo) : RtcMediaInfo :=
  { info with
    version := 0, extmapAllowMixed := [], name := [], groups := [], candidates := []
    directionType := .recvOnly, medias := [] }

/-- A computation over the object that can throw.  The object keeps what was stored. -/
abbrev Parse := OptionT (StateM RtcMediaInfo)

/-- The value of a part that can throw. -/
def need {α : Type} (part : Option α) : Parse α := OptionT.mk (pure part)

/-! ## The parts of a media section -/

/-- `get_direction_type`.  A direction that is no other one is `SEND_RECV`. -/
def getDirectionType (item : Json) : Option DirectionType := do
  let direction ← item.textAt "direction"
  if direction = ascii "sendonly" then return .sendOnly
  else if direction = ascii "recvonly" then return .recvOnly
  else return .sendRecv

/-- `get_finger_print`. -/
def getFingerPrint (item : Json) : Option FingerPrint := do
  let finger ← item.objectAt "fingerprint"
  return { hash := ← finger.textAt "hash", type := ← finger.textAt "type" }

/-- `get_ice`. -/
def getIce (item : Json) : Option IceInfo := do
  return { iceOptions := ← item.textAt "iceOptions", icePwd := ← item.textAt "icePwd",
           iceUfrag := ← item.textAt "iceUfrag" }

/-- `get_rtcp_basic`. -/
def getRtcpBasic (item : Json) : Option RtcpBasic := do
  let rtcp ← item.objectAt "rtcp"
  return { address := ← rtcp.textAt "address", ipVer := ← rtcp.intAt "ipVer",
           netType := ← rtcp.textAt "netType", port := ← rtcp.intAt "port" }

/-- The groups are optional, and so is what is no array. -/
def getSsrcGroups (item : Json) : Option (List SsrcGroups) :=
  match item.itemsAt "ssrcGroups" with
  | none => some []
  | some groups => groups.mapM fun group => do
    let semantics ← group.textAt "semantics"
    let ssrcs ← group.textAt "ssrcs"
    return { semantics, ssrcs := ← (stringSplit ssrcs).mapM stoul32 }

/-- `get_payloads`: the numbers of a text, of which there must be one. -/
def getPayloads (item : Json) : Option (List Int) := do
  let payloads ← item.textAt "payloads"
  if stringSplit payloads = [] then none
  else (stringSplit payloads).mapM stoi

/-- `get_header_extersion`. -/
def getHeaderExtersion (item : Json) : Option (List HeaderExt) := do
  let exts ← item.itemsAt "ext"
  exts.mapM fun ext => do
    return { uri := ← ext.textAt "uri", value := ← ext.intAt "value" }

/-- `get_rtp_encodings`.  Only the encoding is optional. -/
def getRtpEncodings (item : Json) : Option (List RtpEncoding) := do
  let rtps ← item.itemsAt "rtp"
  rtps.mapM fun rtp => do
    return { codec := ← rtp.textAt "codec", payload := ← rtp.intAt "payload",
             clockRate := ← rtp.intAt "rate", encoding := (rtp.textAt "encoding").getD [] }

/-- The lines are optional, and so is what is no array. -/
def getSsrcsInfo (item : Json) : Option (List SsrcInfo) :=
  match item.itemsAt "ssrcs" with
  | none => some []
  | some ssrcs => ssrcs.mapM fun ssrc => do
    return { attr := ← ssrc.textAt "attribute", value := ← ssrc.textAt "value",
             ssrc := ← ssrc.uint32At "id" }

/-- `get_fmtps`. -/
def getFmtps (item : Json) : Option (List Fmtp) := do
  let fmtps ← item.itemsAt "fmtp"
  fmtps.mapM fun fmtp => do
    return { config := ← fmtp.textAt "config", payload := ← fmtp.intAt "payload" }

/-- `get_connection_info`. -/
def getConnectionInfo (item : Json) : Parse Unit := do
  let connection ← need (item.objectAt "connection")
  let ip ← need (connection.textAt "ip")
  modify fun info => { info with connectInfo.ip := ip }
  let version ← need (connection.intAt "version")
  modify fun info => { info with connectInfo.version := version }

/-- One turn of the loop of `parse`. -/
def parseMedia (item : Json) : Parse Unit := do
  let directionType ← need (getDirectionType item)
  modify fun info => { info with directionType }
  let fingerPrint ← need (getFingerPrint item)
  modify fun info => { info with fingerPrint }
  let ice ← need (getIce item)
  modify fun info => { info with ice }
  let mid ← need ((item.textAt "mid").bind stoi)
  let msid := (item.textAt "msid").getD []
  let port ← need (item.numberAt "port")
  let protocol ← need (item.textAt "protocol")
  let rtcpMux ← need (item.textAt "rtcpMux")
  let setup ← need (item.textAt "setup")
  let mediaType ← need (item.textAt "type")
  getConnectionInfo item
  let rtcp ← need (getRtcpBasic item)
  let ssrcGroups ← need (getSsrcGroups item)
  let payloads ← need (getPayloads item)
  let headerExtentions ← need (getHeaderExtersion item)
  let rtpEncodings ← need (getRtpEncodings item)
  let ssrcInfos ← need (getSsrcsInfo item)
  let fmtps ← need (getFmtps item)
  let media : MediaRtcInfo :=
    { mid, msid, mediaType, port, rtcpMux, setup, rtcp, ssrcGroups, protocol, payloads
      headerExtentions, rtpEncodings, ssrcInfos, fmtps }
  modify fun info => { info with medias := info.medias ++ [media] }

/-! ## The parts of the session -/

/-- One turn of the loop of `get_basic_info` over the groups. -/
def getGroup (item : Json) : Option BasicGroup := do
  let mids ← item.textAt "mids"
  let type ← item.textAt "type"
  return { type, mids := ← (stringSplit mids).mapM stoi }

/-- The part of `get_basic_info` for the origin. -/
def getOrigin (origin : Json) : Parse Unit := do
  let address ← need (origin.textAt "address")
  modify fun info => { info with origin.address := address }
  let ipVer ← need (origin.intAt "ipVer")
  modify fun info => { info with origin.ipVer := ipVer }
  let netType ← need (origin.textAt "netType")
  modify fun info => { info with origin.netType := netType }
  let sessionId ← need (origin.uint64At "sessionId")
  modify fun info => { info with origin.sessionId := sessionId }
  let sessionVersion ← need (origin.intAt "sessionVersion")
  modify fun info => { info with origin.sessionVersion := sessionVersion }
  let userName ← need (origin.textAt "username")
  modify fun info => { info with origin.userName := userName }

/-- The part of `get_basic_info` for the timing. -/
def getTiming (timing : Json) : Parse Unit := do
  let start ← need (timing.intAt "start")
  modify fun info => { info with timing.start := start }
  let stop ← need (timing.intAt "stop")
  modify fun info => { info with timing.stop := stop }

/-- `get_basic_info`.  Only the version must be there. -/
def getBasicInfo (sdp : Json) : Parse Unit := do
  if let some extmapAllowMixed := sdp.textAt "extmapAllowMixed" then
    modify fun info => { info with extmapAllowMixed }
  let version ← need (sdp.numberAt "version")
  modify fun info => { info with version }
  for item in (sdp.itemsAt "groups").getD [] do
    let group ← need (getGroup item)
    modify fun info => { info with groups := info.groups ++ [group] }
  if let some msidSemantic := sdp.objectAt "msidSemantic" then
    let token ← need (msidSemantic.textAt "token")
    modify fun info => { info with msidSemantic := token }
  if let some name := sdp.textAt "name" then
    modify fun info => { info with name }
  if let some origin := sdp.objectAt "origin" then
    getOrigin origin
  if let some timing := sdp.objectAt "timing" then
    getTiming timing

/-- `parse`. -/
def parseBody (sdp : Json) : Parse Unit := do
  getBasicInfo sdp
  for item in ← need (sdp.itemsAt "media") do
    parseMedia item

/-- `parse`: whether it returns, and the object afterwards. -/
def parse (sdp : Json) (info : RtcMediaInfo) : Option Unit × RtcMediaInfo := parseBody sdp info

/-- `filter_payloads`. -/
def filterPayloads (info : RtcMediaInfo) : RtcMediaInfo :=
  { info with
    medias := info.medias.map fun media =>
      { media with
        payloads := media.payloads.filter fun payload =>
          media.rtpEncodings.any (fun rtp => rtp.payload = payload) ||
            media.rtcpFbs.any fun fb => fb.payload = payload } }

end RtcMediaInfo

/-! ## What the server supports -/

namespace SupportRtcInfo

/-- The feedback messages that the server knows, by type and subtype. -/
def supportRtcpFbList : List (Bytes × Bytes) :=
  [(ascii "goog-remb", []), (ascii "nack", []), (ascii "nack", ascii "pli")]

/-- The header extensions that the server knows. -/
def supportHeaderExtList : List Bytes := [ascii "urn:ietf:params:rtp-hdrext:sdes:mid"]

/-- The codecs that the server knows, with their clock rates. -/
def supportRtpEncodingList : List (Bytes × Int) :=
  [(ascii "H264", 90000), (ascii "rtx", 90000), (ascii "opus", 48000)]

/-- The attributes of a source that the server knows. -/
def supportSsrcInfoList : List Bytes := [ascii "cname"]

/-- The text before the payload type that a repair format repairs. -/
def apt : Bytes := ascii "apt="

/-- What the configuration of a format may start with. -/
def supportFmtpList : List Bytes :=
  [ascii "minptime=10;useinbandfec=1", apt,
    ascii "level-asymmetry-allowed=1;packetization-mode=1;profile-level-id=42e01f"]

/-- The second loop of `get_support_fmtp`: a repair format stays if the format that it
repairs is there.  `stoi` throws when no number follows. -/
def keepRepaired (payloads : List Int) : List Fmtp → Option (List Fmtp)
  | [] => some []
  | fmtp :: rest =>
    if apt.isPrefixOf fmtp.config then
      match stoi (fmtp.config.drop 4) with
      | none => none
      | some payload =>
        if payload ∈ payloads then (keepRepaired payloads rest).map (fmtp :: ·)
        else keepRepaired payloads rest
    else (keepRepaired payloads rest).map (fmtp :: ·)

/-- `get_support_fmtp`. -/
def getSupportFmtp (fmtps : List Fmtp) : Option (List Fmtp) :=
  let supported := fmtps.filter fun fmtp =>
    supportFmtpList.any fun config => config.isPrefixOf fmtp.config
  let payloads := (supported.filter fun fmtp => !apt.isPrefixOf fmtp.config).map Fmtp.payload
  keepRepaired payloads supported

/-- `get_support_ssrc_info`. -/
def getSupportSsrcInfo (ssrcInfos : List SsrcInfo) : List SsrcInfo :=
  ssrcInfos.filter fun info => info.attr ∈ supportSsrcInfoList

/-- `get_support_rtcp_fb`.  A type without a subtype is kept. -/
def getSupportRtcpFb (rtcpFbs : List RtcpFb) : List RtcpFb :=
  rtcpFbs.filter fun fb => supportRtcpFbList.any fun item =>
    fb.type = item.1 && (fb.subtype = [] || fb.subtype = item.2)

/-- `get_support_header_ext`. -/
def getSupportHeaderExt (exts : List HeaderExt) : List HeaderExt :=
  exts.filter fun ext => ext.uri ∈ supportHeaderExtList

/-- `get_support_rtp_encoding`: the known codecs that have a format. -/
def getSupportRtpEncoding (encodings : List RtpEncoding) (fmtps : List Fmtp) : List RtpEncoding :=
  (encodings.filter fun enc => (enc.codec, enc.clockRate) ∈ supportRtpEncodingList).filter
    fun enc => fmtps.any fun fmtp => fmtp.payload = enc.payload

/-- One turn of the loop of `get_support_rtc_media`. -/
def getSupportMedia (media : MediaRtcInfo) : Option MediaRtcInfo :=
  match getSupportFmtp media.fmtps with
  | none => none
  | some fmtps => some
    { mid := media.mid, msid := media.msid, mediaType := media.mediaType, port := media.port
      rtcpMux := media.rtcpMux, rtcpRsize := media.rtcpRsize, setup := ascii "active"
      rtcp := media.rtcp, ssrcGroups := media.ssrcGroups, protocol := media.protocol
      payloads := media.payloads
      headerExtentions := getSupportHeaderExt media.headerExtentions
      rtcpFbs := getSupportRtcpFb media.rtcpFbs
      rtpEncodings := getSupportRtpEncoding media.rtpEncodings fmtps
      ssrcInfos := getSupportSsrcInfo media.ssrcInfos, fmtps }

/-- `get_support_rtc_media`. -/
def getSupportRtcMedia (input : RtcMediaInfo) : Option RtcMediaInfo :=
  match input.medias.mapM getSupportMedia with
  | none => none
  | some medias =>
    let directionType : DirectionType :=
      match input.directionType with
      | .sendOnly => .recvOnly
      | .recvOnly => .sendOnly
      | .sendRecv => .sendRecv
    let support : RtcMediaInfo :=
      { version := input.version, extmapAllowMixed := input.extmapAllowMixed, name := input.name
        origin := { input.origin with address := ascii "0.0.0.0" }, groups := input.groups
        msidSemantic := input.msidSemantic, timing := input.timing, directionType
        connectInfo := input.connectInfo, medias }
    some support.filterPayloads

end SupportRtcInfo

end MediaServer
