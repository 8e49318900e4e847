import MediaServer.Stun.StunPacket
import MediaServer.Udp.UdpServer

/-!
# Datagrams and the sessions they belong to

`net/webrtc/webrtc_session`: one UDP socket serves all sessions.
`single_webrtc_map` takes a text to the session it stands for, and the text is the
user name fragment of a session or the source address of a peer.
`single_udp_session_callback::on_read` looks for the address first.  A datagram from
an address that is not in the map has to be a STUN message, whose user name leads to
the session, and the address is put into the map before the message is checked.

The state is the map and the sessions in memory, by their address there.  What a
session does with RTP, RTCP and DTLS data behind the assignment of `remote_address_`
touches neither, so it is left out.
-/

namespace MediaServer

/-- What the sessions use of OpenSSL and of the C library. -/
structure RtcLibs where
  hmac : HmacSha1
  /-- The four bytes that `inet_pton` stores. -/
  inetPton : Bytes → Bytes

/-- `get_ipv4_sockaddr`.  The port is stored in the order of the host, which is
little-endian. -/
def getIpv4Sockaddr (libs : RtcLibs) (address : UdpTuple) : SockaddrIn where
  sinPort := (write2bytes address.port).reverse
  sinAddr := libs.inetPton address.ipAddress

/-- Where a session is in memory. -/
abbrev SessionPtr := Nat

/-- `webrtc_session`, as far as datagrams are routed to it. -/
structure WebrtcSession where
  usernameFragment : ByteCrypto.RandomString 16
  userPwd : ByteCrypto.RandomString 32
  /-- `none` is the address that a session is made with. -/
  remoteAddress : Option UdpTuple := none
  closeSession : Bool := false
  /-- The addresses from which a binding request has come that passed `check_auth`
  of this session.  The program does not keep them. -/
  authenticated : List UdpTuple := []
  deriving DecidableEq

/-! ## The kinds of datagrams -/

/-- `is_rtcp`. -/
def isRtcp (data : Bytes) : Bool :=
  decide (4 ≤ data.length) && decide (127 < data.getD 0 0 ∧ data.getD 0 0 < 192) &&
    decide (192 ≤ data.getD 1 0 ∧ data.getD 1 0 ≤ 223)

/-- `is_rtp`. -/
def isRtp (data : Bytes) : Bool :=
  decide (12 ≤ data.length) && decide (127 < data.getD 0 0 ∧ data.getD 0 0 < 192)

/-- `is_dtls`. -/
def isDtls (data : Bytes) : Bool :=
  decide (13 ≤ data.length) && decide (19 < data.getD 0 0 ∧ data.getD 0 0 < 64)

namespace WebrtcSession

/-- A session while it handles a datagram, and what it has written to the socket. -/
structure Handled where
  session : WebrtcSession
  sent : List (UdpTuple × Bytes) := []

/-- Writes a response and goes on.  Both callers of `on_handle_stun_packet` catch the
exceptions, so that one ends the handling. -/
def respond (libs : RtcLibs) (resp : StunPacket) (address : UdpTuple) (st : Handled)
    (next : Handled → Except Fault Handled) : Except Fault Handled :=
  match resp.serialize libs.hmac with
  | .ok out => next { st with sent := st.sent ++ [(address, out.wire)] }
  | .error (.thrown _) => .ok st
  | .error (.fault f) => .error f

/-- `write_error_stun_packet` as the last thing that is done. -/
def writeErrorStunPacket (libs : RtcLibs) (pkt : StunPacket) (err : UInt16) (address : UdpTuple)
    (st : Handled) : Except Fault Handled :=
  respond libs (pkt.createErrorResponse err) address st .ok

/-- The answer to a request that is accepted. -/
def writeSuccess (libs : RtcLibs) (pkt : StunPacket) (address : UdpTuple) (st : Handled) :
    Except Fault Handled :=
  let resp := { pkt.createSuccessResponse with
    xorAddress := some (getIpv4Sockaddr libs address)
    password := st.session.userPwd.text }
  respond libs resp address st fun st => .ok { st with session.remoteAddress := some address }

/-- The part of `on_handle_stun_packet` that starts with `check_auth`. -/
def authenticate (libs : RtcLibs) (pkt : StunPacket) (address : UdpTuple) (st : Handled) :
    Except Fault Handled :=
  match pkt.checkAuth libs.hmac st.session.usernameFragment.text st.session.userPwd.text with
  | .error f => .error f
  | .ok (.unauthorized, pkt) => writeErrorStunPacket libs pkt 401 address st
  | .ok (.badRequest, pkt) => writeErrorStunPacket libs pkt 400 address st
  | .ok (.ok, pkt) =>
    let st := { st with session.authenticated := address :: st.session.authenticated }
    if pkt.iceControlled ≠ 0 then writeErrorStunPacket libs pkt 487 address st
    else writeSuccess libs pkt address st

/-- `on_handle_stun_packet`.  A request without an attribute that it needs is answered
with an error and then handled all the same. -/
def onHandleStunPacket (libs : RtcLibs) (pkt : StunPacket) (address : UdpTuple)
    (s : WebrtcSession) : Except Fault Handled :=
  if pkt.stunMethod ≠ BINDING then writeErrorStunPacket libs pkt 400 address { session := s }
  else if !pkt.hasFingerprint ∧ pkt.stunClass ≠ .indication then
    writeErrorStunPacket libs pkt 400 address { session := s }
  else if pkt.stunClass = .request then
    if pkt.messageIntegrity = none ∨ pkt.priority = 0 ∨ pkt.userName = [] then
      respond libs (pkt.createErrorResponse 400) address { session := s }
        (authenticate libs pkt address)
    else authenticate libs pkt address { session := s }
  else .ok { session := s }

/-- `on_handle_dtls_data`, up to the DTLS connection. -/
def onHandleDtlsData (address : UdpTuple) (s : WebrtcSession) : WebrtcSession :=
  { s with remoteAddress := some address }

/-- `on_recv_packet`. -/
def onRecvPacket (libs : RtcLibs) (udpData : Bytes) (address : UdpTuple) (s : WebrtcSession) :
    Except Fault Handled :=
  if 2048 < udpData.length then .error .outOfBounds
  else if StunPacket.isStun udpData then
    match StunPacket.parse udpData with
    | .ok packet => onHandleStunPacket libs packet address s
    | .error (.thrown _) => .ok { session := s }
    | .error (.fault f) => .error f
  else if isRtcp udpData then .ok { session := s }
  else if isRtp udpData then .ok { session := s }
  else if isDtls udpData then .ok { session := onHandleDtlsData address s }
  else .ok { session := s }

end WebrtcSession

/-- `single_webrtc_map`, the sessions in memory, and what was written to the socket. -/
structure Routing where
  singleWebrtcMap : Bytes → Option SessionPtr := fun _ => none
  sessions : SessionPtr → Option WebrtcSession := fun _ => none
  sent : List (UdpTuple × Bytes) := []

namespace Routing

/-- What happens to the sessions and at the socket.  A construction says whether
`rtc_dtls` could be made: its constructor throws when OpenSSL has no memory for the
connection. -/
inductive Event where
  | construct (p : SessionPtr) (usernameFragment : ByteCrypto.RandomString 16)
      (userPwd : ByteCrypto.RandomString 32) (dtlsMade : Bool)
  | datagram (data : Bytes) (address : UdpTuple)
  | closeSession (p : SessionPtr)
  | destruct (p : SessionPtr)

/-- `insert_webrtc_session`: an entry that is there stays. -/
def insertWebrtcSession (r : Routing) (key : Bytes) (p : SessionPtr) : Routing :=
  match r.singleWebrtcMap key with
  | some _ => r
  | none => { r with singleWebrtcMap := fun k => if k = key then some p else r.singleWebrtcMap k }

/-- `remove_webrtc_session` of a session. -/
def removeWebrtcSession (r : Routing) (p : SessionPtr) : Routing :=
  { r with singleWebrtcMap := fun k =>
    if r.singleWebrtcMap k = some p then none else r.singleWebrtcMap k }

/-- The memory at a pointer is changed. -/
def setSession (r : Routing) (p : SessionPtr) (s : Option WebrtcSession) : Routing :=
  { r with sessions := fun q => if q = p then s else r.sessions q }

/-- A call of a member function of the session at `p`. -/
def onSession (r : Routing) (p : SessionPtr)
    (call : WebrtcSession → Except Fault WebrtcSession.Handled) : Except Fault Routing :=
  match r.sessions p with
  | none => .error .useAfterFree
  | some s =>
    match call s with
    | .error f => .error f
    | .ok st => .ok { r.setSession p (some st.session) with sent := r.sent ++ st.sent }

/-- The user name up to the colon. -/
def usernameOf (userName : Bytes) : Bytes := userName.takeWhile fun c => c ≠ ':'.toNat.toUInt8

/-- `single_udp_session_callback::on_read`. -/
def onRead (libs : RtcLibs) (r : Routing) (data : Bytes) (address : UdpTuple) :
    Except Fault Routing :=
  match r.singleWebrtcMap address.toText with
  | some p => r.onSession p (WebrtcSession.onRecvPacket libs data address)
  | none =>
    if StunPacket.isStun data then
      match StunPacket.parse data with
      | .error (.thrown _) => .ok r
      | .error (.fault f) => .error f
      | .ok packet =>
        match r.singleWebrtcMap (usernameOf packet.userName) with
        | none => .ok r
        | some p =>
          (r.insertWebrtcSession address.toText p).onSession p
            (WebrtcSession.onHandleStunPacket libs packet address)
    else .ok r

/-- The constructor of `webrtc_session`.  When it throws, the memory is given back and
no destructor runs. -/
def construct (r : Routing) (p : SessionPtr) (usernameFragment : ByteCrypto.RandomString 16)
    (userPwd : ByteCrypto.RandomString 32) (dtlsMade : Bool) : Routing :=
  let r := r.insertWebrtcSession usernameFragment.text p
  if dtlsMade then r.setSession p (some { usernameFragment, userPwd }) else r

/-- `close_session` of the session `s` at `p`. -/
def closeSession (r : Routing) (p : SessionPtr) (s : WebrtcSession) : Routing :=
  if s.closeSession then r
  else (r.setSession p (some { s with closeSession := true })).removeWebrtcSession p

/-- Memory in use is not handed out again, and only sessions in memory are closed and
destructed: other events change nothing. -/
def step (libs : RtcLibs) : Event → Routing → Except Fault Routing
  | .construct p usernameFragment userPwd dtlsMade, r =>
    match r.sessions p with
    | some _ => .ok r
    | none => .ok (r.construct p usernameFragment userPwd dtlsMade)
  | .datagram data address, r => r.onRead libs data address
  | .closeSession p, r =>
    match r.sessions p with
    | some s => .ok (r.closeSession p s)
    | none => .ok r
  | .destruct p, r =>
    match r.sessions p with
    | some s => .ok ((r.closeSession p s).setSession p none)
    | none => .ok r

end Routing

end MediaServer
