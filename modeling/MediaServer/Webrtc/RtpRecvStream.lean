import Mathlib.Tactic.SplitIfs
import MediaServer.Rtprtcp.RtcpPackets
import MediaServer.Rtprtcp.RtxDemux
import MediaServer.Utils.Timeex
import MediaServer.Webrtc.NackGenerator

/-!
# Received streams

`net/webrtc/rtp_recv_stream`: what a publisher keeps of the packets of a stream, and the
reports that it sends to the peer.

`update_seq` follows a sequence number of 16 bits over its wraps.  `cycles_` counts them, a
packet far away from the others is discarded, and `bad_seq_` is the number behind it.
`get_packet_lost` compares the packets that were expected between two reports with those
that have arrived.

An exception leaves the handlers with what was stored before it.  The fields that are
calculated in floating point are left out: the jitter, and the delay since the last sender
report, which are arguments where they are sent.
-/

namespace MediaServer

/-- The sequence numbers in a cycle. -/
def RTP_SEQ_MOD : Nat := 2 ^ 16

/-- A number may go this far ahead of the highest one. -/
def MAX_DROPOUT : Nat := 3000

/-- A number may fall this far behind the highest one. -/
def MAX_MISORDER : Nat := 100

/-- `rtp_recv_stream`. -/
structure RtpRecvStream where
  mediaType : String
  ssrc : UInt32
  payloadtype : UInt8
  clockRate : Int
  recvStatics : StreamStatics := {}
  tsDiff : Int := 0
  lsr : UInt32 := 0
  lastSrMs : Int := 0
  staticsCount : Nat := 0
  discardCount : Nat := 0
  totalLost : Int := 0
  expectRecv : Int := 0
  lastRecv : Int := 0
  fracLost : UInt8 := 0
  firstPkt : Bool := true
  baseSeq : UInt16 := 0
  maxSeq : UInt16 := 0
  badSeq : UInt32 := UInt32.ofNat (RTP_SEQ_MOD + 1)
  cycles : UInt32 := 0
  ntp : NtpTimestamp := ⟨0, 0⟩
  srSsrc : UInt32 := 0
  rtpTimestamp : Int := 0
  srLocalMs : Int := 0
  pktCount : UInt32 := 0
  bytesCount : UInt32 := 0
  nackHandle : Option NackGenerator
  deriving DecidableEq

/-- The exceptions that leave the handlers. -/
inductive RecvError where
  | clockRate (rate : Int)
  | packet (e : RtpError)
  deriving DecidableEq, Repr

namespace RtpRecvStream

/-- The constructor: only video has a list of missing packets. -/
def new (mediaType : String) (ssrc : UInt32) (payloadtype : UInt8) (clockRate : Int) :
    RtpRecvStream :=
  { mediaType := mediaType, ssrc := ssrc, payloadtype := payloadtype, clockRate := clockRate
    nackHandle := if mediaType = "video" then some {} else none }

/-! ## Sequence numbers -/

/-- `init_seq`. -/
def initSeq (seq : UInt16) (s : RtpRecvStream) : RtpRecvStream :=
  { s with baseSeq := seq, maxSeq := seq, badSeq := UInt32.ofNat (RTP_SEQ_MOD + 1), cycles := 0 }

/-- `update_seq`: in order, out of the window, or late. -/
def updateSeq (seq : UInt16) (s : RtpRecvStream) : RtpRecvStream :=
  let udelta := seq - s.maxSeq
  if udelta.toNat < MAX_DROPOUT then
    -- in order, and maybe behind a wrap
    { s with
      cycles := if seq < s.maxSeq then s.cycles + UInt32.ofNat RTP_SEQ_MOD else s.cycles
      maxSeq := seq }
  else if udelta.toNat ≤ RTP_SEQ_MOD - MAX_MISORDER then
    if seq.toUInt32 = s.badSeq then s.initSeq seq
    else
      { s with
        badSeq := (seq.toUInt32 + 1) &&& UInt32.ofNat (RTP_SEQ_MOD - 1)
        discardCount := s.discardCount + 1 }
  else s

/-- `get_expected_packets`, in unsigned numbers of 32 bits. -/
def getExpectedPackets (s : RtpRecvStream) : Int :=
  ((s.cycles + s.maxSeq.toUInt32 - s.badSeq + 1).toNat : Int)

/-! ## Packets -/

/-- What a handler leaves: the stream, the packet that goes on to the room, and the
exception that ended it. -/
structure Handled where
  stream : RtpRecvStream
  packet : Rtp.Packet
  thrown : Option RecvError := none

/-- `generate_jitter`, without the jitter. -/
def generateJitter (nowMs : Int) (rtpTimestamp : UInt32) (s : RtpRecvStream) :
    Except RecvError RtpRecvStream :=
  if s.clockRate ≤ 0 then .error (.clockRate s.clockRate)
  else .ok { s with tsDiff := nowMs - ((rtpTimestamp.toNat : Int) * 1000).tdiv s.clockRate }

/-- The call of `update_nacklist` at the end of both handlers. -/
def noteNack (seq : UInt16) (s : RtpRecvStream) : RtpRecvStream :=
  if s.mediaType = "video" then
    { s with nackHandle := s.nackHandle.map fun handle => handle.updateNacklist seq }
  else s

/-- The first packet sets the numbers, every other one updates them. -/
def takeSeq (seq : UInt16) (s : RtpRecvStream) : RtpRecvStream :=
  if s.firstPkt then { s.initSeq seq with firstPkt := false } else s.updateSeq seq

/-- `on_handle_rtp_pkt`. -/
def onHandleRtp (nowMs : Int) (pkt : Rtp.Packet) (s : RtpRecvStream) : Handled :=
  let s := { s with recvStatics := s.recvStatics.update pkt.dataLen pkt.localMs }
  let s := s.takeSeq (Rtp.getSeq pkt.getData)
  match s.generateJitter nowMs (Rtp.getTimestamp pkt.getData) with
  | .error e => { stream := s, packet := pkt, thrown := some e }
  | .ok s => { stream := s.noteNack (Rtp.getSeq pkt.getData), packet := pkt }

/-- `on_handle_rtx_packet`. -/
def onHandleRtxPacket (pkt : Rtp.Packet) (s : RtpRecvStream) : Except Fault Handled :=
  let s := { s with recvStatics := s.recvStatics.update pkt.dataLen pkt.localMs }
  match pkt.rtxDemux s.ssrc s.payloadtype with
  | .error (.fault f) => .error f
  | .error (.thrown e) => .ok { stream := s, packet := pkt, thrown := some (.packet e) }
  | .ok pkt =>
    let s := s.updateSeq (Rtp.getSeq pkt.getData)
    .ok { stream := s.noteNack (Rtp.getSeq pkt.getData), packet := pkt }

/-- `on_handle_rtcp_sr`. -/
def onHandleRtcpSr (nowMs : Int) (srPkt : RtcpSrPacket) (s : RtpRecvStream) : RtpRecvStream :=
  { s with
    srSsrc := srPkt.ssrc
    ntp := ⟨srPkt.ntpSec, srPkt.ntpFrac⟩
    rtpTimestamp := srPkt.rtpTimestamp.toNat
    srLocalMs := nowMs
    pktCount := srPkt.pktCount
    bytesCount := srPkt.bytesCount
    lastSrMs := nowMs
    lsr := ((srPkt.ntpSec &&& 0xffff) <<< 16) ||| (srPkt.ntpFrac &&& 0xffff) }

/-! ## Reports -/

/-- The conversion to `uint8_t` of a number in floating point, which is only defined for the
numbers that fit. -/
def toUint8 (v : Int) : Except Fault UInt8 :=
  if 0 ≤ v ∧ v < 256 then .ok (UInt8.ofNat v.toNat) else .error .overflow

/-- `get_packet_lost`. -/
def getPacketLost (s : RtpRecvStream) : Except Fault (Int × RtpRecvStream) :=
  let expected := s.getExpectedPackets
  let recvCount : Int := s.recvStatics.count
  let expectedInterval := expected - s.expectRecv
  let recvInterval := recvCount - s.lastRecv
  if s.lastRecv ≤ 0 then .ok (0, { s with expectRecv := expected, lastRecv := recvCount })
  else
    let s := { s with expectRecv := expected, lastRecv := recvCount }
    if expectedInterval ≤ 0 ∨ recvInterval ≤ 0 then .ok (s.totalLost, { s with fracLost := 0 })
    else do
      let fracLost ← toUint8 (roundDiv ((expectedInterval - recvInterval) * 256) expectedInterval)
      let s := { s with totalLost := s.totalLost + (expectedInterval - recvInterval)
                        fracLost := fracLost }
      return (s.totalLost, s)

/-- `send_rtcp_rr`, with the report that it sends. -/
def sendRtcpRr (jitter dlsr : UInt32) (s : RtpRecvStream) :
    Except Fault (RtcpRrPacket × RtpRecvStream) := do
  let highestSeq := s.maxSeq.toUInt32 + s.cycles
  let (_, s) ← s.getPacketLost
  return ({ reporterSsrc := 1, reporteeSsrc := s.ssrc, fraclost := s.fracLost
            cumulativeLost := asUint32 s.totalLost
            highestSeq := highestSeq, jitter := jitter, lsr := s.lsr, dlsr := dlsr }, s)

/-- `bytes_per_second`, whose results only go into the log. -/
def bytesPerSecond (nowMs : Int) (s : StreamStatics) : StreamStatics :=
  { s with timestamp := nowMs, lastBytes := s.bytes, lastCount := s.count }

/-- Video reports at every timer, audio at every fourth. -/
def reports (s : RtpRecvStream) : Bool :=
  s.mediaType = "video" || (s.staticsCount + 1) % 4 = 0

/-- `on_timer`. -/
def onTimer (nowMs : Int) (jitter dlsr : UInt32) (s : RtpRecvStream) :
    Except Fault (Option RtcpRrPacket × RtpRecvStream) := do
  let due := s.reports
  let s := { s with staticsCount := s.staticsCount + 1 }
  let s := if s.staticsCount % 12 = 0 then
      { s with recvStatics := bytesPerSecond nowMs s.recvStatics } else s
  if due then
    let (rr, s) ← s.sendRtcpRr jitter dlsr
    return (some rr, s)
  else return (none, s)

end RtpRecvStream

end MediaServer
