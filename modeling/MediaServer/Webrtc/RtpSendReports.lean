import Mathlib.Tactic.Common
import MediaServer.Rtprtcp.RtcpPackets
import MediaServer.Utils.Timeex
import MediaServer.Webrtc.RtpRecvStream
import MediaServer.Webrtc.RtpSendStream

/-!
# Reports and retransmissions of a sender

`net/webrtc/rtp_send_stream`: a sender answers the numbers of lost packets with the copies
in its buffer, tells the peer its time, and takes the round trip time from the reports that
come back.

A receiver report repeats the middle of the timestamp of a sender report, `lsr`, and says
how long ago that came, `dlsr`.

* `lsr_agrees_iff`: the two sides mean the same by these fields exactly for the fractions
  whose two halves are equal, and for delays below 2^32 / 1000.
-/

namespace MediaServer

/-- The round trip time in milliseconds until one is measured. -/
def RTT_DEFAULT : Int := 30

/-- A packet is not sent again more often than this. -/
def RETRANSMIT_MAX_COUNT : Int := 20

/-- `rtp_send_stream`, with what it keeps of the reports.  `lossRate` is in parts of 256. -/
structure RtpSendReports extends RtpSendStream where
  rtpSsrc : UInt32 := 0
  clock : Int := 0
  staticsCount : Nat := 0
  rtt : Int := RTT_DEFAULT
  avgRtt : Int := 0
  lostRate : UInt8 := 0
  lostTotal : UInt32 := 0
  jitter : UInt32 := 0
  deriving DecidableEq

namespace RtpSendReports

/-! ## Retransmissions -/

/-- The copy of a packet in the buffer is changed. -/
def setPacket (seq : UInt16) (pkt : NackPacket) (s : RtpSendReports) : RtpSendReports :=
  { s with rtpBufferMap := s.rtpBufferMap.assign seq pkt }

/-- One turn of the loop in `handle_fb_rtp_nack`, with the packet that is sent again. -/
def retransmit (nowMs : Int) (seq : UInt16) (s : RtpSendReports) :
    Except Fault (Option RtpPacket × RtpSendReports) :=
  match s.rtpBufferMap.find? seq with
  | none => .ok (none, s)
  | some pkt =>
    if pkt.lastSentTimestamp = 0 then
      .ok (some pkt.packet,
        s.setPacket seq { pkt with lastSentTimestamp := asUint32 nowMs, sentCount := 1 })
    else
      let diffT := nowMs - pkt.lastSentTimestamp.toNat
      if diffT < s.rtt - 5 then .ok (none, s)
      else if pkt.sentCount = 2 ^ 31 - 1 then .error .overflow
      else
        let pkt := { pkt with sentCount := pkt.sentCount + 1 }
        if pkt.sentCount > RETRANSMIT_MAX_COUNT then .ok (none, s.setPacket seq pkt)
        else
          .ok (some pkt.packet,
            s.setPacket seq { pkt with lastSentTimestamp := asUint32 nowMs })

/-- The loop of `handle_fb_rtp_nack`. -/
def retransmitAll (nowMs : Int) : List UInt16 → RtpSendReports →
    Except Fault (List RtpPacket × RtpSendReports)
  | [], s => .ok ([], s)
  | seq :: lostSeqs, s => do
    let (sent, s) ← s.retransmit nowMs seq
    let (more, s) ← s.retransmitAll nowMs lostSeqs
    return (sent.toList ++ more, s)

/-- `handle_fb_rtp_nack`. -/
def handleFbRtpNack (nowMs : Int) (nackPkt : RtcpFbNack) (s : RtpSendReports) :
    Except Fault (List RtpPacket × RtpSendReports) := do
  let lostSeqs ← nackPkt.getLostSeqs
  s.retransmitAll nowMs lostSeqs

/-- `on_send_rtp_packet`. -/
def onSendRtpPacket (nowMs : Int) (pkt : RtpPacket) (s : RtpSendReports) :
    Except Fault RtpSendReports := do
  let stream ← s.toRtpSendStream.onSendRtpPacket (nowMs, pkt)
  return { s with toRtpSendStream := stream }

/-! ## Reports -/

/-- `get_rtcp_sr`. -/
def getRtcpSr (nowMs : Int) (s : RtpSendReports) : Except Fault RtcpSrPacket := do
  let ntp ← millisecToNtp nowMs
  return { ssrc := s.rtpSsrc, ntpSec := ntp.ntpSec, ntpFrac := ntp.ntpFrac
           rtpTimestamp := asUint32 (nowMs.tdiv 1000 * s.clock)
           pktCount := UInt32.ofNat s.sendStatics.count
           bytesCount := UInt32.ofNat s.sendStatics.bytes }

/-- `on_timer`. -/
def onTimer (nowMs : Int) (s : RtpSendReports) :
    Except Fault (Option RtcpSrPacket × RtpSendReports) := do
  let s := { s with staticsCount := s.staticsCount + 1 }
  let s := if s.staticsCount % 12 = 0 then
      { s with sendStatics := RtpRecvStream.bytesPerSecond nowMs s.sendStatics } else s
  if s.staticsCount % 2 = 0 then
    let srPkt ← s.getRtcpSr nowMs
    return (some srPkt, s)
  else return (none, s)

/-- The time that an `lsr` stands for. -/
def lsrNtp (lsr : UInt32) : NtpTimestamp :=
  ⟨(lsr &&& 0xffff0000) >>> 16, (lsr &&& 0xffff) <<< 16⟩

/-- The product is one of 32 bits. -/
def dlsrMs (dlsr : UInt32) : Int := ((dlsr * 1000 / 65536).toNat : Int)

/-- `handle_rtcp_rr`. -/
def handleRtcpRr (nowMs : Int) (rrPkt : RtcpRrPacket) (s : RtpSendReports) :
    Except Fault RtpSendReports := do
  let s := { s with lostTotal := rrPkt.cumulativeLost, lostRate := rrPkt.fraclost
                    jitter := rrPkt.jitter }
  if rrPkt.lsr = 0 then return { s with rtt := RTT_DEFAULT }
  else
    let nowNtp ← millisecToNtp nowMs
    let nowNtp : NtpTimestamp := ⟨nowNtp.ntpSec &&& 0x0000ffff, nowNtp.ntpFrac &&& 0xffff0000⟩
    let nowUint32Ms := asUint32 (ntpToMillisec nowNtp)
    let rtt := wrapInt (nowUint32Ms.toNat - ntpToMillisec (lsrNtp rrPkt.lsr) - dlsrMs rrPkt.dlsr)
    let rtt := if rtt < 0 then 1 else rtt
    let rtt := if rtt > 150 then 150 else rtt
    return { s with
      rtt := rtt
      avgRtt := if s.avgRtt = 0 then rtt else s.avgRtt + (rtt - s.avgRtt).tdiv 16 }

/-! ## The time in a report -/

/-- The middle 32 bits of a timestamp. -/
def middleBits (sec frac : UInt32) : Nat :=
  (sec.toNat * 2 ^ 32 + frac.toNat) / 2 ^ 16 % 2 ^ 32

/-- The sender takes back from `lsr` what stood in the middle of its timestamp, and from
`dlsr` the delay in milliseconds. -/
structure LsrAgrees (sec frac lsr dlsr : UInt32) : Prop where
  middle : lsr.toNat = middleBits sec frac
  seconds : (lsrNtp lsr).ntpSec.toNat = sec.toNat % 2 ^ 16
  fraction : (lsrNtp lsr).ntpFrac.toNat = frac.toNat / 2 ^ 16 * 2 ^ 16
  delay : dlsrMs dlsr = dlsr.toNat * 1000 / 65536

theorem toNat_low (n : UInt32) : (n &&& 0xffff).toNat = n.toNat % 2 ^ 16 := by
  rw [UInt32.toNat_and]
  exact Nat.and_two_pow_sub_one_eq_mod n.toNat 16

theorem toNat_low_shiftLeft (n : UInt32) :
    ((n &&& 0xffff) <<< 16).toNat = n.toNat % 2 ^ 16 * 2 ^ 16 := by
  have hshift : (16 : UInt32).toNat % 32 = 16 := rfl
  rw [UInt32.toNat_shiftLeft, toNat_low, hshift, Nat.shiftLeft_eq]
  omega

theorem toNat_high_shiftRight (n : UInt32) :
    ((n &&& 0xffff0000) >>> 16).toNat = n.toNat / 2 ^ 16 := by
  have hshift : (16 : UInt32).toNat % 32 = 16 := rfl
  have hmask : (0xffff0000 : UInt32).toNat >>> 16 = 2 ^ 16 - 1 := rfl
  have hn := n.toNat_lt
  rw [UInt32.toNat_shiftRight, hshift, UInt32.toNat_and, Nat.shiftRight_and_distrib, hmask,
    Nat.and_two_pow_sub_one_eq_mod, Nat.shiftRight_eq_div_pow]
  omega

/-- What a receiver stores of a timestamp. -/
theorem toNat_lsr (nowMs : Int) (srPkt : RtcpSrPacket) (s : RtpRecvStream) :
    (s.onHandleRtcpSr nowMs srPkt).lsr.toNat =
      srPkt.ntpSec.toNat % 2 ^ 16 * 2 ^ 16 + srPkt.ntpFrac.toNat % 2 ^ 16 := by
  show (((srPkt.ntpSec &&& 0xffff) <<< 16) ||| (srPkt.ntpFrac &&& 0xffff)).toNat = _
  have hlow : srPkt.ntpFrac.toNat % 2 ^ 16 < 2 ^ 16 := Nat.mod_lt _ (by decide)
  rw [UInt32.toNat_or, toNat_low_shiftLeft, toNat_low, ← Nat.shiftLeft_eq,
    ← Nat.shiftLeft_add_eq_or_of_lt hlow]

theorem dlsrMs_eq_iff (dlsr : UInt32) :
    dlsrMs dlsr = dlsr.toNat * 1000 / 65536 ↔ dlsr.toNat * 1000 < 2 ^ 32 := by
  have hthousand : (1000 : UInt32).toNat = 1000 := rfl
  have hunit : (65536 : UInt32).toNat = 65536 := rfl
  rw [dlsrMs, UInt32.toNat_div, UInt32.toNat_mul, hthousand, hunit]
  omega

/-- **LSR agreement.**  Both sides mean the same exactly when the two halves of the fraction
are equal, since the receiver stores the lower half and not the upper one, and when the
delay times 1000 has no more than 32 bits. -/
theorem lsr_agrees_iff (nowMs : Int) (srPkt : RtcpSrPacket) (dlsr : UInt32) (s : RtpRecvStream) :
    LsrAgrees srPkt.ntpSec srPkt.ntpFrac (s.onHandleRtcpSr nowMs srPkt).lsr dlsr ↔
      srPkt.ntpFrac.toNat / 2 ^ 16 = srPkt.ntpFrac.toNat % 2 ^ 16 ∧
        dlsr.toNat * 1000 < 2 ^ 32 := by
  have hlsr := toNat_lsr nowMs srPkt s
  have hsec : (lsrNtp (s.onHandleRtcpSr nowMs srPkt).lsr).ntpSec.toNat = _ :=
    toNat_high_shiftRight _
  have hfrac : (lsrNtp (s.onHandleRtcpSr nowMs srPkt).lsr).ntpFrac.toNat = _ :=
    toNat_low_shiftLeft _
  have hntpFrac := srPkt.ntpFrac.toNat_lt
  rw [hlsr] at hsec hfrac
  constructor
  · rintro ⟨-, -, hfraction, hdelay⟩
    rw [hfrac] at hfraction
    exact ⟨by omega, (dlsrMs_eq_iff dlsr).mp hdelay⟩
  · rintro ⟨hhalves, hdelay⟩
    refine ⟨?_, ?_, ?_, (dlsrMs_eq_iff dlsr).mpr hdelay⟩
    · have hshift : (srPkt.ntpSec.toNat * 2 ^ 32 + srPkt.ntpFrac.toNat) / 2 ^ 16 =
          srPkt.ntpSec.toNat * 2 ^ 16 + srPkt.ntpFrac.toNat / 2 ^ 16 := by omega
      rw [hlsr, middleBits, hshift]
      omega
    · rw [hsec]
      omega
    · rw [hfrac]
      omega

/-- A sender report of one second and 2^-16 of a second. -/
def reportAtOne : RtcpSrPacket :=
  { ssrc := 1, ntpSec := 1, ntpFrac := 65536, rtpTimestamp := 0, pktCount := 0, bytesCount := 0 }

/-- The fraction comes back as 0, and a delay of more than 65 seconds as none. -/
theorem not_lsr_agrees_fraction :
    ((RtpRecvStream.new "video" 1 96 90000).onHandleRtcpSr 0 reportAtOne).lsr = 65536 ∧
      middleBits 1 65536 = 65537 ∧ lsrNtp 65536 = ⟨1, 0⟩ ∧ ¬ LsrAgrees 1 65536 65536 0 ∧
      dlsrMs 4294968 = 0 ∧ 4294968 * 1000 / 65536 = 65536 := by
  refine ⟨by decide, by decide, by decide, ?_, by decide, by decide⟩
  rintro ⟨hmiddle, -⟩
  revert hmiddle
  decide

end RtpSendReports

end MediaServer
