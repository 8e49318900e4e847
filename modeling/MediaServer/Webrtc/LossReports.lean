import Mathlib.Algebra.Order.Group.Abs
import Mathlib.Algebra.Order.Group.Int
import Mathlib.Tactic.Common
import MediaServer.Webrtc.SequenceNumbers

/-!
# The fraction of lost packets

A report says how many packets have been lost since the one before, in parts of 256.
`get_packet_lost` divides and rounds, and stores the result in a byte.

* `step` is a packet, a packet out of a retransmission, a report of the sender or a timer.
  `note` keeps the two counts of the last report beside the stream.
* `Faithful` says what the byte is to be, from the packets that were expected and the ones
  that have come.
* `fraction_lost_iff`: the reports are faithful exactly along the runs in which every
  report is `Representable`.  Near a total loss the quotient rounds to 256, with packets
  that come twice it is negative, and behind a report without any packet there is none.
-/

namespace MediaServer

namespace RtpRecvStream

/-- What a stream is called for. -/
inductive Action where
  | rtp (nowMs : Int) (pkt : Rtp.Packet)
  | rtx (pkt : Rtp.Packet)
  | sr (nowMs : Int) (srPkt : RtcpSrPacket)
  | timer (nowMs : Int) (jitter dlsr : UInt32)

/-- One step of a stream. -/
def step : Action → RtpRecvStream → Except Fault RtpRecvStream
  | .rtp nowMs pkt, s => .ok (s.onHandleRtp nowMs pkt).stream
  | .rtx pkt, s => (s.onHandleRtxPacket pkt).map Handled.stream
  | .sr nowMs srPkt, s => .ok (s.onHandleRtcpSr nowMs srPkt)
  | .timer nowMs jitter dlsr, s => (s.onTimer nowMs jitter dlsr).map Prod.snd

/-- The packets that were expected and the packets that had come at a report. -/
abbrev Counts : Type := Int × Int

/-- The counts of a stream, as they are now. -/
def counts (s : RtpRecvStream) : Counts := (s.getExpectedPackets, s.recvStatics.count)

/-- The counts at the last report. -/
def note : Action → RtpRecvStream → Option Counts → Option Counts
  | .timer _ _ _, s, last => if s.reports then some s.counts else last
  | _, _, last => last

/-- The stored byte is the fraction of the `expected` packets that is not among the
`received` ones, in parts of 256 and off by one at most. -/
def Faithful (fracLost : UInt8) (expected received : Int) : Prop :=
  if expected ≤ 0 ∨ expected ≤ received then fracLost = 0
  else |(fracLost.toNat : Int) * expected - 256 * (expected - received)| ≤ expected ∧
    (received = 0 → fracLost = 255)

/-- The quotient is calculated and fits into a byte.  Behind a report without any packet
there is none, so that 0 has to do. -/
def Representable (before expected received : Int) : Prop :=
  expected ≤ 0 ∨
    if before ≤ 0 then expected ≤ received ∨ 256 * (expected - received) ≤ expected
    else 0 < received ∧ 512 * (received - expected) < expected ∧ expected < 512 * received

/-- Every report behind the first one stores a faithful fraction. -/
def ReportsLoss : Action → Option Counts × RtpRecvStream → Prop
  | .timer nowMs jitter dlsr, (some last, s) =>
    s.reports = true → ∃ s', step (.timer nowMs jitter dlsr) s = .ok s' ∧
      Faithful s'.fracLost (s.counts.1 - last.1) (s.counts.2 - last.2)
  | _, _ => True

/-- Of every report behind the first one the fraction is representable. -/
def ReportRepresentable : Action → Option Counts × RtpRecvStream → Prop
  | .timer _ _ _, (some last, s) =>
    s.reports = true → Representable last.2 (s.counts.1 - last.1) (s.counts.2 - last.2)
  | _, _ => True

/-! ## The quotient -/

theorem roundDiv_bounds {a b : Int} (hb : 0 < b) :
    2 * (roundDiv a b * b) ≤ 2 * a + b ∧ 2 * a ≤ 2 * (roundDiv a b * b) + b := by
  have hbound : ∀ n : Int, 2 * (n / (2 * b) * b) ≤ n ∧ n < 2 * (n / (2 * b) * b) + 2 * b := by
    intro n
    have hle := Int.ediv_mul_le n (show 2 * b ≠ 0 by omega)
    have hlt := Int.lt_ediv_add_one_mul_self n (show 0 < 2 * b by omega)
    rw [Int.add_mul, Int.one_mul] at hlt
    rw [Int.mul_left_comm] at hle hlt
    omega
  rw [roundDiv]
  split_ifs
  · have h := hbound (2 * a + b)
    omega
  · have h := hbound (2 * -a + b)
    rw [Int.neg_mul]
    omega

theorem roundDiv_nonneg_iff {a b : Int} (hb : 0 < b) : 0 ≤ roundDiv a b ↔ -(2 * a) < b := by
  rw [roundDiv]
  split_ifs with ha
  · have h := Int.ediv_nonneg (show 0 ≤ 2 * a + b by omega) (show 0 ≤ 2 * b by omega)
    omega
  · have h := Int.ediv_lt_iff_lt_mul (a := 2 * -a + b) (b := 1) (show 0 < 2 * b by omega)
    omega

theorem roundDiv_lt_iff {a b : Int} (hb : 0 < b) :
    roundDiv a b < 256 ↔ 2 * a < 511 * b := by
  rw [roundDiv]
  split_ifs with ha
  · have h := Int.ediv_lt_iff_lt_mul (a := 2 * a + b) (b := 256) (show 0 < 2 * b by omega)
    omega
  · have h := Int.ediv_nonneg (show 0 ≤ 2 * -a + b by omega) (show 0 ≤ 2 * b by omega)
    omega

/-- A quotient that fits is faithful. -/
theorem toUint8_faithful_iff {expected received : Int} (hexpected : 0 < expected)
    (hreceived : 0 < received) :
    (∃ fracLost, toUint8 (roundDiv ((expected - received) * 256) expected) = .ok fracLost ∧
        Faithful fracLost expected received) ↔
      512 * (received - expected) < expected ∧ expected < 512 * received := by
  have hlow := roundDiv_nonneg_iff (a := (expected - received) * 256) hexpected
  have hhigh := roundDiv_lt_iff (a := (expected - received) * 256) hexpected
  obtain ⟨hle, hge⟩ := roundDiv_bounds (a := (expected - received) * 256) hexpected
  generalize roundDiv ((expected - received) * 256) expected = v at *
  rw [toUint8]
  by_cases hfits : 0 ≤ v ∧ v < 256
  · rw [if_pos hfits]
    have hbyte : ((UInt8.ofNat v.toNat).toNat : Int) = v := by
      rw [UInt8.toNat_ofNat_of_lt' (show v.toNat < 256 by omega)]
      omega
    refine ⟨fun _ => by omega, fun h => ⟨_, rfl, ?_⟩⟩
    rw [Faithful]
    split_ifs with hnone
    · -- the value rounds to zero from below
      have hzero : v = 0 := by
        have hv : ¬ 0 < v := by
          intro hpos
          have hmul := Int.mul_le_mul_of_nonneg_right (show 1 ≤ v by omega) hexpected.le
          omega
        omega
      rw [hzero]
      rfl
    · rw [hbyte, abs_le]
      omega
  · rw [if_neg hfits]
    constructor
    · rintro ⟨_, h, -⟩
      cases h
    · intro h
      omega

/-- Behind a report without any packet the byte stays 0. -/
theorem faithful_zero_iff {before expected received : Int} (hbefore : before ≤ 0) :
    Faithful 0 expected received ↔ Representable before expected received := by
  rw [Faithful, Representable, if_pos hbefore]
  have hbyte : (((0 : UInt8).toNat : Nat) : Int) = 0 := rfl
  split_ifs with h
  · simp only [true_iff]
    omega
  · rw [hbyte, abs_le]
    have hne : ¬ (0 : UInt8) = 255 := by decide
    simp only [hne, imp_false]
    omega

/-! ## One report -/

/-- What `get_packet_lost` leaves in the counters. -/
theorem getPacketLost_ok {s s' : RtpRecvStream} {lost : Int}
    (h : s.getPacketLost = .ok (lost, s')) :
    (s'.expectRecv, s'.lastRecv) = s.counts ∧ s'.recvStatics = s.recvStatics ∧
      (s.lastRecv ≤ 0 → s'.fracLost = s.fracLost) := by
  rw [getPacketLost] at h
  split_ifs at h with hlast
  · cases h
    exact ⟨rfl, rfl, fun _ => rfl⟩
  · cases h
    exact ⟨rfl, rfl, fun hle => absurd hle hlast⟩
  · obtain ⟨fracLost, -, h⟩ := Run.exists_of_bind_ok h
    cases h
    exact ⟨rfl, rfl, fun hle => absurd hle hlast⟩

/-- The byte that `get_packet_lost` stores. -/
theorem map_getPacketLost {s : RtpRecvStream} {expected received : Int}
    (hexpected : s.counts.1 - s.expectRecv = expected)
    (hreceived : s.counts.2 - s.lastRecv = received) :
    s.getPacketLost.map (fun lost => lost.2.fracLost) =
      if s.lastRecv ≤ 0 then .ok s.fracLost
      else if expected ≤ 0 ∨ received ≤ 0 then .ok 0
      else toUint8 (roundDiv ((expected - received) * 256) expected) := by
  subst hexpected hreceived
  show _ = if s.lastRecv ≤ 0 then _
    else if s.getExpectedPackets - s.expectRecv ≤ 0 ∨ s.recvStatics.count - s.lastRecv ≤ 0 then _
    else toUint8 (roundDiv ((s.getExpectedPackets - s.expectRecv -
      (s.recvStatics.count - s.lastRecv)) * 256) (s.getExpectedPackets - s.expectRecv))
  rw [getPacketLost]
  split_ifs
  · rfl
  · rfl
  · rcases toUint8 _ with e | fracLost
    · rfl
    · rfl

/-- The stored byte is faithful exactly when it is representable. -/
theorem getPacketLost_faithful_iff {s : RtpRecvStream} {expected received : Int}
    (hzero : s.lastRecv ≤ 0 → s.fracLost = 0) (hexpected : s.counts.1 - s.expectRecv = expected)
    (hreceived : s.counts.2 - s.lastRecv = received) :
    (∃ lost, s.getPacketLost = .ok lost ∧ Faithful lost.2.fracLost expected received) ↔
      Representable s.lastRecv expected received := by
  refine (Run.exists_map_ok_iff (f := fun lost : Int × RtpRecvStream => lost.2.fracLost)
    (P := fun fracLost => Faithful fracLost expected received)).symm.trans ?_
  rw [map_getPacketLost hexpected hreceived]
  by_cases hlast : s.lastRecv ≤ 0
  · rw [if_pos hlast, hzero hlast, ← faithful_zero_iff hlast]
    simp
  rw [if_neg hlast]
  by_cases hskip : expected ≤ 0 ∨ received ≤ 0
  · -- nothing is divided, and the byte is 0
    rw [if_pos hskip, Representable, if_neg hlast]
    simp only [Except.ok.injEq, exists_eq_left']
    by_cases hnone : expected ≤ 0
    · simp [Faithful, hnone]
    · have hnot : ¬ expected ≤ received := by omega
      have hbyte : (((0 : UInt8).toNat : Nat) : Int) = 0 := rfl
      rw [Faithful, if_neg (not_or.mpr ⟨hnone, hnot⟩), hbyte, abs_le]
      omega
  · rw [not_or, Int.not_le, Int.not_le] at hskip
    rw [if_neg (by omega), toUint8_faithful_iff hskip.1 hskip.2, Representable, if_neg hlast]
    omega

/-! ## Steps -/

/-- The counters of the reports. -/
def reported (s : RtpRecvStream) : Counts × UInt8 := ((s.expectRecv, s.lastRecv), s.fracLost)

@[simp] theorem count_update (t : StreamStatics) (bytes : Nat) (nowMs : Int) :
    (t.update bytes nowMs).count = t.count + 1 := by
  rw [StreamStatics.update]
  split_ifs <;> rfl

theorem updateSeq_frame (seq : UInt16) (s : RtpRecvStream) :
    (s.updateSeq seq).reported = s.reported ∧ (s.updateSeq seq).recvStatics = s.recvStatics := by
  simp only [updateSeq, initSeq]
  split_ifs <;> exact ⟨rfl, rfl⟩

theorem takeSeq_frame (seq : UInt16) (s : RtpRecvStream) :
    (s.takeSeq seq).reported = s.reported ∧ (s.takeSeq seq).recvStatics = s.recvStatics := by
  rw [takeSeq]
  split_ifs
  · exact ⟨rfl, rfl⟩
  · exact updateSeq_frame seq s

theorem noteNack_frame (seq : UInt16) (s : RtpRecvStream) :
    (s.noteNack seq).reported = s.reported ∧ (s.noteNack seq).recvStatics = s.recvStatics := by
  rw [noteNack]
  split_ifs <;> exact ⟨rfl, rfl⟩

/-- A packet counts, and leaves the counters of the reports. -/
theorem onHandleRtp_frame (nowMs : Int) (pkt : Rtp.Packet) (s : RtpRecvStream) :
    (s.onHandleRtp nowMs pkt).stream.reported = s.reported ∧
      (s.onHandleRtp nowMs pkt).stream.recvStatics.count = s.recvStatics.count + 1 := by
  have htake := takeSeq_frame (Rtp.getSeq pkt.getData)
    { s with recvStatics := s.recvStatics.update pkt.dataLen pkt.localMs }
  rw [onHandleRtp, generateJitter]
  split_ifs
  · refine ⟨htake.1, ?_⟩
    show (takeSeq _ _).recvStatics.count = _
    rw [htake.2, count_update]
  · refine ⟨(noteNack_frame _ _).1.trans htake.1, ?_⟩
    show (noteNack _ _).recvStatics.count = _
    rw [(noteNack_frame _ _).2]
    show (takeSeq _ _).recvStatics.count = _
    rw [htake.2, count_update]

theorem onHandleRtxPacket_frame {pkt : Rtp.Packet} {s : RtpRecvStream} {handled : Handled}
    (h : s.onHandleRtxPacket pkt = .ok handled) :
    handled.stream.reported = s.reported ∧
      handled.stream.recvStatics.count = s.recvStatics.count + 1 := by
  have hcount : (s.recvStatics.update pkt.dataLen pkt.localMs).count = s.recvStatics.count + 1 :=
    count_update _ _ _
  rw [onHandleRtxPacket] at h
  rcases hdemux : pkt.rtxDemux s.ssrc s.payloadtype with (e | f) | demuxed
  · simp only [hdemux, Except.ok.injEq] at h
    subst h
    exact ⟨rfl, hcount⟩
  · simp only [hdemux, reduceCtorEq] at h
  · simp only [hdemux, Except.ok.injEq] at h
    subst h
    have hupdate := updateSeq_frame (Rtp.getSeq demuxed.getData)
      { s with recvStatics := s.recvStatics.update pkt.dataLen pkt.localMs }
    refine ⟨(noteNack_frame _ _).1.trans hupdate.1, ?_⟩
    show (noteNack _ _).recvStatics.count = _
    rw [(noteNack_frame _ _).2, hupdate.2, hcount]

/-- The stream that a timer works on. -/
theorem exists_onTimer_eq (nowMs : Int) (jitter dlsr : UInt32) (s : RtpRecvStream) :
    ∃ t : RtpRecvStream, t.reported = s.reported ∧ t.counts = s.counts ∧
      step (.timer nowMs jitter dlsr) s =
        if s.reports then t.getPacketLost.map Prod.snd else .ok t := by
  let counted := { s with staticsCount := s.staticsCount + 1 }
  let t := if counted.staticsCount % 12 = 0 then
      { counted with recvStatics := bytesPerSecond nowMs counted.recvStatics } else counted
  have hstep : step (.timer nowMs jitter dlsr) s =
      if s.reports then t.getPacketLost.map Prod.snd else .ok t := by
    rw [step, onTimer]
    cases s.reports with
    | false => rfl
    | true =>
      show ((t.sendRtcpRr jitter dlsr) >>= fun rr => Except.ok (some rr.1, rr.2)).map Prod.snd = _
      rw [sendRtcpRr]
      rcases t.getPacketLost with e | lost
      · rfl
      · rfl
  have hframe : t.reported = s.reported ∧ t.counts = s.counts := by
    simp only [t]
    split_ifs <;> exact ⟨rfl, rfl⟩
  exact ⟨t, hframe.1, hframe.2, hstep⟩

theorem count_of_counts {s t : RtpRecvStream} (h : t.counts = s.counts) :
    t.recvStatics.count = s.recvStatics.count :=
  Int.ofNat_inj.mp (congrArg Prod.snd h)

/-- The counters of the stream are those of the last report, and a stream that has reported
no packets yet has stored 0. -/
structure Follows (last : Option Counts) (s : RtpRecvStream) : Prop where
  same : ∀ c, last = some c → (s.expectRecv, s.lastRecv) = c
  zero : s.lastRecv ≤ 0 → s.fracLost = 0
  below : s.lastRecv ≤ s.recvStatics.count

theorem Follows.of_frame {last : Option Counts} {s s' : RtpRecvStream} (h : Follows last s)
    (hreported : s'.reported = s.reported) (hcount : s.recvStatics.count ≤ s'.recvStatics.count) :
    Follows last s' := by
  simp only [reported, Prod.mk.injEq] at hreported
  obtain ⟨⟨hexpect, hlast⟩, hfrac⟩ := hreported
  have hbelow := h.below
  refine ⟨?_, ?_, by omega⟩
  · rw [hexpect, hlast]
    exact h.same
  · rw [hlast, hfrac]
    exact h.zero

theorem Follows.report {last : Option Counts} {s s' : RtpRecvStream} {lost : Int}
    (h : Follows last s) (hs' : s.getPacketLost = .ok (lost, s')) : Follows (some s.counts) s' := by
  obtain ⟨hcounts, hstatics, hfrac⟩ := getPacketLost_ok hs'
  have hlast : s'.lastRecv = s.recvStatics.count := congrArg Prod.snd hcounts
  have hbelow := h.below
  refine ⟨?_, ?_, ?_⟩
  · rintro c hc
    cases hc
    exact hcounts
  · intro hnone
    rw [hfrac (by omega)]
    exact h.zero (by omega)
  · rw [hlast, hstatics]

/-- **Step.**  The counters follow the reports. -/
theorem follows_step {a : Action} {last last' : Option Counts} {s s' : RtpRecvStream}
    (h : Follows last s) (hstep : Run.withGhost note step a (last, s) = .ok (last', s')) :
    Follows last' s' := by
  obtain ⟨hstep, hnote⟩ := Run.withGhost_ok.mp hstep
  replace hstep : step a s = .ok s' := hstep
  cases a with
  | rtp nowMs pkt =>
    have hs' : (s.onHandleRtp nowMs pkt).stream = s' := by simpa [step] using hstep
    have hframe := onHandleRtp_frame nowMs pkt s
    rw [hs'] at hframe
    rw [show last' = last from hnote]
    exact h.of_frame hframe.1 (by omega)
  | rtx pkt =>
    obtain ⟨handled, hhandled, rfl⟩ := Run.exists_of_map_ok hstep
    have hframe := onHandleRtxPacket_frame hhandled
    rw [show last' = last from hnote]
    exact h.of_frame hframe.1 (by omega)
  | sr nowMs srPkt =>
    cases hstep
    rw [show last' = last from hnote]
    exact h.of_frame rfl (Nat.le_refl _)
  | timer nowMs jitter dlsr =>
    obtain ⟨t, hreported, hcounts, ht⟩ := exists_onTimer_eq nowMs jitter dlsr s
    have hcount := count_of_counts hcounts
    have hfollows : Follows last t := h.of_frame hreported (by omega)
    have hlast : last' = if s.reports then some s.counts else last := hnote
    rw [ht] at hstep
    split_ifs at hstep hlast with hreports
    · obtain ⟨⟨lost, t'⟩, hlost, rfl⟩ := Run.exists_of_map_ok hstep
      rw [hlast, ← hcounts]
      exact hfollows.report hlost
    · cases hstep
      rw [hlast]
      exact hfollows

/-- A report is faithful exactly when it is representable. -/
theorem reportsLoss_iff {a : Action} {last : Option Counts} {s : RtpRecvStream}
    (h : Follows last s) : ReportsLoss a (last, s) ↔ ReportRepresentable a (last, s) := by
  cases a with
  | timer nowMs jitter dlsr =>
    rcases last with _ | last
    · exact Iff.rfl
    obtain ⟨t, hreported, hcounts, ht⟩ := exists_onTimer_eq nowMs jitter dlsr s
    refine forall_congr' fun hreports => ?_
    have hcount := count_of_counts hcounts
    have hfollows : Follows (some last) t := h.of_frame hreported (by omega)
    have hsame := hfollows.same last rfl
    have hbefore : t.lastRecv = last.2 := congrArg Prod.snd hsame
    have hexpected : t.counts.1 - t.expectRecv = s.counts.1 - last.1 := by
      rw [hcounts, ← hsame]
    have hreceived : t.counts.2 - t.lastRecv = s.counts.2 - last.2 := by
      rw [hcounts, hbefore]
    have hiff := getPacketLost_faithful_iff hfollows.zero hexpected hreceived
    rw [hbefore] at hiff
    rw [ht, if_pos hreports, ← hiff]
    exact Run.exists_map_ok_iff
  | rtp nowMs pkt => exact Iff.rfl
  | rtx pkt => exact Iff.rfl
  | sr nowMs srPkt => exact Iff.rfl

/-! ## Runs -/

theorem follows_new (mediaType : String) (ssrc : UInt32) (payloadtype : UInt8) (clockRate : Int) :
    Follows none (new mediaType ssrc payloadtype clockRate) :=
  ⟨fun _ h => absurd h (by simp), fun _ => rfl, Int.le_refl 0⟩

/-- **Fraction lost.**  Whatever arrives and whenever the timer comes, every report behind
the first one stores a faithful fraction, along a run in which every one is representable,
and along no other. -/
theorem fraction_lost_iff (mediaType : String) (ssrc : UInt32) (payloadtype : UInt8)
    (clockRate : Int) (as : List Action) :
    Run.Along (Run.withGhost note step) ReportsLoss as
        (none, new mediaType ssrc payloadtype clockRate) ↔
      Run.Along (Run.withGhost note step) ReportRepresentable as
        (none, new mediaType ssrc payloadtype clockRate) := by
  have hstep : ∀ a (s s' : Option Counts × RtpRecvStream), Follows s.1 s.2 →
      Run.withGhost note step a s = .ok s' → Follows s'.1 s'.2 := fun _ _ _ h => follows_step h
  apply Run.along_iff_along hstep
  · intro a s h
    exact reportsLoss_iff h
  · exact follows_new mediaType ssrc payloadtype clockRate

/-- An audio packet, a report, and another packet behind 599 that are lost. -/
def nearTotal : List Action :=
  [.rtp 0 (packetWith 0), .timer 0 0 0, .timer 0 0 0, .timer 0 0 0, .timer 0 0 0,
    .rtp 0 (packetWith 600), .timer 0 0 0, .timer 0 0 0, .timer 0 0 0]

/-- The quotient rounds to 256, which no byte holds. -/
theorem not_reports_loss_near_total :
    ∃ last s, Run.run (Run.withGhost note step) nearTotal (none, new "audio" 1 111 48000) =
        .ok (some last, s) ∧
      s.counts.1 - last.1 = 600 ∧ s.counts.2 - last.2 = 1 ∧
      ¬ ReportsLoss (.timer 0 0 0) (some last, s) := by
  have heval : (Run.run (Run.withGhost note step) nearTotal
      (none, new "audio" 1 111 48000)).toOption.map (fun s => (s.1.map fun last =>
        (s.2.counts.1 - last.1, s.2.counts.2 - last.2), s.2.reports,
        Run.fault (step (.timer 0 0 0) s.2))) = some (some (600, 1), true, some .overflow) := by
    decide +kernel
  obtain ⟨⟨last, s⟩, hrun, hvalues⟩ := Run.exists_of_map_toOption heval
  simp only [Prod.mk.injEq, Option.map_eq_some_iff] at hvalues
  obtain ⟨⟨last, rfl, hexpected, hreceived⟩, hreports, hfault⟩ := hvalues
  refine ⟨last, s, hrun, hexpected, hreceived, fun h => ?_⟩
  obtain ⟨s', hs', -⟩ := h hreports
  rw [hs'] at hfault
  cases hfault

end RtpRecvStream

end MediaServer
