import MediaServer.Webrtc.RtpRecvStream

/-!
# Unwrapped sequence numbers

Behind the number of 16 bits in a packet stands an unwrapped number, and `residue` takes it
to the number in the packet.  Packets arrive around the highest of these numbers, late or
early or twice, and in between there are outliers, which `update_seq` discards.

* `Tracks` says what the fields of a stream are after any arrivals, and `tracks_receive`
  proves it.
* `extended_highest_seq`: `cycles_` and `max_seq_` make the highest unwrapped number.
* `expected_packets_iff`: `get_expected_packets` subtracts `bad_seq_`, where the first
  number is meant.  It counts the packets only when the last outlier stands right before
  the first packet.
-/

namespace MediaServer

namespace RtpRecvStream

open NackGenerator (residue toNat_residue residue_eq_iff highest start_le_highest)

/-- The packets behind the first one. -/
inductive Arrival where
  /-- A packet with an unwrapped number around the highest one. -/
  | within (n : Int) (nowMs : Int) (pkt : Rtp.Packet)
  | outlier (nowMs : Int) (pkt : Rtp.Packet)

namespace Arrival

/-- The number of the packet. -/
def seq : Arrival → UInt16
  | .within _ _ pkt => Rtp.getSeq pkt.getData
  | .outlier _ pkt => Rtp.getSeq pkt.getData

/-- The handler that gets the packet. -/
def handle : Arrival → RtpRecvStream → RtpRecvStream
  | .within _ nowMs pkt, s => (s.onHandleRtp nowMs pkt).stream
  | .outlier nowMs pkt, s => (s.onHandleRtp nowMs pkt).stream

end Arrival

/-- The unwrapped numbers of the packets that are no outliers. -/
def numbers (arrivals : List Arrival) : List Int :=
  arrivals.filterMap fun
    | .within n _ _ => some n
    | .outlier _ _ => none

/-- The number of the last outlier. -/
def lastOutlier (arrivals : List Arrival) : Option UInt16 :=
  (arrivals.filterMap fun
    | .within _ _ _ => none
    | .outlier _ pkt => some (Rtp.getSeq pkt.getData)).getLast?

/-- The numbers around the highest one that count as the same stream. -/
def Window (top n : Int) : Prop := top - 99 ≤ n ∧ n ≤ top + 2999

/-- The arrival may follow the others: a packet in the window, or one outside of it that is
not the second of two outliers in a row. -/
def Fits (n₀ : Int) (before : List Arrival) : Arrival → Prop
  | .within n _ pkt => Rtp.getSeq pkt.getData = residue n ∧ Window (highest n₀ (numbers before)) n
  | .outlier _ pkt =>
    (∀ n, residue n = Rtp.getSeq pkt.getData → ¬ Window (highest n₀ (numbers before)) n) ∧
      lastOutlier before ≠ some (Rtp.getSeq pkt.getData - 1)

/-- The arrivals behind a packet with the number `n₀`. -/
inductive Admissible (n₀ : Int) : List Arrival → Prop
  | start : Admissible n₀ []
  | next {before : List Arrival} {a : Arrival} (hbefore : Admissible n₀ before)
    (hfits : Fits n₀ before a) : Admissible n₀ (before ++ [a])

/-- The stream after its first packet and the arrivals. -/
def receive (first : Int × Rtp.Packet) (arrivals : List Arrival) (s : RtpRecvStream) :
    RtpRecvStream :=
  arrivals.foldl (fun s a => a.handle s) (s.onHandleRtp first.1 first.2).stream

/-! ## Fields of a stream -/

/-- What `update_seq` reads and writes. -/
def seqs (s : RtpRecvStream) : Bool × UInt16 × UInt32 × UInt32 :=
  (s.firstPkt, s.maxSeq, s.badSeq, s.cycles)

theorem seqs_noteNack (seq : UInt16) (s : RtpRecvStream) : (s.noteNack seq).seqs = s.seqs := by
  rw [noteNack]
  split_ifs <;> rfl

theorem seqs_takeSeq {s t : RtpRecvStream} (h : s.seqs = t.seqs) (seq : UInt16) :
    (s.takeSeq seq).seqs = (t.takeSeq seq).seqs := by
  simp only [seqs, Prod.mk.injEq] at h
  obtain ⟨hfirst, hmax, hbad, hcycles⟩ := h
  simp only [takeSeq, updateSeq, initSeq, hfirst, hmax, hbad, hcycles]
  split_ifs <;> simp [seqs, hfirst, hmax, hbad, hcycles]

/-- Whatever becomes of the jitter, the packet has its number taken. -/
theorem seqs_onHandleRtp (nowMs : Int) (pkt : Rtp.Packet) (s : RtpRecvStream) :
    (s.onHandleRtp nowMs pkt).stream.seqs = (s.takeSeq (Rtp.getSeq pkt.getData)).seqs := by
  have hstatics : ({ s with recvStatics := s.recvStatics.update pkt.dataLen pkt.localMs } :
      RtpRecvStream).seqs = s.seqs := rfl
  rw [← seqs_takeSeq hstatics, onHandleRtp, generateJitter]
  split_ifs
  · rfl
  · exact seqs_noteNack _ _

/-! ## Arrivals -/

@[simp] theorem numbers_nil : numbers [] = [] := rfl

@[simp] theorem lastOutlier_nil : lastOutlier [] = none := rfl

theorem numbers_concat_within (before : List Arrival) (n nowMs : Int) (pkt : Rtp.Packet) :
    numbers (before ++ [.within n nowMs pkt]) = numbers before ++ [n] := by
  simp [numbers]

theorem numbers_concat_outlier (before : List Arrival) (nowMs : Int) (pkt : Rtp.Packet) :
    numbers (before ++ [.outlier nowMs pkt]) = numbers before := by
  simp [numbers]

theorem lastOutlier_concat_within (before : List Arrival) (n nowMs : Int) (pkt : Rtp.Packet) :
    lastOutlier (before ++ [.within n nowMs pkt]) = lastOutlier before := by
  simp [lastOutlier]

theorem lastOutlier_concat_outlier (before : List Arrival) (nowMs : Int) (pkt : Rtp.Packet) :
    lastOutlier (before ++ [.outlier nowMs pkt]) = some (Rtp.getSeq pkt.getData) := by
  simp [lastOutlier]

theorem receive_concat (first : Int × Rtp.Packet) (before : List Arrival) (a : Arrival)
    (s : RtpRecvStream) : receive first (before ++ [a]) s = a.handle (receive first before s) := by
  simp [receive]

/-- `bad_seq_`, behind the last outlier. -/
def badOf : Option UInt16 → UInt32
  | none => UInt32.ofNat (RTP_SEQ_MOD + 1)
  | some o => (o.toUInt32 + 1) &&& UInt32.ofNat (RTP_SEQ_MOD - 1)

theorem toNat_badOf_some (o : UInt16) : (badOf (some o)).toNat = (o + 1).toNat := by
  have hmask : (UInt32.ofNat (RTP_SEQ_MOD - 1)).toNat = 2 ^ 16 - 1 := rfl
  have ho := o.toNat_lt
  rw [badOf, UInt32.toNat_and, hmask, Nat.and_two_pow_sub_one_eq_mod, UInt32.toNat_add,
    UInt16.toNat_toUInt32, UInt16.toNat_add]
  simp only [UInt32.reduceToNat, UInt16.reduceToNat]
  omega

theorem eq_badOf_iff {o seq : UInt16} : seq.toUInt32 = badOf (some o) ↔ o = seq - 1 := by
  rw [← UInt32.toNat_inj, toNat_badOf_some, UInt16.toNat_toUInt32, UInt16.toNat_inj]
  constructor
  · rintro rfl
    rw [UInt16.add_sub_cancel]
  · rintro rfl
    rw [UInt16.sub_add_cancel]

theorem ne_badOf_none (seq : UInt16) : seq.toUInt32 ≠ badOf none := by
  intro h
  have hseq := seq.toNat_lt
  rw [← UInt32.toNat_inj, UInt16.toNat_toUInt32] at h
  have hbad : (badOf none).toNat = 65537 := rfl
  omega

/-- What the fields are after the arrivals. -/
structure Tracks (n₀ : Int) (arrivals : List Arrival) (s : RtpRecvStream) : Prop where
  started : s.firstPkt = false
  maxSeq : s.maxSeq = residue (highest n₀ (numbers arrivals))
  badSeq : s.badSeq = badOf (lastOutlier arrivals)
  wholeCycles : s.cycles.toNat % 65536 = 0
  total : ((s.cycles.toNat : Int) + s.maxSeq.toNat) % 4294967296 =
    (n₀ % 65536 + (highest n₀ (numbers arrivals) - n₀)) % 4294967296

theorem Tracks.of_seqs {n₀ : Int} {arrivals : List Arrival} {s t : RtpRecvStream}
    (h : Tracks n₀ arrivals t) (hseqs : s.seqs = t.seqs) : Tracks n₀ arrivals s := by
  simp only [seqs, Prod.mk.injEq] at hseqs
  obtain ⟨hfirst, hmax, hbad, hcycles⟩ := hseqs
  obtain ⟨h₁, h₂, h₃, h₄, h₅⟩ := h
  exact ⟨by rw [hfirst, h₁], by rw [hmax, h₂], by rw [hbad, h₃], by rw [hcycles, h₄],
    by rw [hcycles, hmax, h₅]⟩

theorem toNat_sub_residue (n m : Int) :
    ((residue n - residue m).toNat : Int) = (n - m) % 65536 := by
  have hn := toNat_residue n
  have hm := toNat_residue m
  rw [UInt16.toNat_sub]
  omega

theorem tracks_first {n₀ : Int} {seq : UInt16} {s : RtpRecvStream} (hseq : seq = residue n₀)
    (hfirst : s.firstPkt = true) : Tracks n₀ [] (s.takeSeq seq) := by
  rw [takeSeq, if_pos hfirst]
  have hn := toNat_residue n₀
  refine ⟨rfl, hseq, rfl, rfl, ?_⟩
  show ((0 : Nat) + (seq.toNat : Int)) % 4294967296 = (n₀ % 65536 + (n₀ - n₀)) % 4294967296
  rw [hseq]
  omega

/-- A late number: the difference is one right below 2^16. -/
theorem updateSeq_late {top n : Int} {s : RtpRecvStream} (hmax : s.maxSeq = residue top)
    (hlow : top - 99 ≤ n) (hlate : n < top) : s.updateSeq (residue n) = s := by
  have hdelta := toNat_sub_residue n top
  have hbig : ¬ (residue n - residue top).toNat < MAX_DROPOUT := by
    rw [MAX_DROPOUT]
    omega
  have hbig' : ¬ (residue n - residue top).toNat ≤ RTP_SEQ_MOD - MAX_MISORDER := by
    rw [RTP_SEQ_MOD, MAX_MISORDER]
    omega
  rw [updateSeq, hmax, if_neg hbig, if_neg hbig']

/-- `cycles_` behind a number in order. -/
def cyclesAt (top n : Int) (cycles : UInt32) : UInt32 :=
  if residue n < residue top then cycles + UInt32.ofNat RTP_SEQ_MOD else cycles

theorem updateSeq_next {top n : Int} {s : RtpRecvStream} (hmax : s.maxSeq = residue top)
    (hnext : top ≤ n) (hhigh : n ≤ top + 2999) :
    s.updateSeq (residue n) =
      { s with cycles := cyclesAt top n s.cycles, maxSeq := residue n } := by
  have hdelta := toNat_sub_residue n top
  have hsmall : (residue n - residue top).toNat < MAX_DROPOUT := by
    rw [MAX_DROPOUT]
    omega
  rw [updateSeq, hmax, if_pos hsmall]
  rfl

/-- A wrap adds one cycle. -/
theorem toNat_cyclesAt {top n : Int} {cycles : UInt32} (hnext : top ≤ n) (hhigh : n ≤ top + 2999)
    (hwhole : cycles.toNat % 65536 = 0) :
    (cyclesAt top n cycles).toNat % 65536 = 0 ∧
      ((cyclesAt top n cycles).toNat + (residue n).toNat : Int) % 4294967296 =
        (cycles.toNat + (residue top).toNat + (n - top)) % 4294967296 := by
  have hn := toNat_residue n
  have htop := toNat_residue top
  have hcycles := cycles.toNat_lt
  have hmod : (UInt32.ofNat RTP_SEQ_MOD).toNat = 65536 := rfl
  rw [cyclesAt]
  split_ifs with hwrap
  · rw [UInt16.lt_iff_toNat_lt] at hwrap
    rw [UInt32.toNat_add, hmod]
    omega
  · rw [UInt16.lt_iff_toNat_lt] at hwrap
    omega

/-- **Step.**  A packet in the window moves the highest number up, or leaves it. -/
theorem Tracks.within {n₀ n nowMs : Int} {before : List Arrival} {pkt : Rtp.Packet}
    {s : RtpRecvStream} (h : Tracks n₀ before s)
    (hwindow : Window (highest n₀ (numbers before)) n) :
    Tracks n₀ (before ++ [.within n nowMs pkt]) (s.takeSeq (residue n)) := by
  obtain ⟨hstarted, hmax, hbad, hwhole, htotal⟩ := h
  have hhighest : highest n₀ (numbers (before ++ [.within n nowMs pkt])) =
      max (highest n₀ (numbers before)) n := by
    rw [numbers_concat_within, NackGenerator.highest_concat]
  have hlast := lastOutlier_concat_within before n nowMs pkt
  generalize highest n₀ (numbers before) = top at *
  obtain ⟨hlow, hhigh⟩ := hwindow
  have hnot : ¬ s.firstPkt = true := by simp [hstarted]
  rw [takeSeq, if_neg hnot]
  rcases Int.lt_or_le n top with hlate | hnext
  · rw [updateSeq_late hmax hlow hlate]
    refine ⟨hstarted, ?_, by rw [hlast, hbad], hwhole, ?_⟩
    · rw [hhighest, max_eq_left hlate.le, hmax]
    · rw [hhighest, max_eq_left hlate.le]
      exact htotal
  · obtain ⟨hcycles, hsum⟩ := toNat_cyclesAt hnext hhigh hwhole
    rw [updateSeq_next hmax hnext hhigh]
    rw [hmax] at htotal
    refine ⟨hstarted, ?_, by rw [hlast, ← hbad], hcycles, ?_⟩
    · rw [hhighest, max_eq_right hnext]
    · rw [hhighest, max_eq_right hnext]
      show ((cyclesAt top n s.cycles).toNat + (residue n).toNat : Int) % 4294967296 = _
      omega

theorem residue_toNat (seq : UInt16) : residue (seq.toNat : Int) = seq := by
  have hseq := seq.toNat_lt
  have hres := toNat_residue (seq.toNat : Int)
  rw [← UInt16.toNat_inj]
  omega

/-- A number outside of the window is neither in order nor late. -/
theorem sub_residue_of_outside {top : Int} {seq : UInt16}
    (houtside : ∀ n, residue n = seq → ¬ Window top n) :
    MAX_DROPOUT ≤ (seq - residue top).toNat ∧
      (seq - residue top).toNat ≤ RTP_SEQ_MOD - MAX_MISORDER := by
  have hdelta := toNat_sub_residue (seq.toNat : Int) top
  rw [residue_toNat] at hdelta
  have hlt := (seq - residue top).toNat_lt
  have hsame : ∀ n : Int, n % 65536 = (seq.toNat : Int) % 65536 → ¬ Window top n := by
    intro n hn
    apply houtside
    rw [← residue_toNat seq, residue_eq_iff]
    exact hn
  rw [MAX_DROPOUT, RTP_SEQ_MOD, MAX_MISORDER]
  constructor
  · by_contra hsmall
    refine hsame (top + (seq - residue top).toNat) (by omega) ⟨by omega, by omega⟩
  · by_contra hbig
    refine hsame (top + (seq - residue top).toNat - 65536) (by omega) ⟨by omega, by omega⟩

/-- **Step.**  An outlier moves `bad_seq_`. -/
theorem Tracks.outlier {n₀ nowMs : Int} {before : List Arrival} {pkt : Rtp.Packet}
    {s : RtpRecvStream} (h : Tracks n₀ before s) (hfits : Fits n₀ before (.outlier nowMs pkt)) :
    Tracks n₀ (before ++ [.outlier nowMs pkt]) (s.takeSeq (Rtp.getSeq pkt.getData)) := by
  obtain ⟨hstarted, hmax, hbad, hwhole, htotal⟩ := h
  obtain ⟨houtside, hrow⟩ := hfits
  obtain ⟨hlow, hhigh⟩ := sub_residue_of_outside houtside
  have hnot : ¬ s.firstPkt = true := by simp [hstarted]
  have hresync : ¬ (Rtp.getSeq pkt.getData).toUInt32 = s.badSeq := by
    rw [hbad]
    rcases hlast : lastOutlier before with _ | o
    · exact ne_badOf_none _
    · rw [eq_badOf_iff]
      rintro rfl
      exact hrow hlast
  rw [takeSeq, if_neg hnot, updateSeq, hmax, if_neg (Nat.not_lt.mpr hlow), if_pos hhigh,
    if_neg hresync]
  refine ⟨hstarted, ?_, ?_, hwhole, ?_⟩
  · rw [numbers_concat_outlier]
  · rw [lastOutlier_concat_outlier]
    rfl
  · rw [hmax] at htotal
    rw [numbers_concat_outlier]
    exact htotal

/-- **Run.**  The fields after any arrivals. -/
theorem tracks_receive {n₀ : Int} {first : Int × Rtp.Packet} {arrivals : List Arrival}
    {s : RtpRecvStream} (hfirst : Rtp.getSeq first.2.getData = residue n₀)
    (hfresh : s.firstPkt = true) (h : Admissible n₀ arrivals) :
    Tracks n₀ arrivals (receive first arrivals s) := by
  induction h with
  | start => exact (tracks_first hfirst hfresh).of_seqs (seqs_onHandleRtp _ _ _)
  | @next before a _ hfits ih =>
    rw [receive_concat]
    cases a with
    | within n nowMs pkt =>
      have hstep : Tracks n₀ (before ++ [.within n nowMs pkt])
          ((receive first before s).takeSeq (residue n)) := ih.within hfits.2
      rw [← hfits.1] at hstep
      exact hstep.of_seqs (seqs_onHandleRtp _ _ _)
    | outlier nowMs pkt => exact (ih.outlier hfits).of_seqs (seqs_onHandleRtp _ _ _)

/-! ## The highest number -/

/-- **Extended highest sequence number.**  However the packets arrive, `cycles_` and
`max_seq_` together make the highest unwrapped number, from the residue of the first one
on, as long as 32 bits hold it. -/
theorem extended_highest_seq {n₀ : Int} {first : Int × Rtp.Packet} {arrivals : List Arrival}
    {s : RtpRecvStream} (hfirst : Rtp.getSeq first.2.getData = residue n₀)
    (hfresh : s.firstPkt = true) (h : Admissible n₀ arrivals)
    (hfits : n₀ % 2 ^ 16 + (highest n₀ (numbers arrivals) - n₀) < 2 ^ 32) :
    ((receive first arrivals s).cycles.toNat + (receive first arrivals s).maxSeq.toNat : Int) =
      n₀ % 2 ^ 16 + (highest n₀ (numbers arrivals) - n₀) := by
  obtain ⟨-, -, -, hwhole, htotal⟩ := tracks_receive hfirst hfresh h
  have hcycles := (receive first arrivals s).cycles.toNat_lt
  have hmax := (receive first arrivals s).maxSeq.toNat_lt
  have hle := start_le_highest n₀ (numbers arrivals)
  omega

/-- A packet with a number and one byte of payload. -/
def packetWith (seq : UInt16) : Rtp.Packet :=
  { buffer := [0x80, 96] ++ write2bytes seq ++ [0, 0, 0, 0, 0, 0, 0, 1, 0xff]
    ext := none, payload := 12, payloadLen := 1, padLen := 0, dataLen := 13, localMs := 0
    onebyteExtMap := OrderedMap.empty, twobytesExtMap := OrderedMap.empty }

/-- A packet behind the wrap, one that comes late from before it. -/
theorem admissible_wrap :
    Admissible 65534 [.within 65537 0 (packetWith 1), .within 65535 0 (packetWith 65535)] := by
  have hnil : Admissible 65534 ([] : List Arrival) := .start
  have hone := hnil.next (a := .within 65537 0 (packetWith 1))
    ⟨by decide, by constructor <;> decide⟩
  exact hone.next (a := .within 65535 0 (packetWith 65535)) ⟨by decide, by constructor <;> decide⟩

theorem extended_highest_seq_wrap :
    ((receive (0, packetWith 65534) [.within 65537 0 (packetWith 1),
        .within 65535 0 (packetWith 65535)] (new "video" 1 96 90000)).cycles.toNat +
      (receive (0, packetWith 65534) [.within 65537 0 (packetWith 1),
        .within 65535 0 (packetWith 65535)] (new "video" 1 96 90000)).maxSeq.toNat : Int) =
      65534 % 2 ^ 16 + (highest 65534 [65537, 65535] - 65534) :=
  extended_highest_seq (by decide) rfl admissible_wrap (by decide)

/-! ## Expected packets -/

theorem getExpectedPackets_eq {n₀ : Int} {arrivals : List Arrival} {s : RtpRecvStream}
    (h : Tracks n₀ arrivals s) : s.getExpectedPackets =
      (n₀ % 65536 + (highest n₀ (numbers arrivals) - n₀) -
        (badOf (lastOutlier arrivals)).toNat + 1) % 4294967296 := by
  obtain ⟨-, -, hbad, -, htotal⟩ := h
  have hone : (1 : UInt32).toNat = 1 := rfl
  have hcycles := s.cycles.toNat_lt
  have hmax := s.maxSeq.toNat_lt
  have hbadlt := (badOf (lastOutlier arrivals)).toNat_lt
  rw [getExpectedPackets, hbad, UInt32.toNat_add, UInt32.toNat_sub, UInt32.toNat_add,
    UInt16.toNat_toUInt32, hone]
  omega

/-- The number behind an outlier is one of 16 bits, the value without outliers is none. -/
theorem toNat_badOf (last : Option UInt16) :
    (last = none ∧ (badOf last).toNat = 65537) ∨
      ∃ o, last = some o ∧ (badOf last).toNat = (o + 1).toNat := by
  rcases last with _ | o
  · exact Or.inl ⟨rfl, rfl⟩
  · exact Or.inr ⟨o, rfl, toNat_badOf_some o⟩

/-- The count is right when `bad_seq_` happens to be the first number. -/
theorem getExpectedPackets_eq_iff {n₀ : Int} {arrivals : List Arrival} {s : RtpRecvStream}
    (h : Tracks n₀ arrivals s) :
    s.getExpectedPackets = highest n₀ (numbers arrivals) - n₀ + 1 ↔
      (∃ o, lastOutlier arrivals = some o ∧ o + 1 = residue n₀) ∧
        highest n₀ (numbers arrivals) - n₀ + 1 < 2 ^ 32 := by
  have hle := start_le_highest n₀ (numbers arrivals)
  have hn := toNat_residue n₀
  rw [getExpectedPackets_eq h]
  rcases toNat_badOf (lastOutlier arrivals) with ⟨hnone, hbad⟩ | ⟨o, hlast, hbad⟩
  · rw [hnone] at hbad
    simp only [hnone, hbad, reduceCtorEq, false_and, exists_const, iff_false]
    omega
  · have ho := (o + 1).toNat_lt
    have hnext : (∃ x, some o = some x ∧ x + 1 = residue n₀) ↔
        (o + 1).toNat = (residue n₀).toNat := by
      simp only [Option.some.injEq, exists_eq_left', UInt16.toNat_inj]
    rw [hlast] at hbad
    rw [hlast, hbad, hnext]
    omega

/-- An outlier leaves the count when `bad_seq_` stays. -/
theorem getExpectedPackets_outlier_iff {n₀ nowMs : Int} {arrivals : List Arrival}
    {pkt : Rtp.Packet} {s s' : RtpRecvStream} (h : Tracks n₀ arrivals s)
    (h' : Tracks n₀ (arrivals ++ [.outlier nowMs pkt]) s') :
    s'.getExpectedPackets = s.getExpectedPackets ↔
      lastOutlier arrivals = some (Rtp.getSeq pkt.getData) := by
  have hle := start_le_highest n₀ (numbers arrivals)
  have hnew := toNat_badOf_some (Rtp.getSeq pkt.getData)
  have hlt := (Rtp.getSeq pkt.getData + 1).toNat_lt
  rw [getExpectedPackets_eq h, getExpectedPackets_eq h', numbers_concat_outlier,
    lastOutlier_concat_outlier, hnew]
  rcases toNat_badOf (lastOutlier arrivals) with ⟨hnone, hbad⟩ | ⟨o, hlast, hbad⟩
  · rw [hbad, hnone]
    simp only [reduceCtorEq, iff_false]
    omega
  · have ho := (o + 1).toNat_lt
    have hsame : some o = some (Rtp.getSeq pkt.getData) ↔
        (o + 1).toNat = (Rtp.getSeq pkt.getData + 1).toNat := by
      rw [Option.some.injEq, UInt16.toNat_inj, UInt16.add_left_inj]
    rw [hbad, hlast, hsame]
    omega

/-- **Expected packets.**  The count is the one of the packets from the first to the highest
number exactly when the last outlier stands right before the first packet, and 32 bits hold
the count.  An outlier leaves it unchanged exactly when it repeats the last one. -/
theorem expected_packets_iff {n₀ : Int} {first : Int × Rtp.Packet} {arrivals : List Arrival}
    {s : RtpRecvStream} (hfirst : Rtp.getSeq first.2.getData = residue n₀)
    (hfresh : s.firstPkt = true) (h : Admissible n₀ arrivals) :
    ((receive first arrivals s).getExpectedPackets = highest n₀ (numbers arrivals) - n₀ + 1 ↔
        (∃ o, lastOutlier arrivals = some o ∧ o + 1 = residue n₀) ∧
          highest n₀ (numbers arrivals) - n₀ + 1 < 2 ^ 32) ∧
      ∀ nowMs pkt, Fits n₀ arrivals (.outlier nowMs pkt) →
        ((receive first (arrivals ++ [.outlier nowMs pkt]) s).getExpectedPackets =
            (receive first arrivals s).getExpectedPackets ↔
          lastOutlier arrivals = some (Rtp.getSeq pkt.getData)) := by
  have htracks := tracks_receive hfirst hfresh h
  refine ⟨getExpectedPackets_eq_iff htracks, ?_⟩
  intro nowMs pkt hfits
  exact getExpectedPackets_outlier_iff htracks (tracks_receive hfirst hfresh (h.next hfits))

/-- A packet that has gone ahead, and one that comes too late from right before the first. -/
theorem admissible_late :
    Admissible 5 [.within 2000 0 (packetWith 2000), .outlier 0 (packetWith 4)] := by
  have hnil : Admissible 5 ([] : List Arrival) := .start
  have hone := hnil.next (a := .within 2000 0 (packetWith 2000))
    ⟨by decide, by constructor <;> decide⟩
  refine hone.next (a := .outlier 0 (packetWith 4)) ⟨?_, by decide⟩
  rintro n hn ⟨hlow, hhigh⟩
  have hseq : Rtp.getSeq (packetWith 4).getData = residue 4 := by decide
  have htop : highest 5 (numbers ([] ++ [.within 2000 0 (packetWith 2000)])) = 2000 := by decide
  rw [hseq, residue_eq_iff] at hn
  rw [htop] at hlow hhigh
  omega

theorem expected_packets_iff_late :
    (receive (0, packetWith 5) [.within 2000 0 (packetWith 2000), .outlier 0 (packetWith 4)]
        (new "video" 1 96 90000)).getExpectedPackets = highest 5 [2000] - 5 + 1 :=
  (expected_packets_iff (by decide) rfl admissible_late).1.mpr
    ⟨⟨4, by decide, by decide⟩, by decide⟩

/-- A single packet counts as 4294901765. -/
theorem not_expected_packets_one :
    Rtp.getSeq (packetWith 5).getData = residue 5 ∧ Admissible 5 [] ∧
      (receive (0, packetWith 5) [] (new "video" 1 96 90000)).getExpectedPackets = 4294901765 ∧
      highest 5 (numbers []) - 5 + 1 = 1 :=
  ⟨by decide, .start, by decide, by decide⟩

end RtpRecvStream

end MediaServer
