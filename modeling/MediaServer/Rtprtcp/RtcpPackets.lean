import Mathlib.Tactic.SplitIfs
import MediaServer.Lib.Run
import MediaServer.Rtprtcp.RtcpFbNack

/-!
# The RTCP packets that the server sends

`net/rtprtcp/rtcp_sr`, `rtcp_rr`, `rtcp_pspli` and `rtcpfb_nack`: sender reports,
receiver reports, requests for a key frame and requests for lost packets.  Every packet
starts with the same four bytes, the last two of which are its length in words less one.

The four classes calculate this field in four ways.  `rtcp_rr_packet::get_data` turns the
number of words around as a number of 32 bits and subtracts afterwards, so that the 16
bits that are stored are all ones (`itemTotal_rr`).  The fields of the other packets
say what they are for (`itemTotal_eq_length`).

The machine stores numbers with the lowest byte first.
-/

namespace MediaServer

/-! ## Numbers in memory -/

/-- `htons`: the bytes of a number the other way round. -/
def htons (v : UInt16) : UInt16 := (v <<< 8) ||| (v >>> 8)

/-- `htonl`. -/
def htonl (v : UInt32) : UInt32 :=
  (v <<< 24) ||| ((v <<< 8) &&& (0x00ff0000 : UInt32)) ||| ((v >>> 8) &&& (0x0000ff00 : UInt32)) |||
    (v >>> 24)

/-- A number of 16 bits as it stands in memory. -/
def storeUint16 (v : UInt16) : Bytes := [v.toUInt8, (v >>> 8).toUInt8]

/-- What is stored as it is reads as the number that is turned around. -/
theorem read2bytes_storeUint16 (v : UInt16) (rest : Bytes) :
    read2bytes (storeUint16 v ++ rest) = htons v := by
  have hv := v.toNat_lt
  have hor : v.toNat * 256 % 65536 ||| v.toNat / 256 = v.toNat % 256 * 256 + v.toNat / 256 := by
    have hlow : v.toNat * 256 % 65536 = (v.toNat % 256) <<< 8 := by
      rw [Nat.shiftLeft_eq]
      omega
    rw [hlow, ← Nat.shiftLeft_add_eq_or_of_lt (show v.toNat / 256 < 2 ^ 8 by omega),
      Nat.shiftLeft_eq]
  have hhtons : (htons v).toNat = v.toNat * 256 % 65536 ||| v.toNat / 256 := by
    simp only [htons, UInt16.toNat_or, UInt16.toNat_shiftRight, UInt16.toNat_shiftLeft,
      UInt16.reduceToNat, Nat.shiftRight_eq_div_pow, Nat.shiftLeft_eq]
  have hhigh : v.toNat / 256 < 256 := by omega
  rw [← UInt16.toNat_inj, hhtons, hor]
  simp only [storeUint16, read2bytes, List.cons_append, List.nil_append, List.take_succ_cons,
    List.take_zero, BigEndian.value, List.length_cons, List.length_nil, UInt16.toNat_ofNat',
    UInt16.toNat_toUInt8, UInt16.toNat_shiftRight, UInt16.reduceToNat,
    Nat.shiftRight_eq_div_pow, Nat.reduceMod, Nat.reducePow, Nat.reduceAdd, Nat.add_zero,
    Nat.mul_one, Nat.mod_eq_of_lt hhigh]
  omega

/-! ## The header -/

/-- The type of a sender report. -/
def RTCP_SR : UInt8 := 200

/-- The type of a receiver report. -/
def RTCP_RR : UInt8 := 201

/-- The type of transport feedback. -/
def RTCP_RTPFB : UInt8 := 205

/-- The type of feedback about the payload. -/
def RTCP_PSFB : UInt8 := 206

/-- The format of a NACK. -/
def FB_RTP_NACK : UInt8 := 1

/-- The format of a picture loss indication. -/
def FB_PS_PLI : UInt8 := 1

/-- `rtcp_common_header` and `rtcp_fb_common_header`, with version 2 and no padding.  The
field `length` is what the structure holds. -/
def rtcpCommonHeader (count packetType : UInt8) (length : UInt16) : Bytes :=
  [((2 : UInt8) <<< 6) ||| count, packetType] ++ storeUint16 length

/-- `sizeof(rtcp_common_header)`. -/
def RTCP_HEADER_LEN : Nat := 4

/-- `get_rtcp_length`: the product is cut to 16 bits. -/
def getRtcpLength (header : Bytes) : UInt16 := read2bytes (header.drop 2) * 4

theorem getRtcpLength_commonHeader (count packetType : UInt8) (length : UInt16) (rest : Bytes) :
    getRtcpLength (rtcpCommonHeader count packetType length ++ rest) = htons length * 4 := by
  rw [getRtcpLength, rtcpCommonHeader, List.append_assoc]
  exact congrArg (· * 4) (read2bytes_storeUint16 length rest)

/-- The bytes that a walk takes for the packet at `header`. -/
def itemTotal (header : Bytes) : Nat := RTCP_HEADER_LEN + (getRtcpLength header).toNat

/-! ## Reports -/

/-- `rtcp_sr_packet`. -/
structure RtcpSrPacket where
  ssrc : UInt32
  ntpSec : UInt32
  ntpFrac : UInt32
  rtpTimestamp : UInt32
  pktCount : UInt32
  bytesCount : UInt32
  deriving DecidableEq, Repr

/-- `sizeof(rtcp_sr_header)`. -/
def SR_HEADER_LEN : Nat := 24

/-- `get_data`. -/
def RtcpSrPacket.getData (p : RtcpSrPacket) : Bytes :=
  rtcpCommonHeader 0 RTCP_SR (htons (UInt16.ofNat (SR_HEADER_LEN / 4))) ++
    write4bytes p.ssrc ++ write4bytes p.ntpSec ++ write4bytes p.ntpFrac ++
    write4bytes p.rtpTimestamp ++ write4bytes p.pktCount ++ write4bytes p.bytesCount

/-- `rtcp_rr_packet`. -/
structure RtcpRrPacket where
  reporterSsrc : UInt32
  reporteeSsrc : UInt32
  fraclost : UInt8
  cumulativeLost : UInt32
  highestSeq : UInt32
  jitter : UInt32
  lsr : UInt32
  dlsr : UInt32
  deriving DecidableEq, Repr

/-- `sizeof(rtcp_rr_header)`. -/
def RR_HEADER_LEN : Nat := 28

/-- `get_data`.  One is subtracted from the number that is turned around already. -/
def RtcpRrPacket.getData (p : RtcpRrPacket) : Bytes :=
  let dataLen := RTCP_HEADER_LEN + RR_HEADER_LEN
  rtcpCommonHeader 0 RTCP_RR (htonl (UInt32.ofNat (dataLen / 4)) - 1).toUInt16 ++
    write4bytes p.reporterSsrc ++ write4bytes p.reporteeSsrc ++ [p.fraclost] ++
    write3bytes p.cumulativeLost ++ write4bytes p.highestSeq ++ write4bytes p.jitter ++
    write4bytes p.lsr ++ write4bytes p.dlsr

/-! ## Feedback -/

/-- `rtcp_pspli`. -/
structure RtcpPspli where
  senderSsrc : UInt32
  mediaSsrc : UInt32
  deriving DecidableEq, Repr

/-- `get_data`. -/
def RtcpPspli.getData (p : RtcpPspli) : Bytes :=
  rtcpCommonHeader FB_PS_PLI RTCP_PSFB (htons 2) ++ write4bytes p.senderSsrc ++
    write4bytes p.mediaSsrc

namespace RtcpFbNack

/-! `insert_block` may shift by an amount that a number does not have.  What a machine
makes of such a shift is `shl` here, so that the packets are those that really go out;
`insertSeqListWith_of_insertSeqList` says that they include the packets of defined runs. -/

variable (shl : Int → UInt16)

/-- The bits for the shift amounts of a block. -/
def bitmapWith (amounts : List Int) : UInt16 :=
  amounts.foldl (fun bitmap amount => bitmap ||| shl amount) 0

/-- `insert_block`. -/
def insertBlockWith (reportSeqs : List UInt16) (p : RtcpFbNack) : Except Fault RtcpFbNack :=
  match reportSeqs with
  | [] => .error .outOfBounds
  | packetId :: _ =>
    if p.data.length + BLOCK_LEN > PACKET_MAX then .error .outOfBounds
    else
      .ok { data := setLength (p.data ++ write2bytes packetId ++
              write2bytes (bitmapWith shl (shiftAmounts reportSeqs)))
            nackBlocks := p.nackBlocks ++ [p.data.length] }

/-- `insert_seq_list`. -/
def insertSeqListWith (seqVec : List UInt16) (p : RtcpFbNack) : Except Fault RtcpFbNack :=
  (reports [] seqVec).foldlM (fun p reportSeqs => p.insertBlockWith shl reportSeqs) p

variable {shl}

theorem reports_ne_nil {reportSeqs seqVec : List UInt16} (h : seqVec ≠ []) :
    reports reportSeqs seqVec ≠ [] := by
  induction seqVec generalizing reportSeqs with
  | nil => exact absurd rfl h
  | cons lostSeq rest ih =>
    rw [reports]
    split_ifs with hfar
    · simp
    · rcases rest with _ | ⟨next, rest⟩
      · simp [reports]
      · exact ih (by simp)

/-- A bitmap that is defined does not depend on the machine. -/
theorem bitmapWith_of_bitmapOf (hshl : ∀ amount v, shiftOne amount = .ok v → shl amount = v)
    {amounts : List Int} {bitmap : UInt16} (h : bitmapOf amounts = .ok bitmap) :
    bitmapWith shl amounts = bitmap := by
  have hloop : ∀ (amounts : List Int) (start bitmap : UInt16),
      amounts.foldlM (fun bitmap amount => do return bitmap ||| (← shiftOne amount)) start =
        .ok bitmap →
      amounts.foldl (fun bitmap amount => bitmap ||| shl amount) start = bitmap := by
    intro amounts
    induction amounts with
    | nil =>
      intro start bitmap h
      cases h
      rfl
    | cons amount rest ih =>
      intro start bitmap h
      rw [List.foldlM_cons] at h
      rcases hone : shiftOne amount with f | v
      · rw [hone] at h
        cases h
      · rw [hone] at h
        rw [List.foldl_cons, hshl amount v hone]
        exact ih _ _ h
  exact hloop amounts 0 bitmap h

/-- A packet that is filled without an undefined shift is one of the packets that go
out. -/
theorem insertSeqListWith_of_insertSeqList
    (hshl : ∀ amount v, shiftOne amount = .ok v → shl amount = v) {seqVec : List UInt16}
    {p q : RtcpFbNack} (h : p.insertSeqList seqVec = .ok q) :
    p.insertSeqListWith shl seqVec = .ok q := by
  have hblock : ∀ (r : List UInt16) (p q : RtcpFbNack),
      p.insertBlock r = .ok q → p.insertBlockWith shl r = .ok q := by
    intro r p q h
    rcases r with _ | ⟨packetId, rest⟩
    · cases h
    · simp only [insertBlock] at h
      obtain ⟨bitmap, hbitmap, h⟩ := Run.exists_of_bind_ok h
      rw [insertBlockWith, bitmapWith_of_bitmapOf hshl hbitmap]
      split_ifs at h ⊢ with hroom
      · cases h
        rfl
  have hfold : ∀ (rs : List (List UInt16)) (p q : RtcpFbNack),
      rs.foldlM (fun p r => p.insertBlock r) p = .ok q →
      rs.foldlM (fun p r => p.insertBlockWith shl r) p = .ok q := by
    intro rs
    induction rs with
    | nil =>
      intro p q h
      exact h
    | cons r rest ih =>
      intro p q h
      rw [List.foldlM_cons] at h ⊢
      obtain ⟨p', hfirst, hrest⟩ := Run.exists_of_bind_ok h
      rw [hblock r p p' hfirst, Run.ok_bind]
      exact ih p' q hrest
  exact hfold _ _ _ h

/-- What every call of `insert_block` leaves behind. -/
structure Filled (p : RtcpFbNack) : Prop where
  front : p.data.take 2 = [0x81, RTCP_RTPFB]
  field : read2bytes (p.data.drop 2) = UInt16.ofNat (p.data.length / 4 - 1)
  words : p.data.length % 4 = 0
  long : HEADER_LEN < p.data.length
  fits : p.data.length ≤ PACKET_MAX

theorem setLength_length {data : Bytes} (h : 4 ≤ data.length) :
    (setLength data).length = data.length := by
  simp only [setLength, List.length_append, List.length_take, write2bytes_length,
    List.length_drop]
  omega

theorem filled_setLength {data : Bytes} (hfront : data.take 2 = [0x81, RTCP_RTPFB])
    (hwords : data.length % 4 = 0) (hlong : HEADER_LEN < data.length)
    (hfits : data.length ≤ PACKET_MAX) (blocks : List Nat) :
    Filled { data := setLength data, nackBlocks := blocks } := by
  have hlen : (setLength data).length = data.length :=
    setLength_length (by unfold HEADER_LEN at hlong; omega)
  refine ⟨?_, ?_, ?_, ?_, ?_⟩
  · simp only [setLength, hfront]
    rfl
  · rw [hlen]
    simp only [setLength, hfront, List.append_assoc]
    exact read2bytes_write2bytes _ _
  · rw [hlen]
    exact hwords
  · rw [hlen]
    exact hlong
  · rw [hlen]
    exact hfits

/-- A block is appended to a packet without blocks or to a filled one. -/
theorem filled_insertBlockWith {p q : RtcpFbNack} {reportSeqs : List UInt16}
    (hfront : p.data.take 2 = [0x81, RTCP_RTPFB]) (hwords : p.data.length % 4 = 0)
    (hlong : HEADER_LEN ≤ p.data.length) (h : p.insertBlockWith shl reportSeqs = .ok q) :
    q.Filled := by
  rcases reportSeqs with _ | ⟨packetId, rest⟩
  · cases h
  · rw [insertBlockWith] at h
    split_ifs at h with hroom
    cases h
    unfold HEADER_LEN at hlong
    unfold BLOCK_LEN at hroom
    have hlen : (p.data ++ write2bytes packetId ++
        write2bytes (bitmapWith shl (shiftAmounts (packetId :: rest)))).length =
        p.data.length + 4 := by
      simp
    refine filled_setLength ?_ ?_ ?_ ?_ _
    · rw [List.append_assoc, List.take_append_of_le_length (by omega), hfront]
    · omega
    · unfold HEADER_LEN
      omega
    · omega

/-- A list of lost packets that is not empty fills the packet. -/
theorem filled_of_insertSeqListWith {senderSsrc mediaSsrc : UInt32} {seqVec : List UInt16}
    {q : RtcpFbNack} (hne : seqVec ≠ [])
    (h : (new senderSsrc mediaSsrc).insertSeqListWith shl seqVec = .ok q) : q.Filled := by
  have hfold : ∀ (rs : List (List UInt16)) (p q : RtcpFbNack), p.Filled →
      rs.foldlM (fun p r => p.insertBlockWith shl r) p = .ok q → q.Filled := by
    intro rs
    induction rs with
    | nil =>
      intro p q hp h
      cases h
      exact hp
    | cons r rest ih =>
      intro p q hp h
      rw [List.foldlM_cons] at h
      obtain ⟨p', hfirst, hrest⟩ := Run.exists_of_bind_ok h
      exact ih p' q (filled_insertBlockWith hp.front hp.words (Nat.le_of_lt hp.long) hfirst) hrest
  rw [insertSeqListWith] at h
  rcases hr : reports [] seqVec with _ | ⟨r, rest⟩
  · exact absurd hr (reports_ne_nil hne)
  · rw [hr, List.foldlM_cons] at h
    obtain ⟨p', hfirst, hrest⟩ := Run.exists_of_bind_ok h
    refine hfold rest p' q (filled_insertBlockWith ?_ ?_ ?_ hfirst) hrest
    · rfl
    · simp [new]
    · simp [new, HEADER_LEN]

end RtcpFbNack

/-- A request for lost packets that has been filled. -/
structure SentNack where
  shl : Int → UInt16
  senderSsrc : UInt32
  mediaSsrc : UInt32
  seqVec : List UInt16
  packet : RtcpFbNack
  nonempty : seqVec ≠ []
  made : (RtcpFbNack.new senderSsrc mediaSsrc).insertSeqListWith shl seqVec = .ok packet

/-- The packets that the server sends. -/
inductive RtcpPacket where
  | sr (p : RtcpSrPacket)
  | rr (p : RtcpRrPacket)
  | nack (p : SentNack)
  | pspli (p : RtcpPspli)

namespace RtcpPacket

/-- The bytes that are sent. -/
def data : RtcpPacket → Bytes
  | sr p => p.getData
  | rr p => p.getData
  | nack p => p.packet.data
  | pspli p => p.getData

/-- The packet type in the header. -/
def packetType : RtcpPacket → UInt8
  | sr _ => RTCP_SR
  | rr _ => RTCP_RR
  | nack _ => RTCP_RTPFB
  | pspli _ => RTCP_PSFB

/-- The packet is a receiver report. -/
def IsRr : RtcpPacket → Prop
  | rr _ => True
  | _ => False

/-- The length field of a receiver report does not say its length. -/
theorem itemTotal_rr (p : RtcpRrPacket) (rest : Bytes) :
    itemTotal (p.getData ++ rest) = 65536 := by
  simp only [itemTotal, RtcpRrPacket.getData, List.append_assoc, getRtcpLength_commonHeader]
  decide

/-- The length field of every other packet does. -/
theorem itemTotal_eq_length {p : RtcpPacket} (h : ¬ p.IsRr) (rest : Bytes) :
    itemTotal (p.data ++ rest) = p.data.length := by
  cases p with
  | sr p =>
    have hlen : p.getData.length = 28 := by
      simp [RtcpSrPacket.getData, rtcpCommonHeader, storeUint16]
    rw [data, hlen]
    simp only [itemTotal, RtcpSrPacket.getData, List.append_assoc, getRtcpLength_commonHeader]
    decide
  | rr p => exact absurd trivial h
  | nack p =>
    have hp := RtcpFbNack.filled_of_insertSeqListWith p.nonempty p.made
    have hlong := hp.long
    have hfits := hp.fits
    have hwords := hp.words
    unfold RtcpFbNack.HEADER_LEN at hlong
    unfold RtcpFbNack.PACKET_MAX at hfits
    have hfield : read2bytes ((p.packet.data ++ rest).drop 2) =
        UInt16.ofNat (p.packet.data.length / 4 - 1) := by
      rw [List.drop_append_of_le_length (by omega), ← hp.field, read2bytes, read2bytes,
        List.take_append_of_le_length (by rw [List.length_drop]; omega)]
    rw [data, itemTotal, getRtcpLength, hfield, UInt16.toNat_mul, UInt16.toNat_ofNat',
      RTCP_HEADER_LEN]
    simp only [UInt16.reduceToNat]
    omega
  | pspli p =>
    have hlen : p.getData.length = 12 := by
      simp [RtcpPspli.getData, rtcpCommonHeader, storeUint16]
    rw [data, hlen]
    simp only [itemTotal, RtcpPspli.getData, List.append_assoc, getRtcpLength_commonHeader]
    decide

/-- A packet has a header, in which its type stands. -/
theorem header_data (p : RtcpPacket) :
    RTCP_HEADER_LEN ≤ p.data.length ∧ p.data.getD 1 0 = p.packetType := by
  cases p with
  | sr p => exact ⟨by simp [data, RtcpSrPacket.getData, RTCP_HEADER_LEN], rfl⟩
  | rr p => exact ⟨by simp [data, RtcpRrPacket.getData, RTCP_HEADER_LEN], rfl⟩
  | pspli p => exact ⟨by simp [data, RtcpPspli.getData, RTCP_HEADER_LEN], rfl⟩
  | nack p =>
    have hp := RtcpFbNack.filled_of_insertSeqListWith p.nonempty p.made
    have hlong := hp.long
    unfold RtcpFbNack.HEADER_LEN at hlong
    refine ⟨by unfold RTCP_HEADER_LEN; simp only [data]; omega, ?_⟩
    have htype : (p.packet.data.take 2).getD 1 0 = RTCP_RTPFB := by
      rw [hp.front]
      rfl
    rw [data, packetType, ← htype]
    simp [List.getD]

end RtcpPacket

end MediaServer
