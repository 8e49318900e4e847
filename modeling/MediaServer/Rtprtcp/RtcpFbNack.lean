import Mathlib.Data.List.Sort
import MediaServer.Utils.DataBuffer

/-!
# NACK feedback packets

`net/rtprtcp/rtcpfb_nack`: the RTCP packet in which a receiver asks for lost
packets.  Behind a header of 12 bytes stand blocks of a sequence number and a
bitmap of the 16 numbers that follow it.

The source keeps the packet in an array of 1500 bytes and its blocks as
pointers into it.  Here `data` is the part of the array that has been written,
and a pointer is an offset in it.

`insert_seq_list` closes a block with the first number that is more than 16
away from the base, and puts this number into the block.  Its bit would be one
with a negative place, so `nack_round_trip_iff` says that a list comes back as it
was exactly when one block holds all of it.
-/

namespace MediaServer

/-- `rtcp_fb_nack`. -/
structure RtcpFbNack where
  data : Bytes
  nackBlocks : List Nat := []
  deriving DecidableEq, Repr

namespace RtcpFbNack

/-- The room for the bytes of a NACK. -/
def PACKET_MAX : Nat := 1500

/-- `sizeof(rtcp_fb_common_header) + sizeof(rtcp_fb_header)`. -/
def HEADER_LEN : Nat := 12

/-- `sizeof(rtcp_nack_block)`. -/
def BLOCK_LEN : Nat := 4

/-- The constructor.  The first byte is the version 2 and the format 1.  The
length field is `htons(3) - 1`, which a machine with little-endian numbers
stores as `ff 02`. -/
def new (senderSsrc mediaSsrc : UInt32) : RtcpFbNack :=
  { data := [0x81, 205, 0xff, 0x02] ++ write4bytes senderSsrc ++ write4bytes mediaSsrc }

/-- `get_media_ssrc`. -/
def getMediaSsrc (p : RtcpFbNack) : UInt32 := read4bytes (p.data.drop 8)

/-! ## Writing -/

/-- The amounts by which `insert_block` shifts, one for each number behind the
first. -/
def shiftAmounts : List UInt16 → List Int
  | [] => []
  | packetId :: rest => rest.map fun tempSeq => 16 - ((tempSeq.toNat : Int) - packetId.toNat)

/-- `1 << amount`, stored in 16 bits. -/
def shiftOne (amount : Int) : Except Fault UInt16 :=
  if 0 ≤ amount ∧ amount < 31 then .ok (UInt16.ofNat (2 ^ amount.toNat)) else .error .badShift

/-- The bitmap of a block. -/
def bitmapOf (amounts : List Int) : Except Fault UInt16 :=
  amounts.foldlM (fun bitmap amount => do return bitmap ||| (← shiftOne amount)) 0

/-- The length field, which counts words. -/
def setLength (data : Bytes) : Bytes :=
  data.take 2 ++ write2bytes (UInt16.ofNat (data.length / 4 - 1)) ++ data.drop 4

/-- `insert_block`. -/
def insertBlock (reportSeqs : List UInt16) (p : RtcpFbNack) : Except Fault RtcpFbNack :=
  match reportSeqs with
  | [] => .error .outOfBounds
  | packetId :: _ => do
    let bitmap ← bitmapOf (shiftAmounts reportSeqs)
    if p.data.length + BLOCK_LEN > PACKET_MAX then .error .outOfBounds
    else
      return { data := setLength (p.data ++ write2bytes packetId ++ write2bytes bitmap)
               nackBlocks := p.nackBlocks ++ [p.data.length] }

/-- The lists that the loop of `insert_seq_list` hands to `insert_block`, with
what `report_seqs` holds.  The number that closes a block is part of it. -/
def reports : List UInt16 → List UInt16 → List (List UInt16)
  | reportSeqs, [] => if reportSeqs.isEmpty then [] else [reportSeqs]
  | reportSeqs, lostSeq :: rest =>
    if (lostSeq.toNat : Int) - (reportSeqs.headD lostSeq).toNat > 16 then
      (reportSeqs ++ [lostSeq]) :: reports [] rest
    else reports (reportSeqs ++ [lostSeq]) rest

/-- `insert_seq_list`. -/
def insertSeqList (seqVec : List UInt16) (p : RtcpFbNack) : Except Fault RtcpFbNack :=
  (reports [] seqVec).foldlM (fun p reportSeqs => p.insertBlock reportSeqs) p

/-! ## Reading -/

/-- `parse` with `update_data`: the pointers go on in steps of a block as long
as they are inside the packet.  A packet without a block gives a null pointer. -/
def parse (data : Bytes) : Except Fault (Option RtcpFbNack) :=
  if data.length ≤ HEADER_LEN then .ok none
  else if data.length > PACKET_MAX then .error .outOfBounds
  else
    .ok (some
      { data := data
        nackBlocks := (List.range ((data.length - HEADER_LEN + 3) / BLOCK_LEN)).map
          fun i => HEADER_LEN + BLOCK_LEN * i })

/-- The numbers of a block. -/
def blockSeqs (seqBase bitMask : UInt16) : List UInt16 :=
  seqBase :: (List.range 16).filterMap fun i =>
    if (bitMask >>> UInt16.ofNat (15 - i)) &&& 1 ≠ 0 then
      some (seqBase + UInt16.ofNat i + 1)
    else none

/-- What stands at the pointer to a block. -/
def readBlock (p : RtcpFbNack) (block : Nat) : Except Fault (List UInt16) :=
  if p.data.length < block + BLOCK_LEN then .error .outOfBounds
  else .ok (blockSeqs (read2bytes (p.data.drop block)) (read2bytes (p.data.drop (block + 2))))

/-- `get_lost_seqs`. -/
def getLostSeqs (p : RtcpFbNack) : Except Fault (List UInt16) := do
  return (← p.nackBlocks.mapM p.readBlock).flatten

/-! ## Bits -/

/-- Bit `n` of a bitmap. -/
theorem bit_ne_zero_iff (bitmap : UInt16) {n : Nat} (hn : n < 16) :
    (bitmap >>> UInt16.ofNat n) &&& 1 ≠ 0 ↔ bitmap.toNat.testBit n = true := by
  have hmod : n % 2 ^ 16 % 16 = n := by omega
  rw [Nat.testBit_eq_decide_div_mod_eq, decide_eq_true_eq, ne_eq, ← UInt16.toNat_inj]
  simp only [UInt16.toNat_and, UInt16.toNat_shiftRight, UInt16.toNat_ofNat', hmod,
    UInt16.reduceToNat, Nat.and_one_is_mod, Nat.shiftRight_eq_div_pow]
  omega

/-- The bitmap of amounts that are places of bits has these bits and no
others. -/
theorem bitmapOf_eq {amounts : List Int} (h : ∀ a ∈ amounts, 0 ≤ a ∧ a ≤ 15) :
    ∃ bitmap, bitmapOf amounts = .ok bitmap ∧
      ∀ n, bitmap.toNat.testBit n = true ↔ (n : Int) ∈ amounts := by
  -- the loop, from any bitmap on
  have hloop : ∀ (amounts : List Int) (start : UInt16), (∀ a ∈ amounts, 0 ≤ a ∧ a ≤ 15) →
      ∃ bitmap, amounts.foldlM (fun bitmap amount => do return bitmap ||| (← shiftOne amount))
          start = .ok bitmap ∧
        ∀ n, bitmap.toNat.testBit n = true ↔ start.toNat.testBit n = true ∨ (n : Int) ∈ amounts := by
    intro amounts
    induction amounts with
    | nil =>
      intro start _
      exact ⟨start, rfl, by simp⟩
    | cons a rest ih =>
      intro start h
      obtain ⟨hlow, hhigh⟩ := h a (by simp)
      have hshift : shiftOne a = .ok (UInt16.ofNat (2 ^ a.toNat)) :=
        if_pos ⟨hlow, by omega⟩
      have hpow : 2 ^ a.toNat < 2 ^ 16 := Nat.pow_lt_pow_right (by decide) (by omega)
      obtain ⟨bitmap, hfold, hbits⟩ := ih (start ||| UInt16.ofNat (2 ^ a.toNat))
        (fun b hb => h b (List.mem_cons_of_mem _ hb))
      refine ⟨bitmap, ?_, fun n => ?_⟩
      · rw [List.foldlM_cons, hshift]
        exact hfold
      · rw [hbits n, UInt16.toNat_or, UInt16.toNat_ofNat', Nat.mod_eq_of_lt hpow, Nat.testBit_or,
          Nat.testBit_two_pow, Bool.or_eq_true, decide_eq_true_eq, List.mem_cons, or_assoc]
        have hplace : a.toNat = n ↔ (n : Int) = a := by omega
        rw [hplace]
  obtain ⟨bitmap, hfold, hbits⟩ := hloop amounts 0 h
  refine ⟨bitmap, hfold, fun n => ?_⟩
  rw [hbits n]
  simp

/-- A block gives back the numbers of its bitmap: an ascending list whose
numbers are at most 16 behind the first. -/
theorem blockSeqs_eq {base bitmap : UInt16} {rest : List UInt16}
    (hsorted : (base :: rest).Pairwise (· < ·))
    (hnear : ∀ x ∈ rest, x.toNat ≤ base.toNat + 16)
    (hbits : ∀ n, bitmap.toNat.testBit n = true ↔ (n : Int) ∈ shiftAmounts (base :: rest)) :
    blockSeqs base bitmap = base :: rest := by
  rw [List.pairwise_cons] at hsorted
  obtain ⟨hbase, hrest⟩ := hsorted
  -- bit `15 - i` stands for the number `i + 1` behind the base
  have hbit : ∀ i < 16, (bitmap >>> UInt16.ofNat (15 - i)) &&& 1 ≠ 0 ↔
      ∃ x ∈ rest, x.toNat = base.toNat + i + 1 := by
    intro i hi
    rw [bit_ne_zero_iff bitmap (show 15 - i < 16 by omega), hbits, shiftAmounts, List.mem_map]
    constructor
    · rintro ⟨x, hx, heq⟩
      exact ⟨x, hx, by omega⟩
    · rintro ⟨x, hx, heq⟩
      exact ⟨x, hx, by omega⟩
  have hvalue : ∀ i < 16, ∀ x ∈ rest, x.toNat = base.toNat + i + 1 →
      base + UInt16.ofNat i + 1 = x := by
    intro i hi x hx heq
    have hlt := x.toNat_lt
    rw [← UInt16.toNat_inj, UInt16.toNat_add, UInt16.toNat_add, UInt16.toNat_ofNat']
    simp only [UInt16.reduceToNat]
    omega
  have hsame : (List.range 16).filterMap (fun i =>
      if (bitmap >>> UInt16.ofNat (15 - i)) &&& 1 ≠ 0 then some (base + UInt16.ofNat i + 1)
      else none) = rest := by
    refine List.Pairwise.eq_of_mem_iff ?_ hrest fun x => ?_
    · refine List.Pairwise.filterMap _ ?_ (List.Pairwise.and_mem.mp List.pairwise_lt_range)
      rintro i j ⟨hi, hj, hij⟩ x hx y hy
      rw [List.mem_range] at hi hj
      simp only [Option.ite_none_right_eq_some, Option.some.injEq] at hx hy
      obtain ⟨x', hx', heqx⟩ := (hbit i hi).mp hx.1
      obtain ⟨y', hy', heqy⟩ := (hbit j hj).mp hy.1
      rw [← hx.2, ← hy.2, hvalue i hi x' hx' heqx, hvalue j hj y' hy' heqy, UInt16.lt_iff_toNat_lt]
      omega
    · rw [List.mem_filterMap]
      constructor
      · rintro ⟨i, hi, hx⟩
        rw [List.mem_range] at hi
        simp only [Option.ite_none_right_eq_some, Option.some.injEq] at hx
        obtain ⟨x', hx', heqx⟩ := (hbit i hi).mp hx.1
        rw [← hx.2, hvalue i hi x' hx' heqx]
        exact hx'
      · intro hx
        have hlow := UInt16.lt_iff_toNat_lt.mp (hbase x hx)
        have hhigh := hnear x hx
        obtain ⟨i, hi, heq⟩ : ∃ i < 16, x.toNat = base.toNat + i + 1 :=
          ⟨x.toNat - base.toNat - 1, by omega, by omega⟩
        refine ⟨i, List.mem_range.mpr hi, ?_⟩
        rw [if_pos ((hbit i hi).mpr ⟨x, hx, heq⟩), hvalue i hi x hx heq]
  rw [blockSeqs, hsame]

/-! ## Blocks -/

/-- Numbers that are near the base stay in one block. -/
theorem reports_of_near {base : UInt16} {report rest : List UInt16}
    (hnear : ∀ x ∈ rest, x.toNat ≤ base.toNat + 16) :
    reports (base :: report) rest = [base :: (report ++ rest)] := by
  induction rest generalizing report with
  | nil => simp [reports]
  | cons x rest ih =>
    have hx := hnear x (by simp)
    have hclose : ¬ (x.toNat : Int) - base.toNat > 16 := by omega
    rw [reports, List.headD_cons, if_neg hclose, List.cons_append,
      ih fun y hy => hnear y (List.mem_cons_of_mem _ hy)]
    simp

/-- Numbers behind the base and near it are put at the places of bits. -/
theorem shiftAmounts_of_near {base : UInt16} {rest : List UInt16}
    (hsorted : (base :: rest).Pairwise (· < ·)) (hnear : ∀ x ∈ rest, x.toNat ≤ base.toNat + 16) :
    ∀ a ∈ shiftAmounts (base :: rest), 0 ≤ a ∧ a ≤ 15 := by
  intro a ha
  rw [shiftAmounts, List.mem_map] at ha
  obtain ⟨x, hx, rfl⟩ := ha
  have hlow := UInt16.lt_iff_toNat_lt.mp ((List.pairwise_cons.mp hsorted).1 x hx)
  have hhigh := hnear x hx
  omega

/-- A number that is not near the base is put where it has no bit. -/
theorem exists_negative_shift {base : UInt16} {report rest : List UInt16}
    (hfar : ∃ x ∈ rest, base.toNat + 16 < x.toNat) :
    ∃ r ∈ reports (base :: report) rest, ∃ a ∈ shiftAmounts r, a < 0 := by
  induction rest generalizing report with
  | nil => simp at hfar
  | cons x rest ih =>
    rw [reports, List.headD_cons]
    by_cases hclose : (x.toNat : Int) - base.toNat > 16
    · rw [if_pos hclose]
      refine ⟨_, List.mem_cons_self, 16 - ((x.toNat : Int) - base.toNat), ?_, by omega⟩
      rw [List.cons_append, shiftAmounts, List.mem_map]
      exact ⟨x, by simp, rfl⟩
    · rw [if_neg hclose, List.cons_append]
      refine ih ?_
      obtain ⟨y, hy, hfar⟩ := hfar
      rcases List.mem_cons.mp hy with rfl | hy
      · omega
      · exact ⟨y, hy, hfar⟩

/-! ## The round trip -/

/-- What a sender puts into a packet comes back from it, and no bit is put at a
place that a bitmap does not have. -/
structure RoundTrips (senderSsrc mediaSsrc : UInt32) (seqVec : List UInt16) : Prop where
  shifts : ∀ r ∈ reports [] seqVec, ∀ a ∈ shiftAmounts r, 0 ≤ a ∧ a ≤ 15
  back : ∃ p q, (new senderSsrc mediaSsrc).insertSeqList seqVec = .ok p ∧
    parse p.data = .ok (some q) ∧ q.getLostSeqs = .ok seqVec ∧ q.getMediaSsrc = mediaSsrc

/-- A packet with one block. -/
theorem parse_of_one_block {senderSsrc mediaSsrc : UInt32} {base bitmap : UInt16} {data : Bytes}
    (hdata : data = setLength ((new senderSsrc mediaSsrc).data ++ write2bytes base ++
      write2bytes bitmap)) :
    ∃ q, parse data = .ok (some q) ∧ q.getLostSeqs = .ok (blockSeqs base bitmap) ∧
      q.getMediaSsrc = mediaSsrc := by
  -- the fields of the packet, eight bytes before the media source
  obtain ⟨front, hfront, hsplit⟩ : ∃ front : Bytes, front.length = 8 ∧
      data = front ++ (write4bytes mediaSsrc ++ (write2bytes base ++ (write2bytes bitmap ++ []))) := by
    refine ⟨[0x81, 205] ++ write2bytes 3 ++ write4bytes senderSsrc, by simp, ?_⟩
    rw [hdata]
    simp [setLength, new, List.drop_append]
  have hlen : data.length = 16 := by
    rw [hsplit]
    simp [hfront]
  have hblock : data.drop 12 = write2bytes base ++ (write2bytes bitmap ++ []) := by
    rw [hsplit, ← List.append_assoc, List.drop_left' (by simp [hfront])]
  have hmask : data.drop 14 = write2bytes bitmap ++ [] := by
    rw [← List.drop_drop (i := 2) (j := 12), hblock, List.drop_left' (by simp)]
  have hmedia : data.drop 8 = write4bytes mediaSsrc ++
      (write2bytes base ++ (write2bytes bitmap ++ [])) := by
    rw [hsplit, List.drop_left' hfront]
  have hread : blockSeqs (read2bytes (data.drop 12)) (read2bytes (data.drop 14)) =
      blockSeqs base bitmap := by
    rw [hblock, hmask, read2bytes_write2bytes, read2bytes_write2bytes]
  refine ⟨{ data := data, nackBlocks := [12] }, ?_, ?_, ?_⟩
  · rw [parse, hlen]
    rfl
  · simp only [getLostSeqs, List.mapM_cons, List.mapM_nil, readBlock, hlen, BLOCK_LEN]
    rw [← hread]
    simp
  · rw [getMediaSsrc, hmedia, read4bytes_write4bytes]

/-- **Round trip.**  An ascending list of lost packets comes back from the
packet that was made of it exactly when it is not empty and none of its numbers
is more than 16 behind the first. -/
theorem nack_round_trip_iff (senderSsrc mediaSsrc : UInt32) {seqVec : List UInt16}
    (hsorted : seqVec.Pairwise (· < ·))
    (hfits : HEADER_LEN + BLOCK_LEN * (reports [] seqVec).length ≤ PACKET_MAX) :
    RoundTrips senderSsrc mediaSsrc seqVec ↔
      ∃ base rest, seqVec = base :: rest ∧ ∀ x ∈ rest, x.toNat ≤ base.toNat + 16 := by
  rcases seqVec with _ | ⟨base, rest⟩
  · -- the packet has no block, and `parse` refuses it
    constructor
    · rintro ⟨-, p, q, hp, hparse, -⟩
      cases hp
      have hnone : parse (new senderSsrc mediaSsrc).data = .ok none := by
        simp [parse, new, HEADER_LEN]
      rw [hnone] at hparse
      cases hparse
    · rintro ⟨base, rest, h, -⟩
      cases h
  have hreports : reports [] (base :: rest) = reports [base] rest := by
    rw [reports]
    simp
  constructor
  · intro h
    refine ⟨base, rest, rfl, ?_⟩
    by_contra hfar
    simp only [not_forall, not_le] at hfar
    obtain ⟨x, hx, hlt⟩ := hfar
    obtain ⟨r, hr, a, ha, hneg⟩ := @exists_negative_shift base [] rest ⟨x, hx, hlt⟩
    have hpos := (h.shifts r (hreports ▸ hr) a ha).1
    omega
  · rintro ⟨base', rest', heq, hnear⟩
    cases heq
    have hone : reports [] (base :: rest) = [base :: rest] := by
      rw [hreports, reports_of_near hnear, List.nil_append]
    have hshifts := shiftAmounts_of_near hsorted hnear
    obtain ⟨bitmap, hbitmap, hbits⟩ := bitmapOf_eq hshifts
    obtain ⟨q, hparse, hseqs, hmedia⟩ :=
      @parse_of_one_block senderSsrc mediaSsrc base bitmap _ rfl
    refine ⟨?_, { data := _, nackBlocks := [HEADER_LEN] }, q, ?_, hparse, ?_, hmedia⟩
    · rw [hone]
      simpa using hshifts
    · have hroom : ¬ (new senderSsrc mediaSsrc).data.length + BLOCK_LEN > PACKET_MAX := by
        simp [new, BLOCK_LEN, PACKET_MAX]
      rw [insertSeqList, hone]
      simp only [List.foldlM_cons, List.foldlM_nil, insertBlock, hbitmap, hroom, if_false]
      rfl
    · rw [hseqs, blockSeqs_eq hsorted hnear hbits]

/-- Three numbers in one block. -/
theorem nack_round_trip_three : RoundTrips 0 77 [5, 6, 21] := by
  refine (nack_round_trip_iff 0 77 (by decide) (by decide)).mpr ⟨5, [6, 21], rfl, ?_⟩
  intro x hx
  simp only [List.mem_cons, List.not_mem_nil, or_false] at hx
  rcases hx with rfl | rfl
  · decide
  · decide

/-- The number 22 closes the block of 5, where it has no bit. -/
theorem nack_round_trip_far :
    [(5 : UInt16), 22].Pairwise (· < ·) ∧
      HEADER_LEN + BLOCK_LEN * (reports [] [5, 22]).length ≤ PACKET_MAX ∧
      ¬ RoundTrips 0 77 [5, 22] := by
  refine ⟨by decide, by decide, fun h => ?_⟩
  have hpos := h.shifts [5, 22] (by decide) (-1) (by decide)
  omega

end RtcpFbNack

end MediaServer
