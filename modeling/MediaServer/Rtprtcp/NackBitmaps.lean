import Mathlib.Data.List.Count
import MediaServer.Lib.Run
import MediaServer.Rtprtcp.RtcpFbNack

/-!
# The order of the bits of a NACK block

In a generic NACK packet (`FMT=1`, `PT=205`) bit `i` of the bitmap, counted from
the least significant one, stands for the number `i + 1` behind the packet
identifier.  `lsbSeqs` reads a block in this way.

`insert_block` puts that number at place `15 - i`, and `get_lost_seqs` looks for
it there.  The two agree with each other, and with the packet format where the
order does not matter:

* `lsbSeqs_eq_blockSeqs_iff`: for a block, when its bitmap reads the same in both
  directions;
* `getLostSeqs_eq_iff`: for a packet, when this is so for each of its blocks;
* `symmetric_iff`: for the bitmap of a list, when the list is its own mirror
  image.
-/

namespace MediaServer

namespace RtcpFbNack

/-- The numbers of a block in the order of the packet format. -/
def lsbSeqs (seqBase bitMask : UInt16) : List UInt16 :=
  seqBase :: (List.range 16).filterMap fun i =>
    if bitMask.toNat.testBit i then some (seqBase + UInt16.ofNat i + 1) else none

/-- The bitmap reads the same in both directions. -/
def Symmetric (bitMask : UInt16) : Prop :=
  ∀ i < 16, bitMask.toNat.testBit i = bitMask.toNat.testBit (15 - i)

instance (bitMask : UInt16) : Decidable (Symmetric bitMask) :=
  inferInstanceAs (Decidable (∀ i < 16, _))

/-- The block that stands at a pointer: the packet identifier and the bitmap. -/
def blockAt (p : RtcpFbNack) (block : Nat) : UInt16 × UInt16 :=
  (read2bytes (p.data.drop block), read2bytes (p.data.drop (block + 2)))

/-- The packet has its header, and its pointers point to blocks that are all there. -/
structure Whole (p : RtcpFbNack) : Prop where
  header : HEADER_LEN ≤ p.data.length
  blocks : ∀ block ∈ p.nackBlocks, block + BLOCK_LEN ≤ p.data.length

/-! ## Selections from a range -/

section Selections

variable {α : Type}

theorem filterMap_ite_eq (p : Nat → Bool) (f : Nat → α) (l : List Nat) :
    l.filterMap (fun i => if p i then some (f i) else none) = (l.filter p).map f := by
  rw [← List.filterMap_eq_map, List.filterMap_filter]
  rfl

/-- Different selections give different lists. -/
theorem filterMap_range_eq_iff {n : Nat} {p q : Nat → Bool} {f : Nat → α}
    (hinj : ∀ i < n, ∀ j < n, f i = f j → i = j) :
    (List.range n).filterMap (fun i => if p i then some (f i) else none) =
        (List.range n).filterMap (fun i => if q i then some (f i) else none) ↔
      ∀ i < n, p i = q i := by
  rw [filterMap_ite_eq, filterMap_ite_eq]
  constructor
  · intro h i hi
    have hmem : ∀ p : Nat → Bool, f i ∈ ((List.range n).filter p).map f ↔ p i = true := by
      intro p
      rw [List.mem_map]
      constructor
      · rintro ⟨j, hj, heq⟩
        obtain ⟨hj, hp⟩ := List.mem_filter.mp hj
        rw [hinj j (List.mem_range.mp hj) i hi heq] at hp
        exact hp
      · intro hp
        exact ⟨i, List.mem_filter.mpr ⟨List.mem_range.mpr hi, hp⟩, rfl⟩
    rw [Bool.eq_iff_iff, ← hmem p, ← hmem q, h]
  · intro h
    have hfilter : (List.range n).filter p = (List.range n).filter q :=
      List.filter_congr fun i hi => h i (List.mem_range.mp hi)
    rw [hfilter]

theorem length_filterMap_range (n : Nat) (p : Nat → Bool) (f : Nat → α) :
    ((List.range n).filterMap (fun i => if p i then some (f i) else none)).length =
      (List.range n).countP p := by
  rw [filterMap_ite_eq, List.length_map, List.countP_eq_length_filter]

/-- Lists that are put together from parts of the same lengths have the same parts. -/
theorem flatten_map_eq_iff {β : Type} {f g : β → List α} {l : List β}
    (hlen : ∀ b ∈ l, (f b).length = (g b).length) :
    (l.map f).flatten = (l.map g).flatten ↔ ∀ b ∈ l, f b = g b := by
  induction l with
  | nil => simp
  | cons b rest ih =>
    rw [List.forall_mem_cons] at hlen
    rw [List.map_cons, List.map_cons, List.flatten_cons, List.flatten_cons, List.forall_mem_cons,
      ← ih hlen.2]
    constructor
    · intro h
      exact List.append_inj h hlen.1
    · rintro ⟨hfirst, hrest⟩
      rw [hfirst, hrest]

end Selections

/-! ## One block -/

theorem blockSeqs_eq_testBit (seqBase bitMask : UInt16) :
    blockSeqs seqBase bitMask = seqBase :: (List.range 16).filterMap fun i =>
      if bitMask.toNat.testBit (15 - i) then some (seqBase + UInt16.ofNat i + 1) else none := by
  rw [blockSeqs, List.cons.injEq]
  refine ⟨rfl, List.filterMap_congr ?_⟩
  intro i hi
  rw [List.mem_range] at hi
  simp only [bit_ne_zero_iff bitMask (show 15 - i < 16 by omega)]

/-- The numbers behind a base are different. -/
theorem seq_inj (seqBase : UInt16) :
    ∀ i < 16, ∀ j < 16, seqBase + UInt16.ofNat i + 1 = seqBase + UInt16.ofNat j + 1 → i = j := by
  intro i hi j hj h
  rw [← UInt16.toNat_inj] at h
  simp only [UInt16.toNat_add, UInt16.toNat_ofNat', UInt16.reduceToNat] at h
  omega

theorem lsbSeqs_eq_blockSeqs_iff (seqBase bitMask : UInt16) :
    blockSeqs seqBase bitMask = lsbSeqs seqBase bitMask ↔ Symmetric bitMask := by
  rw [blockSeqs_eq_testBit, lsbSeqs, List.cons.injEq, filterMap_range_eq_iff (seq_inj seqBase)]
  constructor
  · intro h i hi
    exact (h.2 i hi).symm
  · intro h
    exact ⟨rfl, fun i hi => (h i hi).symm⟩

/-- Both directions find the same number of bits. -/
theorem length_blockSeqs (seqBase bitMask : UInt16) :
    (blockSeqs seqBase bitMask).length = (lsbSeqs seqBase bitMask).length := by
  have hmirror : (List.range 16).reverse = (List.range 16).map (15 - ·) := by decide
  rw [blockSeqs_eq_testBit, lsbSeqs, List.length_cons, List.length_cons, length_filterMap_range,
    length_filterMap_range, ← List.countP_reverse (p := bitMask.toNat.testBit), hmirror,
    List.countP_map]
  rfl

/-! ## A packet -/

theorem mapM_readBlock {p : RtcpFbNack} {blocks : List Nat}
    (h : ∀ block ∈ blocks, block + BLOCK_LEN ≤ p.data.length) :
    blocks.mapM p.readBlock =
      .ok (blocks.map fun block => blockSeqs (p.blockAt block).1 (p.blockAt block).2) := by
  induction blocks with
  | nil => rfl
  | cons block rest ih =>
    rw [List.forall_mem_cons] at h
    have hread : p.readBlock block =
        .ok (blockSeqs (p.blockAt block).1 (p.blockAt block).2) :=
      if_neg (Nat.not_lt.mpr h.1)
    rw [List.mapM_cons, hread, ih h.2]
    rfl

theorem getLostSeqs_eq_iff {p : RtcpFbNack} (h : p.Whole) :
    p.getLostSeqs = .ok (p.nackBlocks.map fun block =>
        lsbSeqs (p.blockAt block).1 (p.blockAt block).2).flatten ↔
      ∀ block ∈ p.nackBlocks, Symmetric (p.blockAt block).2 := by
  rw [getLostSeqs, mapM_readBlock h.blocks, Run.ok_bind]
  show Except.ok _ = _ ↔ _
  rw [Except.ok.injEq, flatten_map_eq_iff fun block _ => length_blockSeqs _ _]
  simp only [lsbSeqs_eq_blockSeqs_iff]

/-! ## A list -/

/-- A list is its own mirror image: with the number `d` behind the first it has the
number `17 - d` behind the first. -/
def Mirrored (base : UInt16) (rest : List UInt16) : Prop :=
  ∀ x ∈ rest, ∃ y ∈ rest, x.toNat + y.toNat = 2 * base.toNat + 17

theorem symmetric_iff {base bitmap : UInt16} {rest : List UInt16}
    (hsorted : (base :: rest).Pairwise (· < ·))
    (hnear : ∀ x ∈ rest, x.toNat ≤ base.toNat + 16)
    (hbits : ∀ n, bitmap.toNat.testBit n = true ↔ (n : Int) ∈ shiftAmounts (base :: rest)) :
    Symmetric bitmap ↔ Mirrored base rest := by
  have hbit : ∀ i < 16, bitmap.toNat.testBit i = true ↔
      ∃ x ∈ rest, x.toNat + i = base.toNat + 16 := by
    intro i hi
    rw [hbits, shiftAmounts, List.mem_map]
    constructor
    · rintro ⟨x, hx, heq⟩
      exact ⟨x, hx, by omega⟩
    · rintro ⟨x, hx, heq⟩
      exact ⟨x, hx, by omega⟩
  have hbehind : ∀ x ∈ rest, base.toNat < x.toNat := fun x hx =>
    UInt16.lt_iff_toNat_lt.mp ((List.pairwise_cons.mp hsorted).1 x hx)
  constructor
  · intro h x hx
    have hlow := hbehind x hx
    have hhigh := hnear x hx
    -- the place of `x`, and the place of its mirror image
    have hi : base.toNat + 16 - x.toNat < 16 := by omega
    have hplace := (hbit _ hi).mpr ⟨x, hx, by omega⟩
    rw [h _ hi, hbit _ (by omega)] at hplace
    obtain ⟨y, hy, heq⟩ := hplace
    exact ⟨y, hy, by omega⟩
  · intro h i hi
    rw [Bool.eq_iff_iff, hbit i hi, hbit (15 - i) (by omega)]
    constructor
    · rintro ⟨x, hx, heq⟩
      obtain ⟨y, hy, hsum⟩ := h x hx
      exact ⟨y, hy, by omega⟩
    · rintro ⟨x, hx, heq⟩
      obtain ⟨y, hy, hsum⟩ := h x hx
      exact ⟨y, hy, by omega⟩

/-- The block that `insert_block` writes. -/
theorem insertBlock_ok {p : RtcpFbNack} (h : p.Whole) {base : UInt16} {rest : List UInt16}
    (hsorted : (base :: rest).Pairwise (· < ·))
    (hnear : ∀ x ∈ rest, x.toNat ≤ base.toNat + 16)
    (hroom : p.data.length + BLOCK_LEN ≤ PACKET_MAX) :
    ∃ q bitmap, p.insertBlock (base :: rest) = .ok q ∧ q.Whole ∧
      q.nackBlocks = p.nackBlocks ++ [p.data.length] ∧
      q.blockAt p.data.length = (base, bitmap) ∧
      ∀ n, bitmap.toNat.testBit n = true ↔ (n : Int) ∈ shiftAmounts (base :: rest) := by
  obtain ⟨bitmap, hbitmap, hbits⟩ := bitmapOf_eq (shiftAmounts_of_near hsorted hnear)
  have hheader : 12 ≤ p.data.length := h.header
  -- the header stands before the blocks, and the length field in it
  have hdata : setLength (p.data ++ write2bytes base ++ write2bytes bitmap) =
      (p.data.take 2 ++ write2bytes (UInt16.ofNat ((p.data ++ write2bytes base ++
        write2bytes bitmap).length / 4 - 1)) ++ p.data.drop 4) ++
        (write2bytes base ++ (write2bytes bitmap ++ [])) := by
    rw [setLength, List.append_assoc p.data, List.take_append_of_le_length (by omega),
      List.drop_append_of_le_length (by omega), List.append_nil, List.append_assoc,
      List.append_assoc, List.append_assoc]
  obtain ⟨front, hlen, hsplit⟩ : ∃ front : Bytes, front.length = p.data.length ∧
      setLength (p.data ++ write2bytes base ++ write2bytes bitmap) =
        front ++ (write2bytes base ++ (write2bytes bitmap ++ [])) := by
    refine ⟨_, ?_, hdata⟩
    simp only [List.length_append, List.length_take, List.length_drop, write2bytes_length]
    omega
  have hbase : (setLength (p.data ++ write2bytes base ++ write2bytes bitmap)).drop
      p.data.length = write2bytes base ++ (write2bytes bitmap ++ []) := by
    rw [hsplit, List.drop_left' hlen]
  have hmask : (setLength (p.data ++ write2bytes base ++ write2bytes bitmap)).drop
      (p.data.length + 2) = write2bytes bitmap ++ [] := by
    rw [← List.drop_drop, hbase, List.drop_left' (by simp)]
  refine ⟨⟨setLength (p.data ++ write2bytes base ++ write2bytes bitmap),
    p.nackBlocks ++ [p.data.length]⟩, bitmap, ?_, ⟨?_, ?_⟩, rfl, ?_, hbits⟩
  · simp only [insertBlock, hbitmap, Nat.not_lt.mpr hroom, if_false]
    rfl
  · show HEADER_LEN ≤ (setLength _).length
    rw [hsplit]
    simp only [List.length_append, write2bytes_length, hlen, HEADER_LEN]
    omega
  · intro block hblock
    show block + BLOCK_LEN ≤ (setLength _).length
    rw [hsplit]
    simp only [List.length_append, write2bytes_length, hlen, BLOCK_LEN, List.length_nil]
    rcases List.mem_append.mp hblock with hold | hnew
    · have hinside := h.blocks block hold
      rw [BLOCK_LEN] at hinside
      omega
    · rw [List.mem_singleton.mp hnew]
  · rw [blockAt, hbase, hmask, read2bytes_write2bytes, read2bytes_write2bytes]

/-- `insert_block` appends a block, which in the order of the packet format denotes
`seqs`. -/
def Inserts (p : RtcpFbNack) (seqs : List UInt16) : Prop :=
  ∃ q block, p.insertBlock seqs = .ok q ∧ q.nackBlocks = p.nackBlocks ++ [block] ∧
    lsbSeqs (q.blockAt block).1 (q.blockAt block).2 = seqs

theorem inserts_iff {p : RtcpFbNack} (h : p.Whole) {base : UInt16} {rest : List UInt16}
    (hsorted : (base :: rest).Pairwise (· < ·))
    (hnear : ∀ x ∈ rest, x.toNat ≤ base.toNat + 16) :
    p.Inserts (base :: rest) ↔ p.data.length + BLOCK_LEN ≤ PACKET_MAX ∧ Mirrored base rest := by
  constructor
  · rintro ⟨q, block, hinsert, hblocks, hseqs⟩
    have hroom : p.data.length + BLOCK_LEN ≤ PACKET_MAX := by
      by_contra hfull
      rw [Nat.not_le] at hfull
      obtain ⟨bitmap, -, hinsert⟩ := Run.exists_of_bind_ok hinsert
      simp only [gt_iff_lt, hfull, if_true] at hinsert
      cases hinsert
    obtain ⟨q', bitmap, hinsert', -, hblocks', hat, hbits⟩ :=
      insertBlock_ok h hsorted hnear hroom
    rw [hinsert', Except.ok.injEq] at hinsert
    subst hinsert
    rw [hblocks', List.append_cancel_left_eq, List.cons.injEq] at hblocks
    rw [← hblocks.1, hat, ← blockSeqs_eq hsorted hnear hbits] at hseqs
    have hsymmetric := (lsbSeqs_eq_blockSeqs_iff base bitmap).mp hseqs.symm
    exact ⟨hroom, (symmetric_iff hsorted hnear hbits).mp hsymmetric⟩
  · rintro ⟨hroom, hmirror⟩
    obtain ⟨q, bitmap, hinsert, -, hblocks, hat, hbits⟩ := insertBlock_ok h hsorted hnear hroom
    have hsymmetric := (symmetric_iff hsorted hnear hbits).mpr hmirror
    refine ⟨q, p.data.length, hinsert, hblocks, ?_⟩
    rw [hat, ← (lsbSeqs_eq_blockSeqs_iff base bitmap).mpr hsymmetric,
      blockSeqs_eq hsorted hnear hbits]

/-- **Bit order.**  `get_lost_seqs` reads the blocks of a packet in the order of the packet
format exactly when every bitmap reads the same in both directions, and `insert_block`
writes an ascending list of numbers within 16 behind the first in that order exactly when
the list is its own mirror image and the packet has room for it. -/
theorem nack_bit_order_iff {p : RtcpFbNack} (h : p.Whole) {base : UInt16} {rest : List UInt16}
    (hsorted : (base :: rest).Pairwise (· < ·))
    (hnear : ∀ x ∈ rest, x.toNat ≤ base.toNat + 16) :
    (p.getLostSeqs = .ok (p.nackBlocks.map fun block =>
          lsbSeqs (p.blockAt block).1 (p.blockAt block).2).flatten ↔
        ∀ block ∈ p.nackBlocks, Symmetric (p.blockAt block).2) ∧
      (p.Inserts (base :: rest) ↔
        p.data.length + BLOCK_LEN ≤ PACKET_MAX ∧ Mirrored base rest) :=
  ⟨getLostSeqs_eq_iff h, inserts_iff h hsorted hnear⟩

theorem whole_new (senderSsrc mediaSsrc : UInt32) : (new senderSsrc mediaSsrc).Whole :=
  ⟨by simp [new, HEADER_LEN], by simp [new]⟩

/-- The first and the last number behind the base are mirror images of each other. -/
theorem nack_bit_order_both_ends :
    (new 0 77).Inserts [100, 101, 116] ↔
      (new 0 77).data.length + BLOCK_LEN ≤ PACKET_MAX ∧ Mirrored 100 [101, 116] :=
  (nack_bit_order_iff (whole_new 0 77) (by decide) (by simp)).2

/-- A block with the number behind its base is read as one with the number 16 behind it,
and is not written. -/
theorem nack_bit_order_next :
    (∃ q, parse ([0x81, 205, 0, 3] ++ write4bytes 0 ++ write4bytes 77 ++ [0, 100, 0, 1]) =
          .ok (some q) ∧ q.Whole ∧
        q.nackBlocks.map q.blockAt = [(100, 1)] ∧ lsbSeqs 100 1 = [100, 101] ∧
        q.getLostSeqs = .ok [100, 116]) ∧
      ¬ (new 0 77).Inserts [100, 101] := by
  refine ⟨⟨_, rfl, ⟨by decide, by decide⟩, by decide, by decide, rfl⟩, ?_⟩
  rw [inserts_iff (whole_new 0 77) (by decide) (by simp)]
  rintro ⟨-, hmirror⟩
  obtain ⟨y, hy, hsum⟩ := hmirror 101 (by simp)
  rw [List.mem_singleton] at hy
  rw [hy] at hsum
  exact absurd hsum (by decide)

end RtcpFbNack

end MediaServer
