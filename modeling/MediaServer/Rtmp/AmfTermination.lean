import Mathlib.Algebra.Ring.Int.Defs
import MediaServer.Rtmp.AmfLoop

/-!
# The loop over a command ends

`AmfLoop` reads memory that has an end, with a count that is any integer.  Here the payload
of a command stands in memory without an end, whose bytes behind the payload are arbitrary,
and the count is the `int` that `handle_client_command_message` and
`handle_server_command_message` hand to `decode`: a `uint32_t` is subtracted from it modulo
`2 ^ 32`, and any other subtraction that leaves the range of an `int` is a fault.

* `Takes` says, without the decoder, which bytes a value takes.  `takes_of_decode` and
  `Takes.returns` show that the decoder returns exactly for these.
* `decode_of_cursor`: where an `int` can count the memory, the count of `AmfLoop` is this one.
* `terminates_iff`: the loop ends, and every call of `decode` has made the count smaller,
  exactly when the bytes from the payload on are values that end, with markers that are
  known, none of which is so long that the count comes round.
-/

namespace MediaServer

open Run

/-- The pointer, as the number of bytes behind the begin of the payload, and the count. -/
structure AmfReader where
  pos : Nat
  leftLen : Int
  deriving DecidableEq, Repr

namespace AmfReader

/-- `data += n; left_len -= n`, where `n` is converted to an `int`. -/
def skip (n : Nat) (c : AmfReader) : Except Fault AmfReader :=
  if c.leftLen - n < -2 ^ 31 then .error .overflow
  else .ok { pos := c.pos + n, leftLen := c.leftLen - n }

/-- `data += n; left_len -= n`, where `n` is a `uint32_t`. -/
def skipUint32 (n : Nat) (c : AmfReader) : AmfReader :=
  { pos := c.pos + n, leftLen := wrapInt (c.leftLen - n) }

end AmfReader

namespace AmfMemory

open AmfDecoder (insertField lastMarker marker_cases)

/-! ## The decoder -/

/-- The `n` bytes at `pos`. -/
def bytesAt (mem : Nat → UInt8) (pos n : Nat) : Bytes :=
  (List.range n).map fun i => mem (pos + i)

mutual

/-- `AMF_Decoder::decode`.  The fuel bounds the nesting and the loops. -/
def decode (mem : Nat → UInt8) : Nat → AmfReader → Except Fault (RtmpRet × AmfItem × AmfReader)
  | 0, _ => .error .hang
  | fuel + 1, c => do
    let type := mem c.pos
    if type > 0x0d then return (.error, .unknown, c)
    let c ← c.skip 1
    if type = 0x00 then
      let bits := read8bytes (bytesAt mem c.pos 8)
      return (.ok, .number bits, ← c.skip 8)
    else if type = 0x01 then
      let value := mem c.pos
      return (.ok, .bool (value != 0), ← c.skip 1)
    else if type = 0x02 then
      let len := read2bytes (bytesAt mem c.pos 2)
      let c ← c.skip 2
      return (.ok, .string (bytesAt mem c.pos len.toNat), ← c.skip len.toNat)
    else if type = 0x03 then
      let (ret, fields, c) ← decodeAmfObject mem fuel [] c
      return (ret, .object fields, c)
    else if type = 0x05 then return (.ok, .null, c)
    else if type = 0x06 then return (.ok, .undefined, c)
    else if type = 0x07 then .error .assertFailed
    else if type = 0x08 then
      let (ret, fields, c) ← decodeAmfObject mem fuel [] (← c.skip 4)
      return (ret, .object fields, c)
    else if type = 0x0a then
      let (_, items, c) ← decodeAmfArray mem fuel c
      return (.ok, .array items, c)
    else if type = 0x0b then
      let bits := read8bytes (bytesAt mem c.pos 8)
      let c ← c.skip 8
      return (.ok, .date bits, ← c.skip 2)
    else if type = 0x0c then
      let len := read4bytes (bytesAt mem c.pos 4)
      let c ← c.skip 4
      return (.ok, .longString (bytesAt mem c.pos len.toNat), c.skipUint32 len.toNat)
    else if type = 0x0d then return (.ok, .longString [], c)
    else return (.error, .unknown, c)

/-- `decode_amf_object`, with the fields decoded so far. -/
def decodeAmfObject (mem : Nat → UInt8) : Nat → List (Bytes × AmfItem) → AmfReader →
    Except Fault (RtmpRet × List (Bytes × AmfItem) × AmfReader)
  | 0, _, _ => .error .hang
  | fuel + 1, fields, c => do
    if ¬ c.leftLen > 0 then return (.ok, fields, c)
    let keyLen := read2bytes (bytesAt mem c.pos 2)
    let c ← c.skip 2
    if keyLen = 0 then
      if mem c.pos ≠ 0x09 then .error .assertFailed
      else return (.ok, fields, c)
    else
      let key := bytesAt mem c.pos keyLen.toNat
      let c ← c.skip keyLen.toNat
      if mem c.pos > 0x0d then return (.error, fields, c)
      else
        let (ret, item, c) ← decode mem fuel c
        if ret ≠ .ok then return (ret, fields, c)
        else decodeAmfObject mem fuel (insertField key item fields) c

/-- `decode_amf_array`. -/
def decodeAmfArray (mem : Nat → UInt8) : Nat → AmfReader →
    Except Fault (RtmpRet × List AmfItem × AmfReader)
  | 0, _ => .error .hang
  | fuel + 1, c => do
    let arrayLen := read4bytes (bytesAt mem c.pos 4)
    decodeItems mem fuel arrayLen.toNat [] (← c.skip 4)

/-- The loop of `decode_amf_array`, with `count` values to go. -/
def decodeItems (mem : Nat → UInt8) : Nat → Nat → List AmfItem → AmfReader →
    Except Fault (RtmpRet × List AmfItem × AmfReader)
  | 0, _, _, _ => .error .hang
  | _ + 1, 0, items, c => .ok (.ok, items, c)
  | fuel + 1, count + 1, items, c => do
    let (ret, item, c) ← decode mem fuel c
    if ret ≠ .ok then return (ret, items, c)
    else decodeItems mem fuel count (items ++ [item]) c

end

/-- The loop of both handlers, which does not look at what `decode` returns. -/
def decodeAll (mem : Nat → UInt8) : Nat → List AmfItem → AmfReader →
    Except Fault (List AmfItem)
  | 0, _, _ => .error .hang
  | fuel + 1, items, c => do
    if c.leftLen > 0 then
      let (_, item, c) ← decode mem fuel c
      decodeAll mem fuel (items ++ [item]) c
    else return items

/-- The memory of a payload, and of what happens to stand behind it. -/
def memory (payload : Bytes) (behind : Nat → UInt8) (pos : Nat) : UInt8 :=
  payload.getD pos (behind (pos - payload.length))

/-- Where both loops begin: `data = ...->data()`, `len = (int)...->data_len()`. -/
def start (payload : Bytes) : AmfReader := { pos := 0, leftLen := wrapInt payload.length }

/-! ## What a value takes -/

/-- The length that the two bytes at `pos` announce. -/
def shortLen (mem : Nat → UInt8) (pos : Nat) : Nat := (read2bytes (bytesAt mem pos 2)).toNat

/-- The length that the four bytes at `pos` announce. -/
def longLen (mem : Nat → UInt8) (pos : Nat) : Nat := (read4bytes (bytesAt mem pos 4)).toNat

/-- The count at `pos`, for a payload of `total` bytes. -/
def count (total pos : Nat) : Int := wrapInt (total - pos)

/-- An `int` can be reduced by `n` at `pos`. -/
def Room (total pos n : Nat) : Prop := -2 ^ 31 ≤ count total pos - n

/-- The markers of the values whose size they determine, and these sizes: numbers, booleans,
null, undefined, dates and the unsupported type. -/
def sizes : List (UInt8 × Nat) :=
  [(0x00, 9), (0x01, 2), (0x05, 1), (0x06, 1), (0x0b, 11), (0x0d, 1)]

/-- What a call decodes: a value, the fields of an object, or so many values of an array. -/
inductive Form where
  | value
  | fields
  | items (count : Nat)

/-- `Takes mem total form p ret q`: the bytes from `p` to `q` are what a call takes that
begins at `p` and returns `ret`. -/
inductive Takes (mem : Nat → UInt8) (total : Nat) : Form → Nat → RtmpRet → Nat → Prop
  | fixed {p size : Nat} (hm : (mem p, size) ∈ sizes) (hroom : Room total p size) :
      Takes mem total .value p .ok (p + size)
  | string {p : Nat} (hm : mem p = 0x02) (hroom : Room total p (3 + shortLen mem (p + 1))) :
      Takes mem total .value p .ok (p + (3 + shortLen mem (p + 1)))
  | longString {p : Nat} (hm : mem p = 0x0c) (hroom : Room total p 5) :
      Takes mem total .value p .ok (p + 5 + longLen mem (p + 1))
  /-- A movie clip, or an end without an object. -/
  | rejected {p : Nat} (hm : mem p = 0x04 ∨ mem p = 0x09) (hroom : Room total p 1) :
      Takes mem total .value p .error (p + 1)
  /-- No marker.  It is looked at and left where it is. -/
  | unknown {p : Nat} (hbig : ¬ mem p ≤ lastMarker) : Takes mem total .value p .error p
  | object {p q : Nat} {ret : RtmpRet} (hm : mem p = 0x03) (hroom : Room total p 1)
      (h : Takes mem total .fields (p + 1) ret q) : Takes mem total .value p ret q
  | mixedArray {p q : Nat} {ret : RtmpRet} (hm : mem p = 0x08) (hroom : Room total p 5)
      (h : Takes mem total .fields (p + 5) ret q) : Takes mem total .value p ret q
  | array {p q : Nat} {ret : RtmpRet} (hm : mem p = 0x0a) (hroom : Room total p 5)
      (h : Takes mem total (.items (longLen mem (p + 1))) (p + 5) ret q) :
      Takes mem total .value p .ok q
  /-- The count ends an object that does not end itself. -/
  | noneLeft {p : Nat} (hleft : count total p ≤ 0) : Takes mem total .fields p .ok p
  | objectEnd {p : Nat} (hleft : 0 < count total p) (hkey : shortLen mem p = 0)
      (hend : mem (p + 2) = 0x09) : Takes mem total .fields p .ok (p + 2)
  | failedField {p q : Nat} {ret : RtmpRet} (hleft : 0 < count total p)
      (hkey : shortLen mem p ≠ 0)
      (h : Takes mem total .value (p + (2 + shortLen mem p)) ret q) (hret : ret ≠ .ok) :
      Takes mem total .fields p ret q
  | field {p q r : Nat} {ret : RtmpRet} (hleft : 0 < count total p)
      (hkey : shortLen mem p ≠ 0)
      (h : Takes mem total .value (p + (2 + shortLen mem p)) .ok q)
      (hrest : Takes mem total .fields q ret r) : Takes mem total .fields p ret r
  | noItems {p : Nat} : Takes mem total (.items 0) p .ok p
  | failedItem {p q n : Nat} {ret : RtmpRet} (h : Takes mem total .value p ret q)
      (hret : ret ≠ .ok) : Takes mem total (.items (n + 1)) p ret q
  | item {p q r n : Nat} {ret : RtmpRet} (h : Takes mem total .value p .ok q)
      (hrest : Takes mem total (.items n) q ret r) : Takes mem total (.items (n + 1)) p ret r

/-- A value of `size` bytes makes a count of `left` smaller: modulo `2 ^ 32` it has a byte
and does not bring the count round. -/
def Lowers (left : Int) (size : Nat) : Prop :=
  0 < size % 2 ^ 32 ∧ (size % 2 ^ 32 : Nat) ≤ left + 2 ^ 31

/-- From `p` on stand values that each make the count smaller, until nothing is counted. -/
inductive CommandAt (mem : Nat → UInt8) (total : Nat) : Nat → Prop
  | done {p : Nat} (hleft : count total p ≤ 0) : CommandAt mem total p
  | value {p q : Nat} {ret : RtmpRet} (hleft : 0 < count total p)
      (h : Takes mem total .value p ret q) (hlower : Lowers (count total p) (q - p))
      (hrest : CommandAt mem total q) : CommandAt mem total p

/-! ## The count at a position -/

/-- The pointer at `pos`, with the count that belongs there. -/
def counted (total pos : Nat) : AmfReader := { pos, leftLen := count total pos }

variable {mem : Nat → UInt8} {total fuel p q : Nat}

theorem start_eq_counted (payload : Bytes) : start payload = counted payload.length 0 := by
  simp [start, counted, count]

theorem count_bounds (total p : Nat) : -2 ^ 31 ≤ count total p ∧ count total p < 2 ^ 31 := by
  have hle := @Int.le_bmod (total - p) (2 ^ 32) (by decide)
  have hlt := @Int.bmod_lt (total - p) (2 ^ 32) (by decide)
  simp only [count, wrapInt]
  omega

/-- Moving the pointer moves the count, modulo `2 ^ 32`. -/
theorem wrapInt_count_sub (total p n : Nat) :
    wrapInt (count total p - n) = count total (p + n) := by
  simp only [count, wrapInt, Int.bmod_sub_bmod]
  congr 1
  omega

theorem skipUint32_counted (total p n : Nat) :
    (counted total p).skipUint32 n = counted total (p + n) := by
  simp only [AmfReader.skipUint32, counted, wrapInt_count_sub]

theorem count_add_of_room {n : Nat} (h : Room total p n) :
    count total (p + n) = count total p - n := by
  have hlt := (count_bounds total p).2
  rw [← wrapInt_count_sub, wrapInt]
  rw [Room] at h
  exact Int.bmod_eq_of_le (by omega) (by omega)

theorem skip_counted {n : Nat} (h : Room total p n) :
    (counted total p).skip n = .ok (counted total (p + n)) := by
  have hnot : ¬ (counted total p).leftLen - n < -2 ^ 31 := Int.not_lt.mpr h
  rw [AmfReader.skip, if_neg hnot]
  simp only [counted, count_add_of_room h]

theorem skip_counted_of_not {n : Nat} (h : ¬ Room total p n) :
    (counted total p).skip n = .error .overflow :=
  if_pos (Int.not_le.mp h)

theorem room_of_skip_ok {n : Nat} {d : AmfReader} (h : (counted total p).skip n = .ok d) :
    Room total p n ∧ d = counted total (p + n) := by
  by_cases hroom : Room total p n
  · rw [skip_counted hroom] at h
    exact ⟨hroom, (Except.ok.inj h).symm⟩
  · rw [skip_counted_of_not hroom] at h
    cases h

/-- Two steps of the pointer are one. -/
theorem skip_bind_skip {α : Type} (m n : Nat)
    (next : AmfReader → AmfReader → Except Fault α) :
    ((counted total p).skip m >>= fun d => d.skip n >>= next d) =
      ((counted total p).skip (m + n) >>= next (counted total (p + m))) := by
  by_cases hm : Room total p m
  · rw [skip_counted hm, ok_bind]
    have hiff : Room total (p + m) n ↔ Room total p (m + n) := by
      rw [Room, Room, count_add_of_room hm]
      omega
    by_cases hn : Room total (p + m) n
    · rw [skip_counted hn, skip_counted (hiff.mp hn), Nat.add_assoc]
    · rw [skip_counted_of_not hn, skip_counted_of_not (hn ∘ hiff.mpr)]
  · have hmn : ¬ Room total p (m + n) := by
      rw [Room] at hm ⊢
      omega
    rw [skip_counted_of_not hm, skip_counted_of_not hmn]
    rfl

theorem shortLen_eq_zero : shortLen mem p = 0 ↔ read2bytes (bytesAt mem p 2) = 0 :=
  @UInt16.toNat_inj (read2bytes (bytesAt mem p 2)) 0

/-- A key has room wherever an object asks for one. -/
theorem room_key (h : 0 < count total p) : Room total p (2 + shortLen mem p) := by
  have hlt : shortLen mem p < 2 ^ 16 := (read2bytes (bytesAt mem p 2)).toNat_lt
  rw [Room]
  omega

/-- The count at `q` is smaller than the one at `p` when the bytes between lower it. -/
theorem count_lt_iff (h : 0 < count total p) (hle : p ≤ q) :
    count total q < count total p ↔ Lowers (count total p) (q - p) := by
  obtain ⟨n, rfl⟩ := Nat.exists_eq_add_of_le hle
  rw [Nat.add_sub_cancel_left, ← wrapInt_count_sub, Lowers]
  have hlt := (count_bounds total p).2
  generalize count total p = left at h hlt ⊢
  simp only [wrapInt, Int.bmod]
  omega

/-! ## One equation for each marker -/

-- The proofs below take one step of these functions each.
attribute [local simp] decode decodeAmfObject decodeAmfArray decodeItems

theorem decode_unknown {c : AmfReader} (hbig : ¬ mem c.pos ≤ lastMarker) :
    decode mem (fuel + 1) c = .ok (.error, .unknown, c) := by
  rw [decode]
  exact if_pos (UInt8.not_le.mp hbig)

/-- What `decode` returns for a value that is complete. -/
def returned (item : AmfItem) (d : AmfReader) : Except Fault (RtmpRet × AmfItem × AmfReader) :=
  .ok (.ok, item, d)

/-- What `decode` returns behind the fields of an object. -/
def returnedObject (out : RtmpRet × List (Bytes × AmfItem) × AmfReader) :
    Except Fault (RtmpRet × AmfItem × AmfReader) :=
  .ok (out.1, .object out.2.1, out.2.2)

/-- What `decode` returns behind the values of an array. -/
def returnedArray (out : RtmpRet × List AmfItem × AmfReader) :
    Except Fault (RtmpRet × AmfItem × AmfReader) :=
  .ok (.ok, .array out.2.1, out.2.2)

/-- What is read of the values in `sizes`. -/
def fixedItem (mem : Nat → UInt8) (p : Nat) : AmfItem :=
  if mem p = 0x00 then .number (read8bytes (bytesAt mem (p + 1) 8))
  else if mem p = 0x01 then .bool (mem (p + 1) != 0)
  else if mem p = 0x05 then .null
  else if mem p = 0x06 then .undefined
  else if mem p = 0x0b then .date (read8bytes (bytesAt mem (p + 1) 8))
  else .longString []

theorem decode_fixed {size : Nat} (hm : (mem p, size) ∈ sizes) :
    decode mem (fuel + 1) (counted total p) =
      ((counted total p).skip size >>= returned (fixedItem mem p)) := by
  simp only [sizes, List.mem_cons, Prod.mk.injEq, List.not_mem_nil, or_false] at hm
  have hpos : mem (counted total p).pos = mem p := rfl
  rcases hm with ⟨hm, rfl⟩ | ⟨hm, rfl⟩ | ⟨hm, rfl⟩ | ⟨hm, rfl⟩ | ⟨hm, rfl⟩ | ⟨hm, rfl⟩
  · rw [decode, fixedItem, hpos, hm]
    exact skip_bind_skip 1 8 fun d => returned (.number (read8bytes (bytesAt mem d.pos 8)))
  · rw [decode, fixedItem, hpos, hm]
    exact skip_bind_skip 1 1 fun d => returned (.bool (mem d.pos != 0))
  · rw [decode, fixedItem, hpos, hm]
    rfl
  · rw [decode, fixedItem, hpos, hm]
    rfl
  · rw [decode, fixedItem, hpos, hm]
    refine (skip_bind_skip 1 8 fun d e => e.skip 2 >>=
      returned (.date (read8bytes (bytesAt mem d.pos 8)))).trans ?_
    exact skip_bind_skip 9 2 fun _ => returned (.date (read8bytes (bytesAt mem (p + 1) 8)))
  · rw [decode, fixedItem, hpos, hm]
    rfl

theorem decode_string (hm : mem p = 0x02) :
    decode mem (fuel + 1) (counted total p) =
      ((counted total p).skip (3 + shortLen mem (p + 1)) >>=
        returned (.string (bytesAt mem (p + 3) (shortLen mem (p + 1))))) := by
  have hpos : mem (counted total p).pos = mem p := rfl
  rw [decode, hpos, hm]
  refine (skip_bind_skip 1 2 fun d e => e.skip (shortLen mem d.pos) >>=
    returned (.string (bytesAt mem e.pos (shortLen mem d.pos)))).trans ?_
  exact skip_bind_skip 3 (shortLen mem (p + 1)) fun e =>
    returned (.string (bytesAt mem e.pos (shortLen mem (p + 1))))

theorem decode_longString (hm : mem p = 0x0c) :
    decode mem (fuel + 1) (counted total p) =
      ((counted total p).skip 5 >>= fun d =>
        returned (.longString (bytesAt mem d.pos (longLen mem (p + 1))))
          (d.skipUint32 (longLen mem (p + 1)))) := by
  have hpos : mem (counted total p).pos = mem p := rfl
  rw [decode, hpos, hm]
  exact skip_bind_skip 1 4 fun d e =>
    returned (.longString (bytesAt mem e.pos (longLen mem d.pos)))
      (e.skipUint32 (longLen mem d.pos))

theorem decode_rejected (hm : mem p = 0x04 ∨ mem p = 0x09) :
    decode mem (fuel + 1) (counted total p) =
      ((counted total p).skip 1 >>= fun d => .ok (.error, .unknown, d)) := by
  have hpos : mem (counted total p).pos = mem p := rfl
  rcases hm with hm | hm
  · rw [decode, hpos, hm]
    rfl
  · rw [decode, hpos, hm]
    rfl

theorem decode_reference (hm : mem p = 0x07) :
    decode mem (fuel + 1) (counted total p) =
      ((counted total p).skip 1 >>= fun _ => .error .assertFailed) := by
  have hpos : mem (counted total p).pos = mem p := rfl
  rw [decode, hpos, hm]
  rfl

theorem decode_object (hm : mem p = 0x03) :
    decode mem (fuel + 1) (counted total p) =
      ((counted total p).skip 1 >>= fun d =>
        decodeAmfObject mem fuel [] d >>= returnedObject) := by
  have hpos : mem (counted total p).pos = mem p := rfl
  rw [decode, hpos, hm]
  rfl

theorem decode_mixedArray (hm : mem p = 0x08) :
    decode mem (fuel + 1) (counted total p) =
      ((counted total p).skip 5 >>= fun d =>
        decodeAmfObject mem fuel [] d >>= returnedObject) := by
  have hpos : mem (counted total p).pos = mem p := rfl
  rw [decode, hpos, hm]
  exact skip_bind_skip 1 4 fun _ e => decodeAmfObject mem fuel [] e >>= returnedObject

theorem decode_array (hm : mem p = 0x0a) :
    decode mem (fuel + 1) (counted total p) =
      ((counted total p).skip 1 >>= fun d => decodeAmfArray mem fuel d >>= returnedArray) := by
  have hpos : mem (counted total p).pos = mem p := rfl
  rw [decode, hpos, hm]
  rfl

theorem decodeAmfArray_eq (c : AmfReader) :
    decodeAmfArray mem (fuel + 1) c =
      (c.skip 4 >>= decodeItems mem fuel (longLen mem c.pos) []) := by
  rw [decodeAmfArray]
  rfl

theorem decodeAmfObject_none (fields : List (Bytes × AmfItem)) (hleft : count total p ≤ 0) :
    decodeAmfObject mem (fuel + 1) fields (counted total p) =
      .ok (.ok, fields, counted total p) := by
  rw [decodeAmfObject]
  exact if_pos (Int.not_lt.mpr hleft)

/-- The loop of an object goes on with a key, or with the end of the object. -/
theorem decodeAmfObject_left (fields : List (Bytes × AmfItem)) (hleft : 0 < count total p) :
    decodeAmfObject mem (fuel + 1) fields (counted total p) =
      if read2bytes (bytesAt mem p 2) = 0 then
        if mem (p + 2) ≠ 0x09 then .error .assertFailed
        else .ok (.ok, fields, counted total (p + 2))
      else if mem (p + (2 + shortLen mem p)) > 0x0d then
        .ok (.error, fields, counted total (p + (2 + shortLen mem p)))
      else
        decode mem fuel (counted total (p + (2 + shortLen mem p))) >>= fun out =>
          if out.1 ≠ .ok then .ok (out.1, fields, out.2.2)
          else decodeAmfObject mem fuel
            (insertField (bytesAt mem (p + 2) (shortLen mem p)) out.2.1 fields) out.2.2 := by
  have hroom : Room total p (2 + shortLen mem p) := room_key hleft
  have htwo : Room total p 2 := by
    rw [Room] at hroom ⊢
    omega
  have hkey : Room total (p + 2) (shortLen mem p) := by
    rw [Room, count_add_of_room htwo]
    rw [Room] at hroom
    omega
  have hnot : ¬ ¬ (counted total p).leftLen > 0 := not_not.mpr hleft
  rw [decodeAmfObject, if_neg hnot, skip_counted htwo, ok_bind]
  refine if_congr Iff.rfl rfl ?_
  refine (congrArg (· >>= _) (skip_counted hkey)).trans ?_
  rw [Nat.add_assoc, ok_bind]
  rfl

theorem decodeItems_succ (n : Nat) (items : List AmfItem) (c : AmfReader) :
    decodeItems mem (fuel + 1) (n + 1) items c =
      (decode mem fuel c >>= fun out =>
        if out.1 ≠ .ok then .ok (out.1, items, out.2.2)
        else decodeItems mem fuel n (items ++ [out.2.1]) out.2.2) := by
  rw [decodeItems]
  rfl

/-! ## What returns takes bytes -/

/-- The bytes that a call has taken that returns, with `fuel` to go. -/
structure TakesBytes (mem : Nat → UInt8) (total fuel : Nat) : Prop where
  decode : ∀ {p ret item d}, AmfMemory.decode mem fuel (counted total p) = .ok (ret, item, d) →
    ∃ q, d = counted total q ∧ Takes mem total .value p ret q
  decodeAmfObject : ∀ {fields p ret fields' d},
    AmfMemory.decodeAmfObject mem fuel fields (counted total p) = .ok (ret, fields', d) →
    ∃ q, d = counted total q ∧ Takes mem total .fields p ret q
  decodeAmfArray : ∀ {p ret items d},
    AmfMemory.decodeAmfArray mem fuel (counted total p) = .ok (ret, items, d) →
    Room total p 4 ∧ ∃ q, d = counted total q ∧
      Takes mem total (.items (longLen mem p)) (p + 4) ret q
  decodeItems : ∀ {n items p ret items' d},
    AmfMemory.decodeItems mem fuel n items (counted total p) = .ok (ret, items', d) →
    ∃ q, d = counted total q ∧ Takes mem total (.items n) p ret q

theorem TakesBytes.decode_succ (h : TakesBytes mem total fuel) {ret : RtmpRet} {item : AmfItem}
    {d : AmfReader}
    (hd : AmfMemory.decode mem (fuel + 1) (counted total p) = .ok (ret, item, d)) :
    ∃ q, d = counted total q ∧ Takes mem total .value p ret q := by
  by_cases hknown : mem p ≤ lastMarker
  · by_cases hfixed : ∃ size, (mem p, size) ∈ sizes
    · obtain ⟨size, hm⟩ := hfixed
      rw [decode_fixed hm] at hd
      obtain ⟨e, he, hd⟩ := exists_of_bind_ok hd
      obtain ⟨hroom, rfl⟩ := room_of_skip_ok he
      cases hd
      exact ⟨_, rfl, .fixed hm hroom⟩
    · rcases marker_cases hknown with
        hm | hm | hm | hm | hm | hm | hm | hm | hm | hm | hm | hm | hm | hm
      · exact absurd ⟨9, by rw [hm]; decide⟩ hfixed
      · exact absurd ⟨2, by rw [hm]; decide⟩ hfixed
      · rw [decode_string hm] at hd
        obtain ⟨e, he, hd⟩ := exists_of_bind_ok hd
        obtain ⟨hroom, rfl⟩ := room_of_skip_ok he
        cases hd
        exact ⟨_, rfl, .string hm hroom⟩
      · rw [decode_object hm] at hd
        obtain ⟨e, he, hd⟩ := exists_of_bind_ok hd
        obtain ⟨hroom, rfl⟩ := room_of_skip_ok he
        obtain ⟨out, hout, hd⟩ := exists_of_bind_ok hd
        cases hd
        obtain ⟨q, hq, hfields⟩ := h.decodeAmfObject hout
        exact ⟨q, hq, .object hm hroom hfields⟩
      · rw [decode_rejected (Or.inl hm)] at hd
        obtain ⟨e, he, hd⟩ := exists_of_bind_ok hd
        obtain ⟨hroom, rfl⟩ := room_of_skip_ok he
        cases hd
        exact ⟨_, rfl, .rejected (Or.inl hm) hroom⟩
      · exact absurd ⟨1, by rw [hm]; decide⟩ hfixed
      · exact absurd ⟨1, by rw [hm]; decide⟩ hfixed
      · rw [decode_reference hm] at hd
        obtain ⟨e, -, hd⟩ := exists_of_bind_ok hd
        cases hd
      · rw [decode_mixedArray hm] at hd
        obtain ⟨e, he, hd⟩ := exists_of_bind_ok hd
        obtain ⟨hroom, rfl⟩ := room_of_skip_ok he
        obtain ⟨out, hout, hd⟩ := exists_of_bind_ok hd
        cases hd
        obtain ⟨q, hq, hfields⟩ := h.decodeAmfObject hout
        exact ⟨q, hq, .mixedArray hm hroom hfields⟩
      · rw [decode_rejected (Or.inr hm)] at hd
        obtain ⟨e, he, hd⟩ := exists_of_bind_ok hd
        obtain ⟨hroom, rfl⟩ := room_of_skip_ok he
        cases hd
        exact ⟨_, rfl, .rejected (Or.inr hm) hroom⟩
      · rw [decode_array hm] at hd
        obtain ⟨e, he, hd⟩ := exists_of_bind_ok hd
        obtain ⟨hone, rfl⟩ := room_of_skip_ok he
        obtain ⟨out, hout, hd⟩ := exists_of_bind_ok hd
        cases hd
        obtain ⟨hfour, q, hq, hitems⟩ := h.decodeAmfArray hout
        have hroom : Room total p 5 := by
          rw [Room, count_add_of_room hone] at hfour
          rw [Room]
          omega
        exact ⟨q, hq, .array hm hroom hitems⟩
      · exact absurd ⟨11, by rw [hm]; decide⟩ hfixed
      · rw [decode_longString hm] at hd
        obtain ⟨e, he, hd⟩ := exists_of_bind_ok hd
        obtain ⟨hroom, rfl⟩ := room_of_skip_ok he
        cases hd
        exact ⟨_, skipUint32_counted total (p + 5) _, .longString hm hroom⟩
      · exact absurd ⟨1, by rw [hm]; decide⟩ hfixed
  · rw [decode_unknown hknown] at hd
    cases hd
    exact ⟨p, rfl, .unknown hknown⟩

theorem TakesBytes.decodeAmfObject_succ (h : TakesBytes mem total fuel)
    {fields fields' : List (Bytes × AmfItem)} {ret : RtmpRet} {d : AmfReader}
    (hd : AmfMemory.decodeAmfObject mem (fuel + 1) fields (counted total p) =
      .ok (ret, fields', d)) :
    ∃ q, d = counted total q ∧ Takes mem total .fields p ret q := by
  by_cases hleft : 0 < count total p
  · rw [decodeAmfObject_left fields hleft] at hd
    split_ifs at hd with hkey hend hbig
    · cases hd
      exact ⟨_, rfl, .objectEnd hleft (shortLen_eq_zero.mpr hkey) (not_not.mp hend)⟩
    · cases hd
      exact ⟨_, rfl, .failedField hleft (shortLen_eq_zero.not.mpr hkey)
        (.unknown (UInt8.not_le.mpr hbig)) (by decide)⟩
    · have hlen : shortLen mem p ≠ 0 := shortLen_eq_zero.not.mpr hkey
      obtain ⟨⟨ret', item, e⟩, hvalue, hd⟩ := exists_of_bind_ok hd
      obtain ⟨q, rfl, htakes⟩ := h.decode hvalue
      split_ifs at hd with hret
      · cases hd
        exact ⟨q, rfl, .failedField hleft hlen htakes hret⟩
      · obtain rfl : ret' = .ok := not_not.mp hret
        obtain ⟨r, rfl, hrest⟩ := h.decodeAmfObject hd
        exact ⟨r, rfl, .field hleft hlen htakes hrest⟩
  · rw [decodeAmfObject_none fields (Int.not_lt.mp hleft)] at hd
    cases hd
    exact ⟨p, rfl, .noneLeft (Int.not_lt.mp hleft)⟩

theorem takesBytes (mem : Nat → UInt8) (total fuel : Nat) : TakesBytes mem total fuel := by
  induction fuel with
  | zero =>
    refine ⟨fun {p ret item d} h => ?_, fun {fields p ret fields' d} h => ?_,
      fun {p ret items d} h => ?_, fun {n items p ret items' d} h => ?_⟩
    · cases h
    · cases h
    · cases h
    · cases h
  | succ fuel ih =>
    refine ⟨fun {p ret item d} h => ih.decode_succ h,
      fun {fields p ret fields' d} h => ih.decodeAmfObject_succ h,
      fun {p ret items d} h => ?_, fun {n items p ret items' d} h => ?_⟩
    · rw [decodeAmfArray_eq] at h
      obtain ⟨e, he, h⟩ := exists_of_bind_ok h
      obtain ⟨hroom, rfl⟩ := room_of_skip_ok he
      exact ⟨hroom, ih.decodeItems h⟩
    · cases n with
      | zero =>
        cases h
        exact ⟨p, rfl, .noItems⟩
      | succ n =>
        rw [decodeItems_succ] at h
        obtain ⟨⟨ret', item, e⟩, hvalue, h⟩ := exists_of_bind_ok h
        obtain ⟨q, rfl, htakes⟩ := ih.decode hvalue
        split_ifs at h with hret
        · cases h
          exact ⟨q, rfl, .failedItem htakes hret⟩
        · obtain rfl : ret' = .ok := not_not.mp hret
          obtain ⟨r, rfl, hrest⟩ := ih.decodeItems h
          exact ⟨r, rfl, .item htakes hrest⟩

/-! ## What takes bytes returns -/

/-- The call returns, with `fuel` to go, from `p` to `q`. -/
def ReturnsWith (mem : Nat → UInt8) (total fuel : Nat) : Form → Nat → RtmpRet → Nat → Prop
  | .value, p, ret, q =>
    ∃ item, decode mem fuel (counted total p) = .ok (ret, item, counted total q)
  | .fields, p, ret, q => ∀ fields, ∃ fields',
    decodeAmfObject mem fuel fields (counted total p) = .ok (ret, fields', counted total q)
  | .items n, p, ret, q => ∀ items, ∃ items',
    decodeItems mem fuel n items (counted total p) = .ok (ret, items', counted total q)

/-- One call more needs one unit of fuel more. -/
theorem exists_fuel_succ {P : Nat → Prop} (n : Nat) (h : ∀ fuel, n ≤ fuel → P (fuel + 1)) :
    ∃ m, ∀ fuel, m ≤ fuel → P fuel := by
  refine ⟨n + 1, fun fuel hfuel => ?_⟩
  obtain ⟨k, rfl⟩ := Nat.exists_eq_add_of_le' hfuel
  exact h (k + n) (Nat.le_add_left n k)

theorem decodeAmfObject_key {fields : List (Bytes × AmfItem)} {ret : RtmpRet} {item : AmfItem}
    (hleft : 0 < count total p) (hkey : shortLen mem p ≠ 0)
    (hd : decode mem (fuel + 1) (counted total (p + (2 + shortLen mem p))) =
      .ok (ret, item, counted total q)) :
    decodeAmfObject mem (fuel + 2) fields (counted total p) =
      if ret ≠ .ok then .ok (ret, fields, counted total q)
      else decodeAmfObject mem (fuel + 1)
        (insertField (bytesAt mem (p + 2) (shortLen mem p)) item fields)
        (counted total q) := by
  rw [decodeAmfObject_left fields hleft, if_neg (shortLen_eq_zero.not.mp hkey)]
  by_cases hknown : mem (p + (2 + shortLen mem p)) ≤ lastMarker
  · have hnot : ¬ mem (p + (2 + shortLen mem p)) > 0x0d := UInt8.not_lt.mpr hknown
    rw [if_neg hnot, hd, ok_bind]
  · -- the object is left before `decode` would return the same
    have hbig : mem (p + (2 + shortLen mem p)) > 0x0d := UInt8.not_le.mp hknown
    rw [if_pos hbig]
    rw [decode_unknown hknown] at hd
    cases hd
    rfl

theorem Takes.returns {form : Form} {ret : RtmpRet} (h : Takes mem total form p ret q) :
    ∃ n, ∀ fuel, n ≤ fuel → ReturnsWith mem total fuel form p ret q := by
  induction h with
  | @fixed p size hm hroom =>
    refine exists_fuel_succ 0 fun fuel _ => ⟨fixedItem mem p, ?_⟩
    rw [decode_fixed hm, skip_counted hroom]
    rfl
  | @string p hm hroom =>
    refine exists_fuel_succ 0 fun fuel _ =>
      ⟨.string (bytesAt mem (p + 3) (shortLen mem (p + 1))), ?_⟩
    rw [decode_string hm, skip_counted hroom]
    rfl
  | @longString p hm hroom =>
    refine exists_fuel_succ 0 fun fuel _ =>
      ⟨.longString (bytesAt mem (p + 5) (longLen mem (p + 1))), ?_⟩
    rw [decode_longString hm, skip_counted hroom, ok_bind, skipUint32_counted]
    rfl
  | rejected hm hroom =>
    refine exists_fuel_succ 0 fun fuel _ => ⟨.unknown, ?_⟩
    rw [decode_rejected hm, skip_counted hroom]
    rfl
  | unknown hbig => exact exists_fuel_succ 0 fun fuel _ => ⟨.unknown, decode_unknown hbig⟩
  | object hm hroom _ ih =>
    obtain ⟨n, ih⟩ := ih
    refine exists_fuel_succ n fun fuel hfuel => ?_
    obtain ⟨fields, hfields⟩ := ih fuel hfuel []
    refine ⟨.object fields, ?_⟩
    rw [decode_object hm, skip_counted hroom, ok_bind, hfields]
    rfl
  | mixedArray hm hroom _ ih =>
    obtain ⟨n, ih⟩ := ih
    refine exists_fuel_succ n fun fuel hfuel => ?_
    obtain ⟨fields, hfields⟩ := ih fuel hfuel []
    refine ⟨.object fields, ?_⟩
    rw [decode_mixedArray hm, skip_counted hroom, ok_bind, hfields]
    rfl
  | @array p q ret hm hroom _ ih =>
    obtain ⟨n, ih⟩ := ih
    refine exists_fuel_succ (n + 1) fun fuel hfuel => ?_
    obtain ⟨fuel, rfl⟩ := Nat.exists_eq_add_of_le' hfuel
    obtain ⟨items, hitems⟩ := ih (fuel + n) (Nat.le_add_left n fuel) []
    have hone : Room total p 1 := by
      rw [Room] at hroom ⊢
      omega
    have hfour : Room total (p + 1) 4 := by
      rw [Room, count_add_of_room hone]
      rw [Room] at hroom
      omega
    refine ⟨.array items, ?_⟩
    rw [decode_array hm, skip_counted hone, ok_bind, ← Nat.add_assoc, decodeAmfArray_eq,
      skip_counted hfour, ok_bind]
    exact congrArg (· >>= returnedArray) hitems
  | noneLeft hleft =>
    exact exists_fuel_succ 0 fun fuel _ fields => ⟨fields, decodeAmfObject_none fields hleft⟩
  | objectEnd hleft hkey hend =>
    refine exists_fuel_succ 0 fun fuel _ fields => ⟨fields, ?_⟩
    rw [decodeAmfObject_left fields hleft, if_pos (shortLen_eq_zero.mp hkey),
      if_neg (not_not.mpr hend)]
  | failedField hleft hkey _ hret ih =>
    obtain ⟨n, ih⟩ := ih
    refine exists_fuel_succ (n + 1) fun fuel hfuel fields => ?_
    obtain ⟨fuel, rfl⟩ := Nat.exists_eq_add_of_le' hfuel
    obtain ⟨item, hd⟩ := ih (fuel + n + 1) (by omega)
    refine ⟨fields, ?_⟩
    rw [← Nat.add_assoc, decodeAmfObject_key hleft hkey hd, if_pos hret]
  | field hleft hkey _ _ ih ih' =>
    obtain ⟨n, ih⟩ := ih
    obtain ⟨m, ih'⟩ := ih'
    refine exists_fuel_succ (n + m + 1) fun fuel hfuel fields => ?_
    obtain ⟨fuel, rfl⟩ := Nat.exists_eq_add_of_le' hfuel
    obtain ⟨item, hd⟩ := ih (fuel + (n + m) + 1) (by omega)
    obtain ⟨fields', hrest⟩ := ih' (fuel + (n + m) + 1) (by omega) _
    refine ⟨fields', ?_⟩
    rw [← Nat.add_assoc, decodeAmfObject_key hleft hkey hd, if_neg (by decide)]
    exact hrest
  | noItems => exact exists_fuel_succ 0 fun fuel _ items => ⟨items, rfl⟩
  | failedItem _ hret ih =>
    obtain ⟨n, ih⟩ := ih
    refine exists_fuel_succ n fun fuel hfuel items => ?_
    obtain ⟨item, hd⟩ := ih fuel hfuel
    refine ⟨items, ?_⟩
    rw [decodeItems_succ, hd, ok_bind, if_pos hret]
  | item _ _ ih ih' =>
    obtain ⟨n, ih⟩ := ih
    obtain ⟨m, ih'⟩ := ih'
    refine exists_fuel_succ (n + m) fun fuel hfuel items => ?_
    obtain ⟨item, hd⟩ := ih fuel (by omega)
    obtain ⟨items', hrest⟩ := ih' fuel (by omega) (items ++ [item])
    refine ⟨items', ?_⟩
    rw [decodeItems_succ, hd, ok_bind, if_neg (by simp)]
    exact hrest

theorem Takes.le {form : Form} {ret : RtmpRet} (h : Takes mem total form p ret q) : p ≤ q := by
  induction h with
  | _ => omega

/-- A call has one outcome, however much fuel it is given. -/
theorem Takes.unique {ret ret' : RtmpRet} {q' : Nat} (h : Takes mem total .value p ret q)
    (h' : Takes mem total .value p ret' q') : counted total q = counted total q' := by
  obtain ⟨n, hn⟩ := h.returns
  obtain ⟨m, hm⟩ := h'.returns
  obtain ⟨item, hd⟩ := hn (n + m) (by omega)
  obtain ⟨item', hd'⟩ := hm (n + m) (by omega)
  have heq := hd.symm.trans hd'
  simp only [Except.ok.injEq, Prod.mk.injEq] at heq
  exact heq.2.2

/-! ## Memory with an end -/

/-- The cursor `c` over memory with an end stands at `p`, and an `int` can count down to the
end of the memory and over the zone of a date, which is not read. -/
structure Mirrors (mem : Nat → UInt8) (total : Nat) (c : Cursor) (p : Nat) : Prop where
  data : ∀ i, i < c.data.length → c.data[i]? = some (mem (p + i))
  left : c.leftLen = count total p
  room : c.data = [] ∨ (c.data.length : Int) + 2 ≤ count total p + 2 ^ 31

theorem room_add {m n : Nat} (hm : Room total p m) (hn : Room total (p + m) n) :
    Room total p (m + n) := by
  rw [Room, count_add_of_room hm] at hn
  rw [Room]
  omega

variable {c : Cursor}

theorem Mirrors.marker (h : Mirrors mem total c p) {marker : UInt8}
    (hm : c.data.head? = some marker) : mem p = marker := by
  obtain ⟨rest, hdata⟩ := List.head?_eq_some_iff.mp hm
  have hzero := h.data 0 (by simp [hdata])
  simpa [hdata] using hzero.symm

/-- The pointer may leave the memory by the two bytes of a zone. -/
theorem Mirrors.skip (h : Mirrors mem total c p) {n : Nat} (hne : c.data ≠ [])
    (hn : n ≤ c.data.length + 2) : Room total p n ∧ Mirrors mem total (c.skip n) (p + n) := by
  have hle := h.room.resolve_left hne
  have hroom : Room total p n := by
    rw [Room]
    omega
  refine ⟨hroom, ⟨fun i hi => ?_, ?_, ?_⟩⟩
  · simp only [Cursor.skip, List.length_drop] at hi
    simp only [Cursor.skip, List.getElem?_drop]
    rw [h.data (n + i) (by omega), Nat.add_assoc]
  · rw [count_add_of_room hroom, ← h.left]
    rfl
  · by_cases hend : c.data.length ≤ n
    · exact Or.inl (List.drop_eq_nil_of_le hend)
    · refine Or.inr ?_
      rw [count_add_of_room hroom]
      simp only [Cursor.skip, List.length_drop]
      omega

theorem Mirrors.skip_zero (h : Mirrors mem total c p) :
    Room total p 0 ∧ Mirrors mem total (c.skip 0) (p + 0) := by
  have hle := (count_bounds total p).1
  rw [Cursor.skip_zero, Nat.add_zero, Room]
  exact ⟨by omega, h⟩

/-- The bytes that are read, and the pointer behind them. -/
theorem Mirrors.peek (h : Mirrors mem total c p) {n : Nat} {bytes : Bytes}
    (hbytes : c.peek n = .ok bytes) :
    bytes = bytesAt mem p n ∧ Room total p n ∧ Mirrors mem total (c.skip n) (p + n) := by
  have hlen := AmfDecoder.length_of_peek_ok hbytes
  refine ⟨?_, ?_⟩
  · rw [Cursor.peek, if_neg (Nat.not_lt.mpr hlen), Except.ok.injEq] at hbytes
    subst hbytes
    refine List.ext_getElem? fun i => ?_
    by_cases hi : i < n
    · rw [List.getElem?_take_of_lt hi, h.data i (by omega)]
      simp [bytesAt, List.getElem?_range hi]
    · rw [List.getElem?_eq_none (by simp; omega),
        List.getElem?_eq_none (by simp [bytesAt]; omega)]
  · by_cases hzero : n = 0
    · subst hzero
      exact h.skip_zero
    · have hne : c.data ≠ [] := fun hnil => by
        rw [hnil, List.length_nil] at hlen
        omega
      exact h.skip hne (by omega)

/-- What a call in memory with an end returns, it returns in memory without an end. -/
structure Follows (mem : Nat → UInt8) (total fuel : Nat) : Prop where
  decode : ∀ {c p ret item d}, Mirrors mem total c p →
    AmfDecoder.decode fuel c = .ok (ret, item, d) → ∃ q, Mirrors mem total d q ∧
      AmfMemory.decode mem fuel (counted total p) = .ok (ret, item, counted total q)
  decodeAmfObject : ∀ {fields c p ret fields' d}, Mirrors mem total c p →
    AmfDecoder.decodeAmfObject fuel fields c = .ok (ret, fields', d) →
    ∃ q, Mirrors mem total d q ∧ AmfMemory.decodeAmfObject mem fuel fields (counted total p) =
      .ok (ret, fields', counted total q)
  decodeAmfArray : ∀ {c p ret items d}, Mirrors mem total c p →
    AmfDecoder.decodeAmfArray fuel c = .ok (ret, items, d) → ∃ q, Mirrors mem total d q ∧
      AmfMemory.decodeAmfArray mem fuel (counted total p) = .ok (ret, items, counted total q)
  decodeItems : ∀ {n items c p ret items' d}, Mirrors mem total c p →
    AmfDecoder.decodeItems fuel n items c = .ok (ret, items', d) → ∃ q, Mirrors mem total d q ∧
      AmfMemory.decodeItems mem fuel n items (counted total p) =
        .ok (ret, items', counted total q)

theorem Follows.decode_known (h : Follows mem total fuel) (hc : Mirrors mem total c p)
    {marker : UInt8} (hm : c.data.head? = some marker) (hknown : marker ≤ lastMarker)
    {ret : RtmpRet} {item : AmfItem} {d : Cursor}
    (hd : AmfDecoder.decode (fuel + 1) c = .ok (ret, item, d)) : ∃ q, Mirrors mem total d q ∧
      AmfMemory.decode mem (fuel + 1) (counted total p) =
        .ok (ret, item, counted total q) := by
  have hp := hc.marker hm
  obtain ⟨-, hone, hc'⟩ := hc.peek (Cursor.peek_one hm)
  rcases marker_cases hknown with
    rfl | rfl | rfl | rfl | rfl | rfl | rfl | rfl | rfl | rfl | rfl | rfl | rfl | rfl
  · rw [AmfDecoder.decode_number hm] at hd
    obtain ⟨bits, hbits, hd⟩ := exists_of_bind_ok hd
    obtain ⟨rfl, hroom, hc'⟩ := hc'.peek hbits
    cases hd
    refine ⟨_, hc', ?_⟩
    rw [@decode_fixed mem total fuel p 9 (by rw [hp]; decide),
      skip_counted (room_add hone hroom), fixedItem, hp]
    rfl
  · rw [AmfDecoder.decode_bool hm] at hd
    obtain ⟨value, hvalue, hd⟩ := exists_of_bind_ok hd
    obtain ⟨rfl, hroom, hc'⟩ := hc'.peek hvalue
    cases hd
    refine ⟨_, hc', ?_⟩
    rw [@decode_fixed mem total fuel p 2 (by rw [hp]; decide),
      skip_counted (room_add hone hroom), fixedItem, hp]
    rfl
  · rw [AmfDecoder.decode_string hm] at hd
    obtain ⟨len, hlen, hd⟩ := exists_of_bind_ok hd
    obtain ⟨rfl, htwo, hc'⟩ := hc'.peek hlen
    obtain ⟨text, htext, hd⟩ := exists_of_bind_ok hd
    obtain ⟨hpeek, heq⟩ := AmfDecoder.decodeText_ok htext
    obtain ⟨htext, hroom, hc'⟩ := hc'.peek hpeek
    cases hd
    rw [heq, htext]
    refine ⟨_, hc', ?_⟩
    have hall := room_add (room_add hone htwo) hroom
    rw [decode_string hp]
    refine (congrArg (· >>= _) (skip_counted hall)).trans ?_
    rw [← Nat.add_assoc, ok_bind]
    rfl
  · rw [AmfDecoder.decode_object hm] at hd
    obtain ⟨out, hout, hd⟩ := exists_of_bind_ok hd
    cases hd
    obtain ⟨q, hq, hfields⟩ := h.decodeAmfObject hc' hout
    refine ⟨q, hq, ?_⟩
    rw [decode_object hp, skip_counted hone, ok_bind, hfields]
    rfl
  · rw [AmfDecoder.decode_rejected (Or.inl hm)] at hd
    cases hd
    refine ⟨_, hc', ?_⟩
    rw [decode_rejected (Or.inl hp), skip_counted hone]
    rfl
  · rw [AmfDecoder.decode_null hm] at hd
    cases hd
    refine ⟨_, hc', ?_⟩
    rw [@decode_fixed mem total fuel p 1 (by rw [hp]; decide), skip_counted hone, fixedItem, hp]
    rfl
  · rw [AmfDecoder.decode_undefined hm] at hd
    cases hd
    refine ⟨_, hc', ?_⟩
    rw [@decode_fixed mem total fuel p 1 (by rw [hp]; decide), skip_counted hone, fixedItem, hp]
    rfl
  · rw [AmfDecoder.decode_reference hm] at hd
    cases hd
  · rw [AmfDecoder.decode_mixedArray hm] at hd
    obtain ⟨count, hcount, hd⟩ := exists_of_bind_ok hd
    obtain ⟨-, hroom, hc'⟩ := hc'.peek hcount
    obtain ⟨out, hout, hd⟩ := exists_of_bind_ok hd
    cases hd
    obtain ⟨q, hq, hfields⟩ := h.decodeAmfObject hc' hout
    refine ⟨q, hq, ?_⟩
    rw [decode_mixedArray hp, skip_counted (room_add hone hroom), ok_bind, ← Nat.add_assoc p 1 4,
      hfields]
    rfl
  · rw [AmfDecoder.decode_rejected (Or.inr hm)] at hd
    cases hd
    refine ⟨_, hc', ?_⟩
    rw [decode_rejected (Or.inr hp), skip_counted hone]
    rfl
  · rw [AmfDecoder.decode_array hm] at hd
    obtain ⟨out, hout, hd⟩ := exists_of_bind_ok hd
    cases hd
    obtain ⟨q, hq, hitems⟩ := h.decodeAmfArray hc' hout
    refine ⟨q, hq, ?_⟩
    rw [decode_array hp, skip_counted hone, ok_bind, hitems]
    rfl
  · rw [AmfDecoder.decode_date hm] at hd
    obtain ⟨bits, hbits, hd⟩ := exists_of_bind_ok hd
    have hlen := AmfDecoder.length_of_peek_ok hbits
    obtain ⟨hroom, hq⟩ := hc'.skip (fun hnil => by rw [hnil, List.length_nil] at hlen; omega)
      (show 10 ≤ _ by omega)
    obtain ⟨rfl, -, -⟩ := hc'.peek hbits
    cases hd
    rw [Cursor.skip_skip]
    refine ⟨_, hq, ?_⟩
    rw [@decode_fixed mem total fuel p 11 (by rw [hp]; decide),
      skip_counted (room_add hone hroom), fixedItem, hp]
    rfl
  · rw [AmfDecoder.decode_longString hm] at hd
    obtain ⟨len, hlen, hd⟩ := exists_of_bind_ok hd
    obtain ⟨rfl, hroom, hc'⟩ := hc'.peek hlen
    obtain ⟨text, htext, hd⟩ := exists_of_bind_ok hd
    obtain ⟨hpeek, heq⟩ := AmfDecoder.decodeText_ok htext
    obtain ⟨htext, -, hc'⟩ := hc'.peek hpeek
    cases hd
    rw [heq, htext]
    refine ⟨_, hc', ?_⟩
    rw [decode_longString hp, skip_counted (room_add hone hroom), ok_bind,
      skipUint32_counted, ← Nat.add_assoc p 1 4]
    rfl
  · rw [AmfDecoder.decode_unsupported hm] at hd
    cases hd
    refine ⟨_, hc', ?_⟩
    rw [@decode_fixed mem total fuel p 1 (by rw [hp]; decide), skip_counted hone, fixedItem, hp]
    rfl

theorem Mirrors.key (h : Mirrors mem total c p) {key : Bytes} {d : Cursor}
    (hkey : AmfDecoder.KeyAt c key d) :
    shortLen mem p ≠ 0 ∧ key = bytesAt mem (p + 2) (shortLen mem p) ∧
      Mirrors mem total d (p + (2 + shortLen mem p)) := by
  obtain ⟨len, hlen, hne, htext, rfl⟩ := hkey
  obtain ⟨rfl, -, hc⟩ := h.peek hlen
  obtain ⟨hkey, -, hc⟩ := hc.peek htext
  rw [← Nat.add_assoc]
  exact ⟨shortLen_eq_zero.not.mpr hne, hkey, hc⟩

theorem Follows.decodeAmfObject_succ (h : Follows mem total fuel) (hc : Mirrors mem total c p)
    {fields fields' : List (Bytes × AmfItem)} {ret : RtmpRet} {d : Cursor}
    (hd : AmfDecoder.decodeAmfObject (fuel + 1) fields c = .ok (ret, fields', d)) :
    ∃ q, Mirrors mem total d q ∧
      AmfMemory.decodeAmfObject mem (fuel + 1) fields (counted total p) =
        .ok (ret, fields', counted total q) := by
  have hleft := hc.left
  rcases AmfDecoder.objectCase_of_ok hd with hnone | ⟨hpos, hlen, hzero, hend⟩ |
    ⟨hpos, hkey, hm, hbig⟩ | ⟨hpos, hkey, hvalue, hret⟩ | ⟨hpos, hkey, hvalue, hrest⟩
  · rw [hleft] at hnone
    exact ⟨p, hc, decodeAmfObject_none fields hnone⟩
  · rw [hleft] at hpos
    obtain ⟨rfl, -, hc'⟩ := hc.peek hlen
    have hnine := hc'.marker hend
    refine ⟨_, hc', ?_⟩
    rw [decodeAmfObject_left fields hpos, if_pos hzero, if_neg (not_not.mpr hnine)]
  · rw [hleft] at hpos
    obtain ⟨hne, -, hc'⟩ := hc.key hkey
    have hgt : mem (p + (2 + shortLen mem p)) > 0x0d := by
      rw [hc'.marker hm]
      exact UInt8.not_le.mp hbig
    refine ⟨_, hc', ?_⟩
    rw [decodeAmfObject_left fields hpos, if_neg (shortLen_eq_zero.not.mp hne), if_pos hgt]
  · rw [hleft] at hpos
    obtain ⟨hne, rfl, hc'⟩ := hc.key hkey
    obtain ⟨q, hq, hd'⟩ := h.decode hc' hvalue
    refine ⟨q, hq, ?_⟩
    cases fuel with
    | zero => cases hvalue
    | succ fuel => rw [decodeAmfObject_key hpos hne hd', if_pos hret]
  · rw [hleft] at hpos
    obtain ⟨hne, rfl, hc'⟩ := hc.key hkey
    obtain ⟨q, hq, hd'⟩ := h.decode hc' hvalue
    obtain ⟨r, hr, hrest'⟩ := h.decodeAmfObject hq hrest
    refine ⟨r, hr, ?_⟩
    cases fuel with
    | zero => cases hvalue
    | succ fuel =>
      rw [decodeAmfObject_key hpos hne hd', if_neg (by decide)]
      exact hrest'

theorem follows (mem : Nat → UInt8) (total fuel : Nat) : Follows mem total fuel := by
  induction fuel with
  | zero =>
    refine ⟨fun {c p ret item d} _ h => ?_, fun {fields c p ret fields' d} _ h => ?_,
      fun {c p ret items d} _ h => ?_, fun {n items c p ret items' d} _ h => ?_⟩
    · cases h
    · cases h
    · cases h
    · cases h
  | succ fuel ih =>
    refine ⟨fun {c p ret item d} hc h => ?_,
      fun {fields c p ret fields' d} hc h => ih.decodeAmfObject_succ hc h,
      fun {c p ret items d} hc h => ?_, fun {n items c p ret items' d} hc h => ?_⟩
    · rcases hm : c.data.head? with _ | marker
      · rw [AmfDecoder.decode_empty (List.head?_eq_none_iff.mp hm)] at h
        cases h
      · by_cases hknown : marker ≤ lastMarker
        · exact ih.decode_known hc hm hknown h
        · rw [AmfDecoder.decode_unknown hm hknown] at h
          cases h
          rw [← hc.marker hm] at hknown
          exact ⟨p, hc, decode_unknown hknown⟩
    · rw [AmfDecoder.decodeAmfArray] at h
      obtain ⟨len, hlen, h⟩ := exists_of_bind_ok h
      obtain ⟨rfl, hroom, hc'⟩ := hc.peek hlen
      obtain ⟨q, hq, hitems⟩ := ih.decodeItems hc' h
      refine ⟨q, hq, ?_⟩
      rw [decodeAmfArray_eq, skip_counted hroom]
      exact hitems
    · cases n with
      | zero =>
        cases h
        exact ⟨p, hc, rfl⟩
      | succ n =>
        rw [AmfDecoder.decodeItems_succ] at h
        obtain ⟨⟨ret', item, e⟩, hd, h⟩ := exists_of_bind_ok h
        obtain ⟨q, hq, hd'⟩ := ih.decode hc hd
        rw [decodeItems_succ, hd', ok_bind]
        split_ifs at h ⊢ with hret
        · cases h
          exact ⟨q, hq, rfl⟩
        · exact ih.decodeItems hq h

/-- **The unbounded count.**  A call that returns in the payload and the bytes `after` it,
where an `int` can count them, returns the same in memory that goes on, and leaves the same
pointer and count. -/
theorem decode_of_cursor {payload after : Bytes} {behind : Nat → UInt8}
    (hafter : ∀ i, i < after.length → after[i]? = some (behind i))
    (hpayload : payload.length < 2 ^ 31) (hlen : after.length + 2 ≤ 2 ^ 31) {ret : RtmpRet}
    {item : AmfItem} {d : Cursor}
    (hd : AmfDecoder.decodeValue (AmfDecoder.commandCursor payload after) =
      .ok (ret, item, d)) :
    ∃ fuel q, decode (memory payload behind) fuel (start payload) =
      .ok (ret, item, { pos := q, leftLen := d.leftLen }) := by
  have hcount : count payload.length 0 = payload.length := by
    rw [count, Int.natCast_zero, Int.sub_zero]
    exact wrapInt_of_lt hpayload
  have hc : Mirrors (memory payload behind) payload.length
      (AmfDecoder.commandCursor payload after) 0 := by
    refine ⟨fun i hi => ?_, ?_, Or.inr ?_⟩
    · simp only [AmfDecoder.commandCursor, List.length_append] at hi
      simp only [AmfDecoder.commandCursor, memory, Nat.zero_add, List.getD_eq_getElem?_getD]
      by_cases hin : i < payload.length
      · rw [List.getElem?_append_left hin, List.getElem?_eq_getElem hin]
        rfl
      · rw [List.getElem?_append_right (Nat.not_lt.mp hin),
          List.getElem?_eq_none (Nat.not_lt.mp hin)]
        exact hafter _ (by omega)
    · exact hcount.symm
    · rw [hcount]
      simp only [AmfDecoder.commandCursor, List.length_append]
      omega
  obtain ⟨q, hq, hd'⟩ := (follows _ _ _).decode hc hd
  refine ⟨(payload ++ after).length + 1, q, ?_⟩
  rw [start_eq_counted]
  exact hd'.trans (by rw [counted, hq.left])

/-! ## The loop -/

/-- The loop that begins at `c` is at `d` when an iteration begins, or when it ends. -/
inductive Visits (mem : Nat → UInt8) : AmfReader → AmfReader → Prop
  | start (c : AmfReader) : Visits mem c c
  | next {fuel : Nat} {c c' d : AmfReader} {ret : RtmpRet} {item : AmfItem}
      (hpos : 0 < c.leftLen) (hd : decode mem fuel c = .ok (ret, item, c'))
      (h : Visits mem c' d) : Visits mem c d

/-- The loop that begins at `c` ends. -/
def LoopEnds (mem : Nat → UInt8) (c : AmfReader) : Prop :=
  ∃ fuel items, decodeAll mem fuel [] c = .ok items

/-- Every call of `decode` that the loop from `c` makes has made the count smaller when it
returns. -/
def CallsLower (mem : Nat → UInt8) (c : AmfReader) : Prop :=
  ∀ d fuel ret item d', Visits mem c d → 0 < d.leftLen →
    decode mem fuel d = .ok (ret, item, d') → d'.leftLen < d.leftLen

theorem CallsLower.next {c c' : AmfReader} (h : CallsLower mem c) (hpos : 0 < c.leftLen)
    {ret : RtmpRet} {item : AmfItem} (hd : decode mem fuel c = .ok (ret, item, c')) :
    CallsLower mem c' :=
  fun d fuel' ret' item' d' hvisit => h d fuel' ret' item' d' (.next hpos hd hvisit)

theorem decodeAll_next {c : AmfReader} {items : List AmfItem} (hpos : 0 < c.leftLen) :
    decodeAll mem (fuel + 1) items c =
      (decode mem fuel c >>= fun out => decodeAll mem fuel (items ++ [out.2.1]) out.2.2) := by
  rw [decodeAll, if_pos hpos]

theorem decodeAll_done {c : AmfReader} {items : List AmfItem} (h : c.leftLen ≤ 0) :
    decodeAll mem (fuel + 1) items c = .ok items := by
  rw [decodeAll, if_neg (Int.not_lt.mpr h)]
  rfl

theorem commandAt_of_ends {items items' : List AmfItem}
    (hends : decodeAll mem fuel items (counted total p) = .ok items')
    (hlower : CallsLower mem (counted total p)) : CommandAt mem total p := by
  induction fuel generalizing p items with
  | zero => cases hends
  | succ fuel ih =>
    by_cases hleft : 0 < count total p
    · rw [decodeAll_next hleft] at hends
      obtain ⟨⟨ret, item, d⟩, hd, hends⟩ := exists_of_bind_ok hends
      obtain ⟨q, rfl, htakes⟩ := (takesBytes mem total fuel).decode hd
      have hlt : count total q < count total p := hlower _ _ _ _ _ (.start _) hleft hd
      exact .value hleft htakes ((count_lt_iff hleft htakes.le).mp hlt)
        (ih hends (hlower.next hleft hd))
    · exact .done (Int.not_lt.mp hleft)

theorem CommandAt.decodeAll_ends (h : CommandAt mem total p) :
    ∃ n, ∀ fuel, n ≤ fuel → ∀ items, ∃ items',
      decodeAll mem fuel items (counted total p) = .ok items' := by
  induction h with
  | done hleft => exact exists_fuel_succ 0 fun fuel _ items => ⟨items, decodeAll_done hleft⟩
  | value hleft htakes _ _ ih =>
    obtain ⟨n, hreturns⟩ := htakes.returns
    obtain ⟨m, ih⟩ := ih
    refine exists_fuel_succ (n + m) fun fuel hfuel items => ?_
    obtain ⟨item, hd⟩ := hreturns fuel (by omega)
    rw [decodeAll_next hleft, hd]
    exact ih fuel (by omega) (items ++ [item])

/-- A call at a position where a value stands ends behind this value. -/
theorem Takes.eq_of_decode {ret ret' : RtmpRet} {item : AmfItem} {d : AmfReader}
    (h : Takes mem total .value p ret q)
    (hd : decode mem fuel (counted total p) = .ok (ret', item, d)) : d = counted total q := by
  obtain ⟨q', rfl, h'⟩ := (takesBytes mem total fuel).decode hd
  exact h'.unique h

theorem CommandAt.callsLower (h : CommandAt mem total p) :
    CallsLower mem (counted total p) := by
  induction h with
  | done hleft =>
    intro d fuel ret item d' hvisit hpos _
    cases hvisit with
    | start => exact absurd hpos (Int.not_lt.mpr hleft)
    | next hpos' => exact absurd hpos' (Int.not_lt.mpr hleft)
  | @value p q ret hleft htakes hlower _ ih =>
    intro d fuel ret' item d' hvisit hpos hd
    cases hvisit with
    | start =>
      rw [htakes.eq_of_decode hd]
      exact (count_lt_iff hleft htakes.le).mpr hlower
    | next hpos' hd' hvisit =>
      rw [htakes.eq_of_decode hd'] at hvisit
      exact ih d fuel ret' item d' hvisit hpos hd

/-- **Termination.**  Whatever stands behind the payload of a command, the loop over it ends,
and every call of `decode` has made the count smaller, exactly when values that are complete
stand there until nothing is counted, each with a marker that is known and of a size that
does not bring the count round. -/
theorem terminates_iff (payload : Bytes) (behind : Nat → UInt8) :
    (LoopEnds (memory payload behind) (start payload) ∧
      CallsLower (memory payload behind) (start payload)) ↔
      CommandAt (memory payload behind) payload.length 0 := by
  rw [start_eq_counted]
  constructor
  · rintro ⟨⟨fuel, items, hends⟩, hlower⟩
    exact commandAt_of_ends hends hlower
  · intro h
    obtain ⟨n, hn⟩ := h.decodeAll_ends
    exact ⟨⟨n, hn n (Nat.le_refl n) []⟩, h.callsLower⟩

/-- At a marker that is not known, no number of iterations is enough. -/
theorem decodeAll_unknown {c : AmfReader} (hpos : 0 < c.leftLen)
    (hbig : ¬ mem c.pos ≤ lastMarker) (fuel : Nat) (items items' : List AmfItem) :
    decodeAll mem fuel items c ≠ .ok items' := by
  induction fuel generalizing items with
  | zero => exact fun h => by cases h
  | succ fuel ih =>
    rw [decodeAll_next hpos]
    cases fuel with
    | zero => exact fun h => by cases h
    | succ fuel =>
      rw [decode_unknown hbig, ok_bind]
      exact ih _

/-- A command whose first byte is no marker, with any bytes behind it. -/
theorem not_terminates_unknown :
    ¬ ∃ behind, LoopEnds (memory [0xff] behind) (start [0xff]) := by
  rintro ⟨behind, fuel, items, hends⟩
  have hbig : ¬ memory [0xff] behind 0 ≤ lastMarker := show ¬ (0xff : UInt8) ≤ 0x0d by decide
  exact decodeAll_unknown (by decide) hbig fuel [] items hends

/-- A long string of `0x90000000` bytes brings a count of 5 round. -/
example : ¬ Lowers 5 (5 + 0x90000000) := by
  unfold Lowers
  decide

end AmfMemory

end MediaServer
