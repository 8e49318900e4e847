import MediaServer.Lib.Run
import MediaServer.Rtmp.Amf0

/-!
# The calls of the loop over a command

`handle_client_command_message` and `handle_server_command_message` decode the payload of
a command with the same loop: as long as bytes are left, `decode` is called, and what it
returns is not looked at.  These are the calls in memory that has an end; `AmfTermination`
says when the loop ends.

* `movesOn`: a call that returns has moved the pointer and the count by the same
  number of bytes, and by at least one when it knows the marker it finds.
* `avoids_hang`: a call returns or ends the program.  Every nested call reads a byte of its
  own, so that a decoder runs out of the memory it reads before it runs out of fuel.
-/

namespace MediaServer

open Run

/-! ## Pointers -/

namespace Cursor

theorem skip_skip (m n : Nat) (c : Cursor) : (c.skip m).skip n = c.skip (m + n) := by
  simp only [skip, List.drop_drop, Cursor.mk.injEq, true_and]
  omega

theorem skip_zero (c : Cursor) : c.skip 0 = c := by
  simp [skip]

/-- The bytes that were read stand at the front of the memory. -/
theorem peek_ok {n : Nat} {c : Cursor} {bytes : Bytes} (h : c.peek n = .ok bytes) :
    bytes.length = n ∧ c.data = bytes ++ (c.skip n).data := by
  unfold peek at h
  split_ifs at h with hlen
  simp only [Except.ok.injEq] at h
  subst h
  exact ⟨List.length_take_of_le (Nat.not_lt.mp hlen), (List.take_append_drop n c.data).symm⟩

theorem peek_append {n : Nat} {bytes rest : Bytes} (hlen : bytes.length = n) (len : Int) :
    peek n ⟨bytes ++ rest, len⟩ = .ok bytes := by
  subst hlen
  simp [peek]

theorem skip_append {n : Nat} {bytes rest : Bytes} (hlen : bytes.length = n) (len : Int) :
    skip n ⟨bytes ++ rest, len⟩ = ⟨rest, len - n⟩ := by
  subst hlen
  simp [skip]

theorem skip_cons (marker : UInt8) (rest : Bytes) (len : Int) :
    skip 1 ⟨marker :: rest, len⟩ = ⟨rest, len - 1⟩ := @skip_append 1 [marker] rest rfl len

theorem peek_one {c : Cursor} {marker : UInt8} (h : c.data.head? = some marker) :
    c.peek 1 = .ok [marker] := by
  obtain ⟨data, len⟩ := c
  obtain ⟨rest, rfl⟩ := List.head?_eq_some_iff.mp h
  exact @peek_append 1 [marker] rest rfl len

/-- The byte that says what follows decides how the caller goes on. -/
theorem bind_peek_one {α : Type} {c : Cursor} {marker : UInt8} (h : c.data.head? = some marker)
    (next : Bytes → Except Fault α) : (c.peek 1 >>= next) = next [marker] := by
  rw [peek_one h, ok_bind]

theorem avoids_peek_hang (n : Nat) (c : Cursor) : Avoids Fault.hang (c.peek n) := by
  unfold peek
  split_ifs
  · exact avoids_of_ne (by decide)
  · exact avoids_ok _ _

/-- The pointer has moved from `c` to `d`, over at least `least` bytes. -/
def Moves (least : Nat) (c d : Cursor) : Prop := ∃ n, least ≤ n ∧ d = c.skip n

variable {c d e : Cursor} {m n : Nat}

theorem moves_skip (n : Nat) (c : Cursor) : Moves n c (c.skip n) := ⟨n, Nat.le_refl n, rfl⟩

theorem moves_refl (c : Cursor) : Moves 0 c c := ⟨0, Nat.le_refl 0, (skip_zero c).symm⟩

theorem Moves.trans (h : Moves m c d) (h' : Moves n d e) : Moves (m + n) c e := by
  obtain ⟨i, hi, rfl⟩ := h
  obtain ⟨j, hj, rfl⟩ := h'
  exact ⟨i + j, by omega, skip_skip i j c⟩

theorem Moves.mono (h : Moves m c d) (hn : n ≤ m) : Moves n c d :=
  h.imp fun _ hk => ⟨Nat.le_trans hn hk.1, hk.2⟩

theorem Moves.leftLen_le (h : Moves n c d) : d.leftLen ≤ c.leftLen - n := by
  obtain ⟨k, hk, rfl⟩ := h
  simp only [skip]
  omega

theorem Moves.length_le (h : Moves n c d) : d.data.length ≤ c.data.length - n := by
  obtain ⟨k, hk, rfl⟩ := h
  simp only [skip, List.length_drop]
  omega

end Cursor

namespace AmfDecoder

open Cursor

variable {fuel : Nat} {c c' : Cursor}

/-! ## One equation for each marker -/

/-- `AMF_DATA_TYPE_UNSUPPORTED`, the last marker that `decode` knows. -/
def lastMarker : UInt8 := 0x0d

theorem marker_cases {marker : UInt8} (h : marker ≤ lastMarker) :
    marker = 0x00 ∨ marker = 0x01 ∨ marker = 0x02 ∨ marker = 0x03 ∨ marker = 0x04 ∨
      marker = 0x05 ∨ marker = 0x06 ∨ marker = 0x07 ∨ marker = 0x08 ∨ marker = 0x09 ∨
      marker = 0x0a ∨ marker = 0x0b ∨ marker = 0x0c ∨ marker = 0x0d := by
  have hnat : marker.toNat ≤ 13 := UInt8.le_iff_toNat_le.mp h
  simp only [← UInt8.toNat_inj]
  simp only [UInt8.reduceToNat]
  omega

theorem decode_empty (h : c.data = []) : decode (fuel + 1) c = .error .outOfBounds := by
  rw [decode]
  simp [Cursor.peek, h]
  rfl

/-- A marker that is not known stays where it is. -/
theorem decode_unknown {marker : UInt8} (h : c.data.head? = some marker)
    (hbig : ¬ marker ≤ lastMarker) :
    decode (fuel + 1) c = .ok (.error, .unknown, c) := by
  refine (bind_peek_one h _).trans ?_
  exact if_pos (UInt8.not_le.mp hbig)

theorem decode_number (h : c.data.head? = some 0x00) :
    decode (fuel + 1) c =
      ((c.skip 1).peek 8 >>= fun bytes =>
        .ok (.ok, .number (read8bytes bytes), (c.skip 1).skip 8)) := by
  exact bind_peek_one h _

theorem decode_bool (h : c.data.head? = some 0x01) :
    decode (fuel + 1) c =
      ((c.skip 1).peek 1 >>= fun bytes =>
        .ok (.ok, .bool (bytes.headD 0 != 0), (c.skip 1).skip 1)) := by
  exact bind_peek_one h _

theorem decode_string (h : c.data.head? = some 0x02) :
    decode (fuel + 1) c =
      ((c.skip 1).peek 2 >>= fun bytes =>
        decodeText (read2bytes bytes).toNat ((c.skip 1).skip 2) >>= fun text =>
          .ok (.ok, .string text.1, text.2)) := by
  exact bind_peek_one h _

theorem decode_object (h : c.data.head? = some 0x03) :
    decode (fuel + 1) c =
      (decodeAmfObject fuel [] (c.skip 1) >>= fun out =>
        .ok (out.1, .object out.2.1, out.2.2)) := by
  exact bind_peek_one h _

/-- The markers without a case of their own: a movie clip, and an end without an object. -/
theorem decode_rejected (h : c.data.head? = some 0x04 ∨ c.data.head? = some 0x09) :
    decode (fuel + 1) c = .ok (.error, .unknown, c.skip 1) := by
  rcases h with h | h
  · exact bind_peek_one h _
  · exact bind_peek_one h _

theorem decode_null (h : c.data.head? = some 0x05) :
    decode (fuel + 1) c = .ok (.ok, .null, c.skip 1) := by
  exact bind_peek_one h _

theorem decode_undefined (h : c.data.head? = some 0x06) :
    decode (fuel + 1) c = .ok (.ok, .undefined, c.skip 1) := by
  exact bind_peek_one h _

theorem decode_reference (h : c.data.head? = some 0x07) :
    decode (fuel + 1) c = .error .assertFailed := by
  exact bind_peek_one h _

theorem decode_mixedArray (h : c.data.head? = some 0x08) :
    decode (fuel + 1) c =
      ((c.skip 1).peek 4 >>= fun _ =>
        decodeAmfObject fuel [] ((c.skip 1).skip 4) >>= fun out =>
          .ok (out.1, .object out.2.1, out.2.2)) := by
  exact bind_peek_one h _

theorem decode_array (h : c.data.head? = some 0x0a) :
    decode (fuel + 1) c =
      (decodeAmfArray fuel (c.skip 1) >>= fun out => .ok (.ok, .array out.2.1, out.2.2)) := by
  exact bind_peek_one h _

theorem decode_date (h : c.data.head? = some 0x0b) :
    decode (fuel + 1) c =
      ((c.skip 1).peek 8 >>= fun bytes =>
        .ok (.ok, .date (read8bytes bytes), ((c.skip 1).skip 8).skip 2)) := by
  exact bind_peek_one h _

theorem decode_longString (h : c.data.head? = some 0x0c) :
    decode (fuel + 1) c =
      ((c.skip 1).peek 4 >>= fun bytes =>
        decodeText (read4bytes bytes).toNat ((c.skip 1).skip 4) >>= fun text =>
          .ok (.ok, .longString text.1, text.2)) := by
  exact bind_peek_one h _

theorem decode_unsupported (h : c.data.head? = some 0x0d) :
    decode (fuel + 1) c = .ok (.ok, .longString [], c.skip 1) := by
  exact bind_peek_one h _

/-! ## Every call moves on -/

theorem decodeText_ok {len : Nat} {text : Bytes × Cursor} (h : decodeText len c = .ok text) :
    c.peek len = .ok text.1 ∧ text.2 = c.skip len := by
  obtain ⟨desc, hdesc, h⟩ := exists_of_bind_ok h
  cases h
  exact ⟨hdesc, rfl⟩

/-- What a call of `decode` that returns has found. -/
inductive DecodeCase (fuel : Nat) (c : Cursor) : RtmpRet × AmfItem × Cursor → Prop
  | unknown {marker : UInt8} (hm : c.data.head? = some marker) (hbig : ¬ marker ≤ lastMarker) :
      DecodeCase fuel c (.error, .unknown, c)
  | rejected {marker : UInt8} (hm : c.data.head? = some marker)
      (hmarker : marker = 0x04 ∨ marker = 0x09) :
      DecodeCase fuel c (.error, .unknown, c.skip 1)
  | bare {marker : UInt8} {item : AmfItem} (hm : c.data.head? = some marker)
      (hmarker : marker = 0x05 ∨ marker = 0x06 ∨ marker = 0x0d) :
      DecodeCase fuel c (.ok, item, c.skip 1)
  | number {bits : Bytes} (hm : c.data.head? = some 0x00)
      (hbits : (c.skip 1).peek 8 = .ok bits) :
      DecodeCase fuel c (.ok, .number (read8bytes bits), (c.skip 1).skip 8)
  | bool {value : Bytes} (hm : c.data.head? = some 0x01)
      (hvalue : (c.skip 1).peek 1 = .ok value) :
      DecodeCase fuel c (.ok, .bool (value.headD 0 != 0), (c.skip 1).skip 1)
  | string {len text : Bytes} (hm : c.data.head? = some 0x02)
      (hlen : (c.skip 1).peek 2 = .ok len)
      (htext : ((c.skip 1).skip 2).peek (read2bytes len).toNat = .ok text) :
      DecodeCase fuel c
        (.ok, .string text, ((c.skip 1).skip 2).skip (read2bytes len).toNat)
  | object {ret : RtmpRet} {fields : List (Bytes × AmfItem)} {d : Cursor}
      (hm : c.data.head? = some 0x03)
      (hfields : decodeAmfObject fuel [] (c.skip 1) = .ok (ret, fields, d)) :
      DecodeCase fuel c (ret, .object fields, d)
  | mixedArray {count : Bytes} {ret : RtmpRet} {fields : List (Bytes × AmfItem)} {d : Cursor}
      (hm : c.data.head? = some 0x08) (hcount : (c.skip 1).peek 4 = .ok count)
      (hfields : decodeAmfObject fuel [] ((c.skip 1).skip 4) = .ok (ret, fields, d)) :
      DecodeCase fuel c (ret, .object fields, d)
  | array {ret : RtmpRet} {items : List AmfItem} {d : Cursor} (hm : c.data.head? = some 0x0a)
      (hitems : decodeAmfArray fuel (c.skip 1) = .ok (ret, items, d)) :
      DecodeCase fuel c (.ok, .array items, d)
  | date {bits : Bytes} (hm : c.data.head? = some 0x0b)
      (hbits : (c.skip 1).peek 8 = .ok bits) :
      DecodeCase fuel c (.ok, .date (read8bytes bits), ((c.skip 1).skip 8).skip 2)
  | longString {len text : Bytes} (hm : c.data.head? = some 0x0c)
      (hlen : (c.skip 1).peek 4 = .ok len)
      (htext : ((c.skip 1).skip 4).peek (read4bytes len).toNat = .ok text) :
      DecodeCase fuel c
        (.ok, .longString text, ((c.skip 1).skip 4).skip (read4bytes len).toNat)

/-- The calls that find a marker they know. -/
theorem decodeCase_of_known {marker : UInt8} (hm : c.data.head? = some marker)
    (hknown : marker ≤ lastMarker) {out : RtmpRet × AmfItem × Cursor}
    (h : decode (fuel + 1) c = .ok out) : DecodeCase fuel c out := by
  rcases marker_cases hknown with
    rfl | rfl | rfl | rfl | rfl | rfl | rfl | rfl | rfl | rfl | rfl | rfl | rfl | rfl
  · rw [decode_number hm] at h
    obtain ⟨bits, hbits, h⟩ := exists_of_bind_ok h
    cases h
    exact .number hm hbits
  · rw [decode_bool hm] at h
    obtain ⟨value, hvalue, h⟩ := exists_of_bind_ok h
    cases h
    exact .bool hm hvalue
  · rw [decode_string hm] at h
    obtain ⟨len, hlen, h⟩ := exists_of_bind_ok h
    obtain ⟨text, htext, h⟩ := exists_of_bind_ok h
    cases h
    rw [(decodeText_ok htext).2]
    exact .string hm hlen (decodeText_ok htext).1
  · rw [decode_object hm] at h
    obtain ⟨out, hout, h⟩ := exists_of_bind_ok h
    cases h
    exact .object hm hout
  · rw [decode_rejected (Or.inl hm)] at h
    cases h
    exact .rejected hm (Or.inl rfl)
  · rw [decode_null hm] at h
    cases h
    exact .bare hm (Or.inl rfl)
  · rw [decode_undefined hm] at h
    cases h
    exact .bare hm (Or.inr (Or.inl rfl))
  · rw [decode_reference hm] at h
    cases h
  · rw [decode_mixedArray hm] at h
    obtain ⟨count, hcount, h⟩ := exists_of_bind_ok h
    obtain ⟨out, hout, h⟩ := exists_of_bind_ok h
    cases h
    exact .mixedArray hm hcount hout
  · rw [decode_rejected (Or.inr hm)] at h
    cases h
    exact .rejected hm (Or.inr rfl)
  · rw [decode_array hm] at h
    obtain ⟨out, hout, h⟩ := exists_of_bind_ok h
    cases h
    exact .array hm hout
  · rw [decode_date hm] at h
    obtain ⟨bits, hbits, h⟩ := exists_of_bind_ok h
    cases h
    exact .date hm hbits
  · rw [decode_longString hm] at h
    obtain ⟨len, hlen, h⟩ := exists_of_bind_ok h
    obtain ⟨text, htext, h⟩ := exists_of_bind_ok h
    cases h
    rw [(decodeText_ok htext).2]
    exact .longString hm hlen (decodeText_ok htext).1
  · rw [decode_unsupported hm] at h
    cases h
    exact .bare hm (Or.inr (Or.inr rfl))

theorem decodeCase_of_ok {out : RtmpRet × AmfItem × Cursor}
    (h : decode (fuel + 1) c = .ok out) : DecodeCase fuel c out := by
  rcases hm : c.data.head? with _ | marker
  · rw [decode_empty (List.head?_eq_none_iff.mp hm)] at h
    cases h
  · by_cases hknown : marker ≤ lastMarker
    · exact decodeCase_of_known hm hknown h
    · rw [decode_unknown hm hknown] at h
      cases h
      exact .unknown hm hknown

/-- What every call of the decoder does to the pointer, with `fuel` to go. -/
structure MovesOn (fuel : Nat) : Prop where
  decode : ∀ {c ret item c'}, AmfDecoder.decode fuel c = .ok (ret, item, c') →
    Moves 0 c c' ∧ (∀ marker, c.data.head? = some marker → marker ≤ lastMarker → Moves 1 c c') ∧
      (ret = .ok → Moves 1 c c')
  decodeAmfObject : ∀ {fields c ret fields' c'},
    AmfDecoder.decodeAmfObject fuel fields c = .ok (ret, fields', c') → Moves 0 c c'
  decodeAmfArray : ∀ {c ret items c'},
    AmfDecoder.decodeAmfArray fuel c = .ok (ret, items, c') → Moves 0 c c'
  decodeItems : ∀ {count items c ret items' c'},
    AmfDecoder.decodeItems fuel count items c = .ok (ret, items', c') → Moves 0 c c'

/-- A marker that is known is consumed, whatever comes behind it. -/
theorem DecodeCase.moves (h : MovesOn fuel) {out : RtmpRet × AmfItem × Cursor}
    (hcase : DecodeCase fuel c out) {marker : UInt8} (hm : c.data.head? = some marker)
    (hknown : marker ≤ lastMarker) : Moves 1 c out.2.2 := by
  have hskip := moves_skip 1 c
  cases hcase with
  | unknown hm' hbig =>
    rw [hm, Option.some.injEq] at hm'
    exact absurd (hm' ▸ hknown) hbig
  | rejected => exact hskip
  | bare => exact hskip
  | number => exact (hskip.trans (moves_skip 8 _)).mono (by omega)
  | bool => exact (hskip.trans (moves_skip 1 _)).mono (by omega)
  | string =>
    exact (hskip.trans ((moves_skip 2 _).trans (moves_skip _ _))).mono (by omega)
  | object _ hfields => exact hskip.trans (h.decodeAmfObject hfields)
  | mixedArray _ _ hfields =>
    exact (hskip.trans ((moves_skip 4 _).trans (h.decodeAmfObject hfields))).mono (by omega)
  | array _ hitems => exact hskip.trans (h.decodeAmfArray hitems)
  | date => exact (hskip.trans ((moves_skip 8 _).trans (moves_skip 2 _))).mono (by omega)
  | longString =>
    exact (hskip.trans ((moves_skip 4 _).trans (moves_skip _ _))).mono (by omega)

/-- A key that is not empty stands at `c`, and its value begins at `d`. -/
def KeyAt (c : Cursor) (key : Bytes) (d : Cursor) : Prop :=
  ∃ lenBytes, c.peek 2 = .ok lenBytes ∧ read2bytes lenBytes ≠ 0 ∧
    (c.skip 2).peek (read2bytes lenBytes).toNat = .ok key ∧
    d = (c.skip 2).skip (read2bytes lenBytes).toNat

theorem KeyAt.moves {key : Bytes} {d : Cursor} (h : KeyAt c key d) : Moves 3 c d := by
  obtain ⟨lenBytes, -, hne, -, rfl⟩ := h
  have hpos : 0 < (read2bytes lenBytes).toNat :=
    Nat.pos_of_ne_zero fun h => hne (UInt16.toNat_inj.mp h)
  exact ((moves_skip 2 c).trans (moves_skip _ _)).mono (by omega)

/-- An iteration of `decode_amf_object` that reads a key. -/
theorem decodeAmfObject_key {fields : List (Bytes × AmfItem)} {key : Bytes} {d : Cursor}
    (hpos : 0 < c.leftLen) (h : KeyAt c key d) :
    decodeAmfObject (fuel + 1) fields c =
      (d.peek 1 >>= fun bytes =>
        if bytes.headD 0 > lastMarker then .ok (.error, fields, d)
        else
          decode fuel d >>= fun out =>
            if out.1 ≠ .ok then .ok (out.1, fields, out.2.2)
            else decodeAmfObject fuel (insertField key out.2.1 fields) out.2.2) := by
  obtain ⟨lenBytes, hlen, hne, hkey, rfl⟩ := h
  rw [decodeAmfObject, if_neg (not_not.mpr hpos), hlen, ok_bind, if_neg hne, decodeText, hkey]
  rfl

/-- An iteration of `decode_amf_object` that reads the end of the object. -/
theorem decodeAmfObject_end {fields : List (Bytes × AmfItem)} {lenBytes : Bytes}
    (hpos : 0 < c.leftLen) (hlen : c.peek 2 = .ok lenBytes) (hzero : read2bytes lenBytes = 0) :
    decodeAmfObject (fuel + 1) fields c =
      ((c.skip 2).peek 1 >>= fun bytes =>
        if bytes.headD 0 ≠ 0x09 then .error .assertFailed
        else .ok (.ok, fields, c.skip 2)) := by
  rw [decodeAmfObject, if_neg (not_not.mpr hpos), hlen, ok_bind, if_pos hzero]
  rfl

theorem eq_zeros_of_read2bytes {len : Bytes} (hlen : len.length = 2)
    (h : read2bytes len = 0) : len = [0x00, 0x00] := by
  obtain ⟨high, low, rfl⟩ := List.length_eq_two.mp hlen
  have hhigh := high.toNat_lt
  have hlow := low.toNat_lt
  have hvalue : (high.toNat * 256 + low.toNat) % 2 ^ 16 = 0 := by
    simpa [read2bytes, BigEndian.value, ← UInt16.toNat_inj] using h
  have hhigh' : high = 0x00 := UInt8.toNat_inj.mp (show high.toNat = 0 by omega)
  have hlow' : low = 0x00 := UInt8.toNat_inj.mp (show low.toNat = 0 by omega)
  rw [hhigh', hlow']

/-- The byte that was read. -/
theorem head_of_peek_one {bytes : Bytes} (h : c.peek 1 = .ok bytes) :
    c.data.head? = some (bytes.headD 0) := by
  obtain ⟨hlen, hdata⟩ := peek_ok h
  obtain ⟨byte, rfl⟩ := List.length_eq_one_iff.mp hlen
  rw [hdata]
  rfl

/-- What a call of `decode_amf_object` that returns has found. -/
inductive ObjectCase (fuel : Nat) (fields : List (Bytes × AmfItem)) (c : Cursor) :
    RtmpRet × List (Bytes × AmfItem) × Cursor → Prop
  | noneLeft (h : c.leftLen ≤ 0) : ObjectCase fuel fields c (.ok, fields, c)
  | objectEnd {lenBytes : Bytes} (hpos : 0 < c.leftLen) (hlen : c.peek 2 = .ok lenBytes)
      (hzero : read2bytes lenBytes = 0) (hend : (c.skip 2).data.head? = some 0x09) :
      ObjectCase fuel fields c (.ok, fields, c.skip 2)
  | unknown {key : Bytes} {d : Cursor} {marker : UInt8} (hpos : 0 < c.leftLen)
      (hkey : KeyAt c key d) (hm : d.data.head? = some marker) (hbig : ¬ marker ≤ lastMarker) :
      ObjectCase fuel fields c (.error, fields, d)
  | failed {key : Bytes} {d d' : Cursor} {ret : RtmpRet} {item : AmfItem} (hpos : 0 < c.leftLen)
      (hkey : KeyAt c key d) (hd : decode fuel d = .ok (ret, item, d')) (hret : ret ≠ .ok) :
      ObjectCase fuel fields c (ret, fields, d')
  | field {key : Bytes} {d d' : Cursor} {item : AmfItem}
      {out : RtmpRet × List (Bytes × AmfItem) × Cursor} (hpos : 0 < c.leftLen)
      (hkey : KeyAt c key d) (hd : decode fuel d = .ok (.ok, item, d'))
      (hrest : decodeAmfObject fuel (insertField key item fields) d' = .ok out) :
      ObjectCase fuel fields c out

theorem objectCase_of_ok {fields : List (Bytes × AmfItem)}
    {out : RtmpRet × List (Bytes × AmfItem) × Cursor}
    (h : decodeAmfObject (fuel + 1) fields c = .ok out) : ObjectCase fuel fields c out := by
  by_cases hpos : 0 < c.leftLen
  · rcases hlen : c.peek 2 with e | lenBytes
    · rw [decodeAmfObject, if_neg (not_not.mpr hpos), hlen] at h
      cases h
    · by_cases hzero : read2bytes lenBytes = 0
      · rw [decodeAmfObject_end hpos hlen hzero] at h
        obtain ⟨bytes, hbytes, h⟩ := exists_of_bind_ok h
        split_ifs at h with hend
        cases h
        refine .objectEnd hpos hlen hzero ?_
        rw [head_of_peek_one hbytes, not_not.mp hend]
      · rcases hkey : (c.skip 2).peek (read2bytes lenBytes).toNat with e | key
        · rw [decodeAmfObject, if_neg (not_not.mpr hpos), hlen, ok_bind, if_neg hzero,
            decodeText, hkey] at h
          cases h
        · have hat : KeyAt c key ((c.skip 2).skip (read2bytes lenBytes).toNat) :=
            ⟨lenBytes, hlen, hzero, hkey, rfl⟩
          rw [decodeAmfObject_key hpos hat] at h
          obtain ⟨bytes, hbytes, h⟩ := exists_of_bind_ok h
          split_ifs at h with hbig
          · cases h
            exact .unknown hpos hat (head_of_peek_one hbytes) (UInt8.not_le.mpr hbig)
          · obtain ⟨⟨ret, item, d'⟩, hd, h⟩ := exists_of_bind_ok h
            split_ifs at h with hret
            · cases h
              exact .failed hpos hat hd hret
            · simp only [not_not] at hret
              subst hret
              exact .field hpos hat hd h
  · rw [decodeAmfObject, if_pos hpos] at h
    cases h
    exact .noneLeft (Int.not_lt.mp hpos)

theorem decodeItems_succ (count : Nat) (items : List AmfItem) :
    decodeItems (fuel + 1) (count + 1) items c =
      (decode fuel c >>= fun out =>
        if out.1 ≠ .ok then .ok (out.1, items, out.2.2)
        else decodeItems fuel count (items ++ [out.2.1]) out.2.2) := by
  rw [decodeItems]
  rfl

theorem movesOn (fuel : Nat) : MovesOn fuel := by
  induction fuel with
  | zero =>
    refine ⟨fun {c ret item c'} h => ?_, fun {fields c ret fields' c'} h => ?_,
      fun {c ret items c'} h => ?_, fun {count items c ret items' c'} h => ?_⟩
    · cases h
    · cases h
    · cases h
    · cases h
  | succ fuel ih =>
    refine ⟨fun {c ret item c'} h => ?_, fun {fields c ret fields' c'} h => ?_,
      fun {c ret items c'} h => ?_, fun {count items c ret items' c'} h => ?_⟩
    · rcases hm : c.data.head? with _ | marker
      · rw [decode_empty (List.head?_eq_none_iff.mp hm)] at h
        cases h
      · by_cases hknown : marker ≤ lastMarker
        · have hone := (decodeCase_of_known hm hknown h).moves ih hm hknown
          exact ⟨hone.mono (by omega), fun _ _ _ => hone, fun _ => hone⟩
        · rw [decode_unknown hm hknown] at h
          cases h
          refine ⟨moves_refl c, fun marker' hm' hknown' => ?_, fun hret => by cases hret⟩
          cases hm'
          exact absurd hknown' hknown
    · rcases objectCase_of_ok h with hnone | ⟨hpos, hlen, hzero, hend⟩ | ⟨hpos, hkey, hm, hbig⟩ |
        ⟨hpos, hkey, hd, hret⟩ | ⟨hpos, hkey, hd, hrest⟩
      · exact moves_refl c
      · exact (moves_skip 2 c).mono (by omega)
      · exact hkey.moves.mono (by omega)
      · exact (hkey.moves.trans (ih.decode hd).1).mono (by omega)
      · exact (hkey.moves.trans ((ih.decode hd).1.trans (ih.decodeAmfObject hrest))).mono
          (by omega)
    · rw [decodeAmfArray] at h
      obtain ⟨bytes, -, h⟩ := exists_of_bind_ok h
      exact ((moves_skip 4 c).trans (ih.decodeItems h)).mono (by omega)
    · cases count with
      | zero =>
        cases h
        exact moves_refl c
      | succ count =>
        rw [decodeItems_succ] at h
        obtain ⟨⟨ret', item, d⟩, hd, h⟩ := exists_of_bind_ok h
        split_ifs at h with hret
        · cases h
          exact (ih.decode hd).1
        · exact (ih.decode hd).1.trans (ih.decodeItems h)

/-! ## Every call returns -/

theorem length_skip (n : Nat) (c : Cursor) : (c.skip n).data.length = c.data.length - n := by
  simp [Cursor.skip]

theorem length_of_peek_ok {n : Nat} {bytes : Bytes} (h : c.peek n = .ok bytes) :
    n ≤ c.data.length := by
  obtain ⟨hlen, hdata⟩ := peek_ok h
  rw [hdata, List.length_append]
  omega

theorem avoids_decodeText_hang (len : Nat) (c : Cursor) :
    Avoids Fault.hang (decodeText len c) :=
  (avoids_peek_hang len c).bind fun _ _ => avoids_ok _ _

/-- The fuel of a call is enough when the bytes behind the pointer are fewer. -/
structure Returns (fuel : Nat) : Prop where
  decode : ∀ c, c.data.length < fuel → Avoids Fault.hang (AmfDecoder.decode fuel c)
  decodeAmfObject : ∀ fields c, c.data.length < fuel →
    Avoids Fault.hang (AmfDecoder.decodeAmfObject fuel fields c)
  decodeAmfArray : ∀ c, c.data.length < fuel →
    Avoids Fault.hang (AmfDecoder.decodeAmfArray fuel c)
  decodeItems : ∀ count items c, c.data.length + 1 < fuel →
    Avoids Fault.hang (AmfDecoder.decodeItems fuel count items c)

theorem Returns.decode_known (h : Returns fuel) {marker : UInt8}
    (hm : c.data.head? = some marker) (hknown : marker ≤ lastMarker)
    (hlen : c.data.length < fuel + 1) :
    Avoids Fault.hang (AmfDecoder.decode (fuel + 1) c) := by
  have hone : 1 ≤ c.data.length := length_of_peek_ok (peek_one hm)
  have hrest : (c.skip 1).data.length < fuel := by
    rw [length_skip]
    omega
  rcases marker_cases hknown with
    rfl | rfl | rfl | rfl | rfl | rfl | rfl | rfl | rfl | rfl | rfl | rfl | rfl | rfl
  · rw [decode_number hm]
    exact (avoids_peek_hang _ _).bind fun _ _ => avoids_ok _ _
  · rw [decode_bool hm]
    exact (avoids_peek_hang _ _).bind fun _ _ => avoids_ok _ _
  · rw [decode_string hm]
    exact (avoids_peek_hang _ _).bind fun _ _ =>
      (avoids_decodeText_hang _ _).bind fun _ _ => avoids_ok _ _
  · rw [decode_object hm]
    exact (h.decodeAmfObject [] _ hrest).bind fun _ _ => avoids_ok _ _
  · rw [decode_rejected (Or.inl hm)]
    exact avoids_ok _ _
  · rw [decode_null hm]
    exact avoids_ok _ _
  · rw [decode_undefined hm]
    exact avoids_ok _ _
  · rw [decode_reference hm]
    exact avoids_of_ne (by decide)
  · rw [decode_mixedArray hm]
    have hskip : ((c.skip 1).skip 4).data.length < fuel := by
      rw [length_skip]
      omega
    exact (avoids_peek_hang _ _).bind fun _ _ =>
      (h.decodeAmfObject [] _ hskip).bind fun _ _ => avoids_ok _ _
  · rw [decode_rejected (Or.inr hm)]
    exact avoids_ok _ _
  · rw [decode_array hm]
    exact (h.decodeAmfArray _ hrest).bind fun _ _ => avoids_ok _ _
  · rw [decode_date hm]
    exact (avoids_peek_hang _ _).bind fun _ _ => avoids_ok _ _
  · rw [decode_longString hm]
    exact (avoids_peek_hang _ _).bind fun _ _ =>
      (avoids_decodeText_hang _ _).bind fun _ _ => avoids_ok _ _
  · rw [decode_unsupported hm]
    exact avoids_ok _ _

theorem Returns.decodeAmfObject_succ (h : Returns fuel) (fields : List (Bytes × AmfItem))
    (hlen : c.data.length < fuel + 1) :
    Avoids Fault.hang (AmfDecoder.decodeAmfObject (fuel + 1) fields c) := by
  rw [AmfDecoder.decodeAmfObject]
  refine avoids_ite (avoids_ok _ _) ((avoids_peek_hang 2 c).bind fun lenBytes hbytes => ?_)
  by_cases hzero : read2bytes lenBytes = 0
  · rw [if_pos hzero]
    exact (avoids_peek_hang 1 _).bind fun _ _ =>
      avoids_ite (avoids_of_ne (by decide)) (avoids_ok _ _)
  · rw [if_neg hzero]
    refine (avoids_decodeText_hang _ _).bind fun text htext => ?_
    obtain ⟨hkey, hd⟩ := decodeText_ok htext
    have hmoves : Moves 3 c text.2 := KeyAt.moves ⟨lenBytes, hbytes, hzero, hkey, hd⟩
    have htwo := length_of_peek_ok hbytes
    have hless : text.2.data.length < fuel := by
      have hle := hmoves.length_le
      omega
    refine (avoids_peek_hang 1 _).bind fun _ _ => avoids_ite (avoids_ok _ _) ?_
    refine (h.decode _ hless).bind fun ⟨ret, item, d⟩ hout => avoids_ite (avoids_ok _ _) ?_
    have hle := ((movesOn fuel).decode hout).1.length_le
    exact h.decodeAmfObject _ d (by omega)

theorem returns (fuel : Nat) : Returns fuel := by
  induction fuel with
  | zero =>
    refine ⟨fun c hlen => ?_, fun fields c hlen => ?_, fun c hlen => ?_,
      fun count items c hlen => ?_⟩
    · exact absurd hlen (Nat.not_lt_zero _)
    · exact absurd hlen (Nat.not_lt_zero _)
    · exact absurd hlen (Nat.not_lt_zero _)
    · exact absurd hlen (Nat.not_lt_zero _)
  | succ fuel ih =>
    refine ⟨fun c hlen => ?_, fun fields c hlen => ih.decodeAmfObject_succ fields hlen,
      fun c hlen => ?_, fun count items c hlen => ?_⟩
    · rcases hm : c.data.head? with _ | marker
      · rw [decode_empty (List.head?_eq_none_iff.mp hm)]
        exact avoids_of_ne (by decide)
      · by_cases hknown : marker ≤ lastMarker
        · exact ih.decode_known hm hknown hlen
        · rw [decode_unknown hm hknown]
          exact avoids_ok _ _
    · rw [decodeAmfArray]
      refine (avoids_peek_hang 4 c).bind fun bytes hbytes => ih.decodeItems _ _ _ ?_
      have hfour := length_of_peek_ok hbytes
      rw [length_skip]
      omega
    · cases count with
      | zero => exact avoids_ok _ _
      | succ count =>
        rw [decodeItems_succ]
        refine (ih.decode c (by omega)).bind fun out hout => ?_
        by_cases hret : out.1 = .ok
        · rw [if_neg (not_not.mpr hret)]
          obtain ⟨ret, item, d⟩ := out
          have hlen' := (((movesOn fuel).decode hout).2.2 hret).length_le
          have hone : 1 ≤ c.data.length := by
            rcases hm : c.data with _ | ⟨marker, rest⟩
            · obtain ⟨fuel, rfl⟩ : ∃ k, fuel = k + 1 := ⟨fuel - 1, by omega⟩
              rw [decode_empty hm] at hout
              cases hout
            · simp
          exact ih.decodeItems _ _ _ (by simp only; omega)
        · rw [if_pos hret]
          exact avoids_ok _ _

/-- A call of `decode`, with fuel for every byte of the memory. -/
abbrev decodeValue (c : Cursor) : Except Fault (RtmpRet × AmfItem × Cursor) :=
  decode (c.data.length + 1) c

theorem avoids_hang (c : Cursor) : Avoids Fault.hang (decodeValue c) :=
  (returns _).decode c (Nat.lt_succ_self _)

/-! ## The loop -/

/-- The loop that begins at `c` is at `d` when an iteration begins, or when it ends. -/
inductive Visits : Cursor → Cursor → Prop
  | start (c : Cursor) : Visits c c
  | next {c c' d : Cursor} {ret : RtmpRet} {item : AmfItem} (hpos : 0 < c.leftLen)
      (hd : decodeValue c = .ok (ret, item, c')) (h : Visits c' d) : Visits c d

theorem decodeAll_next {items : List AmfItem} (hpos : 0 < c.leftLen) :
    decodeAll (fuel + 1) items c =
      (decodeValue c >>= fun out => decodeAll fuel (items ++ [out.2.1]) out.2.2) := by
  rw [decodeAll, if_pos hpos]

theorem decodeAll_done {items : List AmfItem} (h : c.leftLen ≤ 0) :
    decodeAll (fuel + 1) items c = .ok items := by
  rw [decodeAll, if_neg (Int.not_lt.mpr h)]
  rfl

/-- The pointer at the payload of a command, with the memory `after` it. -/
def commandCursor (payload after : Bytes) : Cursor :=
  { data := payload ++ after, leftLen := payload.length }

end AmfDecoder

end MediaServer
