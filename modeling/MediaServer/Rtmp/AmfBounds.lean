import MediaServer.Rtmp.AmfLoop

/-!
# Reads behind the payload

The decoder does not compare the lengths it reads with the bytes that are left.
`ValueAt`, `FieldsAt` and `ItemsAt` say, without the decoder, what must stand in the payload
for every read to stay inside it: complete values, and an end of an object with its marker.
An object may also be ended by the end of the payload.

`values_stay_inside_iff`: every byte the loop of a command reads belongs to the payload, the count
does not become negative and no assertion fails exactly when the payload is a sequence of
such values, or such a sequence up to a marker that `decode` does not know.  There the loop
stays, and reads that marker again and again.
-/

namespace MediaServer

open Run

/-! ## Complete values -/

namespace AmfDecoder

open Cursor

/-- The length and the text of a key that is not empty. -/
structure IsKey (len key : Bytes) : Prop where
  length_len : len.length = 2
  ne_zero : read2bytes len ≠ 0
  length_key : key.length = (read2bytes len).toNat

mutual

/-- `ValueAt input ret rest`: a complete value stands at the front of `input`, `decode`
returns `ret` for it, and `rest` is what it leaves. -/
inductive ValueAt : Bytes → RtmpRet → Bytes → Prop
  | number {bits rest : Bytes} (hbits : bits.length = 8) :
      ValueAt (0x00 :: (bits ++ rest)) .ok rest
  | bool {flag : UInt8} {rest : Bytes} : ValueAt (0x01 :: flag :: rest) .ok rest
  | string {len text rest : Bytes} (hlen : len.length = 2)
      (htext : text.length = (read2bytes len).toNat) :
      ValueAt (0x02 :: (len ++ (text ++ rest))) .ok rest
  | object {input rest : Bytes} {ret : RtmpRet} (h : FieldsAt input ret rest) :
      ValueAt (0x03 :: input) ret rest
  /-- A null, an undefined value or an unsupported one. -/
  | bare {marker : UInt8} {rest : Bytes} (h : marker = 0x05 ∨ marker = 0x06 ∨ marker = 0x0d) :
      ValueAt (marker :: rest) .ok rest
  /-- A movie clip, or an end without an object. -/
  | rejected {marker : UInt8} {rest : Bytes} (h : marker = 0x04 ∨ marker = 0x09) :
      ValueAt (marker :: rest) .error rest
  | mixedArray {count input rest : Bytes} {ret : RtmpRet} (hcount : count.length = 4)
      (h : FieldsAt input ret rest) : ValueAt (0x08 :: (count ++ input)) ret rest
  | array {count input rest : Bytes} (hcount : count.length = 4)
      (h : ItemsAt (read4bytes count).toNat input rest) :
      ValueAt (0x0a :: (count ++ input)) .ok rest
  | date {bits zone rest : Bytes} (hbits : bits.length = 8) (hzone : zone.length = 2) :
      ValueAt (0x0b :: (bits ++ (zone ++ rest))) .ok rest
  | longString {len text rest : Bytes} (hlen : len.length = 4)
      (htext : text.length = (read4bytes len).toNat) :
      ValueAt (0x0c :: (len ++ (text ++ rest))) .ok rest
  /-- No marker.  It is looked at and left where it is. -/
  | unknown {marker : UInt8} {rest : Bytes} (h : ¬ marker ≤ lastMarker) :
      ValueAt (marker :: rest) .error (marker :: rest)

/-- The fields of an object.  The marker of its end must be there, and it is not consumed. -/
inductive FieldsAt : Bytes → RtmpRet → Bytes → Prop
  | payloadEnd : FieldsAt [] .ok []
  | objectEnd {rest : Bytes} : FieldsAt (0x00 :: 0x00 :: 0x09 :: rest) .ok (0x09 :: rest)
  | failed {len key input rest : Bytes} {ret : RtmpRet} (hkey : IsKey len key)
      (h : ValueAt input ret rest) (hret : ret ≠ .ok) :
      FieldsAt (len ++ (key ++ input)) ret rest
  | field {len key input input' rest : Bytes} {ret : RtmpRet} (hkey : IsKey len key)
      (h : ValueAt input .ok input') (hrest : FieldsAt input' ret rest) :
      FieldsAt (len ++ (key ++ input)) ret rest

/-- The values of an array.  One that fails ends the array. -/
inductive ItemsAt : Nat → Bytes → Bytes → Prop
  | done {rest : Bytes} : ItemsAt 0 rest rest
  | failed {count : Nat} {input rest : Bytes} {ret : RtmpRet} (h : ValueAt input ret rest)
      (hret : ret ≠ .ok) : ItemsAt (count + 1) input rest
  | item {count : Nat} {input input' rest : Bytes} (h : ValueAt input .ok input')
      (hrest : ItemsAt count input' rest) : ItemsAt (count + 1) input rest

end

/-- Complete values up to the end, or up to a marker that is not known. -/
inductive ValuesAt : Bytes → Prop
  | done : ValuesAt []
  | value {input rest : Bytes} {ret : RtmpRet} (h : ValueAt input ret rest)
      (hrest : ValuesAt rest) : ValuesAt input
  | unknown {marker : UInt8} {rest : Bytes} (h : ¬ marker ≤ lastMarker) :
      ValuesAt (marker :: rest)

/-! ## The decoder inside the payload -/

/-- The pointer with `input` to go, and no memory behind it. -/
def inside (input : Bytes) : Cursor := { data := input, leftLen := input.length }

theorem inside_eq_commandCursor (input : Bytes) : inside input = commandCursor input [] := by
  simp [inside, commandCursor]

theorem peek_inside {n : Nat} {bytes : Bytes} (hlen : bytes.length = n) (rest : Bytes) :
    (inside (bytes ++ rest)).peek n = .ok bytes := peek_append hlen _

theorem skip_inside {n : Nat} {bytes : Bytes} (hlen : bytes.length = n) (rest : Bytes) :
    (inside (bytes ++ rest)).skip n = inside rest := by
  rw [inside, skip_append hlen, inside, List.length_append, Cursor.mk.injEq]
  exact ⟨rfl, by omega⟩

theorem skip_one_inside (marker : UInt8) (rest : Bytes) :
    (inside (marker :: rest)).skip 1 = inside rest :=
  @skip_inside 1 [marker] rfl rest

/-- A read inside the payload. -/
theorem exists_of_peek_inside {n : Nat} {input bytes : Bytes}
    (h : (inside input).peek n = .ok bytes) :
    ∃ rest, input = bytes ++ rest ∧ bytes.length = n ∧ (inside input).skip n = inside rest := by
  obtain ⟨hlen, hdata⟩ := peek_ok h
  refine ⟨_, hdata, hlen, ?_⟩
  have hskip := skip_inside hlen ((inside input).skip n).data
  rwa [← hdata] at hskip

/-- The zone of a date is skipped without a read. -/
theorem exists_of_skip_inside {n : Nat} {input : Bytes} (h : 0 ≤ ((inside input).skip n).leftLen) :
    ∃ bytes rest, input = bytes ++ rest ∧ bytes.length = n ∧
      (inside input).skip n = inside rest := by
  have hle : n ≤ input.length := by
    simp only [inside, Cursor.skip] at h
    omega
  have hlen := List.length_take_of_le hle
  refine ⟨input.take n, input.drop n, (List.take_append_drop n input).symm, hlen, ?_⟩
  have hskip := skip_inside hlen (input.drop n)
  rwa [List.take_append_drop] at hskip

variable {fuel : Nat} {input rest : Bytes} {c : Cursor} {ret : RtmpRet}

theorem exists_of_keyAt_inside {key : Bytes} {d : Cursor} (h : KeyAt (inside input) key d) :
    ∃ len input', input = len ++ (key ++ input') ∧ IsKey len key ∧ d = inside input' := by
  obtain ⟨len, hpeek, hne, hkey, rfl⟩ := h
  obtain ⟨rest, rfl, hlen, hskip⟩ := exists_of_peek_inside hpeek
  rw [hskip] at hkey ⊢
  obtain ⟨input', rfl, hlength, hskip'⟩ := exists_of_peek_inside hkey
  exact ⟨len, input', rfl, ⟨hlen, hne, hlength⟩, hskip'⟩

theorem keyAt_inside {len key : Bytes} (h : IsKey len key) (input : Bytes) :
    KeyAt (inside (len ++ (key ++ input))) key (inside input) := by
  refine ⟨len, peek_inside h.length_len _, h.ne_zero, ?_, ?_⟩
  · rw [skip_inside h.length_len]
    exact peek_inside h.length_key input
  · rw [skip_inside h.length_len, skip_inside h.length_key]

/-- What a call has read, when it has not left the payload. -/
structure Reads (fuel : Nat) : Prop where
  decode : ∀ {input ret item c}, AmfDecoder.decode fuel (inside input) = .ok (ret, item, c) →
    0 ≤ c.leftLen → ∃ rest, c = inside rest ∧ ValueAt input ret rest
  decodeAmfObject : ∀ {fields input ret fields' c},
    AmfDecoder.decodeAmfObject fuel fields (inside input) = .ok (ret, fields', c) →
    0 ≤ c.leftLen → ∃ rest, c = inside rest ∧ FieldsAt input ret rest
  decodeAmfArray : ∀ {input ret items c},
    AmfDecoder.decodeAmfArray fuel (inside input) = .ok (ret, items, c) → 0 ≤ c.leftLen →
    ∃ rest, c = inside rest ∧ ValueAt (0x0a :: input) .ok rest
  decodeItems : ∀ {count items input ret items' c},
    AmfDecoder.decodeItems fuel count items (inside input) = .ok (ret, items', c) →
    0 ≤ c.leftLen → ∃ rest, c = inside rest ∧ ItemsAt count input rest

theorem Reads.decode_succ (h : Reads fuel) {marker : UInt8} {out : RtmpRet × AmfItem × Cursor}
    (hcase : DecodeCase fuel (inside (marker :: input)) out) (hc : 0 ≤ out.2.2.leftLen) :
    ∃ rest, out.2.2 = inside rest ∧ ValueAt (marker :: input) out.1 rest := by
  have hone := skip_one_inside marker input
  cases hcase with
  | unknown hm hbig =>
    cases hm
    exact ⟨marker :: input, rfl, .unknown hbig⟩
  | rejected hm hmarker =>
    cases hm
    exact ⟨input, hone, .rejected hmarker⟩
  | bare hm hmarker =>
    cases hm
    exact ⟨input, hone, .bare hmarker⟩
  | number hm hbits =>
    cases hm
    rw [hone] at hbits ⊢
    obtain ⟨rest, rfl, hlen, hskip⟩ := exists_of_peek_inside hbits
    exact ⟨rest, hskip, .number hlen⟩
  | bool hm hvalue =>
    cases hm
    rw [hone] at hvalue ⊢
    obtain ⟨rest, rfl, hlen, hskip⟩ := exists_of_peek_inside hvalue
    obtain ⟨flag, rfl⟩ := List.length_eq_one_iff.mp hlen
    exact ⟨rest, hskip, .bool⟩
  | string hm hlen htext =>
    cases hm
    rw [hone] at hlen htext ⊢
    obtain ⟨input, rfl, hlength, hskip⟩ := exists_of_peek_inside hlen
    rw [hskip] at htext ⊢
    obtain ⟨rest, rfl, hlength', hskip'⟩ := exists_of_peek_inside htext
    exact ⟨rest, hskip', .string hlength hlength'⟩
  | object hm hfields =>
    cases hm
    rw [hone] at hfields
    obtain ⟨rest, hrest, hat⟩ := h.decodeAmfObject hfields hc
    exact ⟨rest, hrest, .object hat⟩
  | mixedArray hm hcount hfields =>
    cases hm
    rw [hone] at hcount hfields
    obtain ⟨input, rfl, hlength, hskip⟩ := exists_of_peek_inside hcount
    rw [hskip] at hfields
    obtain ⟨rest, hrest, hat⟩ := h.decodeAmfObject hfields hc
    exact ⟨rest, hrest, .mixedArray hlength hat⟩
  | array hm hitems =>
    cases hm
    rw [hone] at hitems
    exact h.decodeAmfArray hitems hc
  | date hm hbits =>
    cases hm
    rw [hone] at hbits hc ⊢
    obtain ⟨input, rfl, hlength, hskip⟩ := exists_of_peek_inside hbits
    rw [hskip] at hc ⊢
    obtain ⟨zone, rest, rfl, hzone, hskip'⟩ := exists_of_skip_inside hc
    exact ⟨rest, hskip', .date hlength hzone⟩
  | longString hm hlen htext =>
    cases hm
    rw [hone] at hlen htext ⊢
    obtain ⟨input, rfl, hlength, hskip⟩ := exists_of_peek_inside hlen
    rw [hskip] at htext ⊢
    obtain ⟨rest, rfl, hlength', hskip'⟩ := exists_of_peek_inside htext
    exact ⟨rest, hskip', .longString hlength hlength'⟩

theorem reads (fuel : Nat) : Reads fuel := by
  induction fuel with
  | zero =>
    refine ⟨fun {input ret item c} h => ?_, fun {fields input ret fields' c} h => ?_,
      fun {input ret items c} h => ?_, fun {count items input ret items' c} h => ?_⟩
    · cases h
    · cases h
    · cases h
    · cases h
  | succ fuel ih =>
    refine ⟨fun {input ret item c} h hc => ?_, fun {fields input ret fields' c} h hc => ?_,
      fun {input ret items c} h hc => ?_, fun {count items input ret items' c} h hc => ?_⟩
    · rcases input with _ | ⟨marker, input⟩
      · rw [decode_empty rfl] at h
        cases h
      · exact ih.decode_succ (decodeCase_of_ok h) hc
    · rcases objectCase_of_ok h with hnone | ⟨hpos, hlen, hzero, hend⟩ | ⟨hpos, hkey, hm, hbig⟩ |
        ⟨hpos, hkey, hd, hret⟩ | ⟨hpos, hkey, hd, hrest⟩
      · have hnil : input = [] := by
          rw [← List.length_eq_zero_iff]
          simp only [inside] at hnone
          omega
        subst hnil
        exact ⟨[], rfl, .payloadEnd⟩
      · obtain ⟨rest, rfl, hlength, hskip⟩ := exists_of_peek_inside hlen
        rw [hskip] at hend ⊢
        obtain ⟨rest, rfl⟩ := List.head?_eq_some_iff.mp hend
        rw [eq_zeros_of_read2bytes hlength hzero]
        exact ⟨_, rfl, .objectEnd⟩
      · obtain ⟨len, input', rfl, hiskey, rfl⟩ := exists_of_keyAt_inside hkey
        obtain ⟨rest, rfl⟩ := List.head?_eq_some_iff.mp hm
        exact ⟨_, rfl, .failed hiskey (.unknown hbig) (by decide)⟩
      · obtain ⟨len, input', rfl, hiskey, rfl⟩ := exists_of_keyAt_inside hkey
        obtain ⟨rest, rfl, hvalue⟩ := ih.decode hd hc
        exact ⟨rest, rfl, .failed hiskey hvalue hret⟩
      · obtain ⟨len, input', rfl, hiskey, rfl⟩ := exists_of_keyAt_inside hkey
        have hle := ((movesOn fuel).decodeAmfObject hrest).leftLen_le
        obtain ⟨input'', rfl, hvalue⟩ := ih.decode hd (by omega)
        obtain ⟨rest, rfl, hfields⟩ := ih.decodeAmfObject hrest hc
        exact ⟨rest, rfl, .field hiskey hvalue hfields⟩
    · rw [decodeAmfArray] at h
      obtain ⟨count, hcount, hout⟩ := exists_of_bind_ok h
      obtain ⟨input, rfl, hlen, hskip⟩ := exists_of_peek_inside hcount
      rw [hskip] at hout
      obtain ⟨rest, rfl, hitems⟩ := ih.decodeItems hout hc
      exact ⟨rest, rfl, .array hlen hitems⟩
    · cases count with
      | zero =>
        cases h
        exact ⟨input, rfl, .done⟩
      | succ count =>
        rw [decodeItems_succ] at h
        obtain ⟨⟨ret', item, d⟩, hd, h⟩ := exists_of_bind_ok h
        split_ifs at h with hret
        · cases h
          obtain ⟨rest, rfl, hvalue⟩ := ih.decode hd hc
          exact ⟨rest, rfl, .failed hvalue hret⟩
        · have hle := ((movesOn fuel).decodeItems h).leftLen_le
          obtain ⟨input', rfl, hvalue⟩ := ih.decode hd (by simp only at hle ⊢; omega)
          obtain ⟨rest, rfl, hitems⟩ := ih.decodeItems h hc
          obtain rfl : ret' = .ok := not_not.mp hret
          exact ⟨rest, rfl, .item hvalue hitems⟩

/-! ## Complete values are decoded -/

/-- What a call returns for complete values.  The memory ends with the payload, so that a
read behind it would be a fault. -/
structure Decodes (fuel : Nat) : Prop where
  decode : ∀ {input ret rest}, ValueAt input ret rest → input.length < fuel →
    ∃ item, AmfDecoder.decode fuel (inside input) = .ok (ret, item, inside rest)
  decodeAmfObject : ∀ {input ret rest} fields, FieldsAt input ret rest → input.length < fuel →
    ∃ fields',
      AmfDecoder.decodeAmfObject fuel fields (inside input) = .ok (ret, fields', inside rest)
  decodeAmfArray : ∀ {count input rest}, count.length = 4 →
    ItemsAt (read4bytes count).toNat input rest → (count ++ input).length < fuel →
    ∃ ret items,
      AmfDecoder.decodeAmfArray fuel (inside (count ++ input)) = .ok (ret, items, inside rest)
  decodeItems : ∀ {count input rest} items, ItemsAt count input rest →
    input.length + 1 < fuel →
    ∃ ret items',
      AmfDecoder.decodeItems fuel count items (inside input) = .ok (ret, items', inside rest)

theorem decodeText_inside {len : Nat} {text : Bytes} (h : text.length = len) (rest : Bytes) :
    decodeText len (inside (text ++ rest)) = .ok (text, inside rest) := by
  rw [decodeText, peek_inside h, ok_bind, skip_inside h]
  rfl

theorem Decodes.decode_succ (h : Decodes fuel) (hvalue : ValueAt input ret rest)
    (hfuel : input.length < fuel + 1) :
    ∃ item, AmfDecoder.decode (fuel + 1) (inside input) = .ok (ret, item, inside rest) := by
  cases hvalue with
  | number hbits =>
    rw [decode_number rfl, skip_one_inside, peek_inside hbits, ok_bind, skip_inside hbits]
    exact ⟨_, rfl⟩
  | bool =>
    rw [decode_bool rfl, skip_one_inside, skip_one_inside, peek_one rfl, ok_bind]
    exact ⟨_, rfl⟩
  | string hlen htext =>
    rw [decode_string rfl, skip_one_inside, peek_inside hlen, ok_bind, skip_inside hlen,
      decodeText_inside htext, ok_bind]
    exact ⟨_, rfl⟩
  | object hfields =>
    rw [List.length_cons] at hfuel
    obtain ⟨fields, hfields⟩ := h.decodeAmfObject [] hfields (by omega)
    rw [decode_object rfl, skip_one_inside, hfields, ok_bind]
    exact ⟨_, rfl⟩
  | bare hmarker =>
    rcases hmarker with rfl | rfl | rfl
    · rw [decode_null rfl, skip_one_inside]
      exact ⟨_, rfl⟩
    · rw [decode_undefined rfl, skip_one_inside]
      exact ⟨_, rfl⟩
    · rw [decode_unsupported rfl, skip_one_inside]
      exact ⟨_, rfl⟩
  | rejected hmarker =>
    rcases hmarker with rfl | rfl
    · rw [decode_rejected (Or.inl rfl), skip_one_inside]
      exact ⟨_, rfl⟩
    · rw [decode_rejected (Or.inr rfl), skip_one_inside]
      exact ⟨_, rfl⟩
  | mixedArray hcount hfields =>
    rw [List.length_cons, List.length_append] at hfuel
    obtain ⟨fields, hfields⟩ := h.decodeAmfObject [] hfields (by omega)
    rw [decode_mixedArray rfl, skip_one_inside, peek_inside hcount, ok_bind,
      skip_inside hcount, hfields, ok_bind]
    exact ⟨_, rfl⟩
  | array hcount hitems =>
    rw [List.length_cons] at hfuel
    obtain ⟨ret, items, hitems⟩ := h.decodeAmfArray hcount hitems (by omega)
    rw [decode_array rfl, skip_one_inside, hitems, ok_bind]
    exact ⟨_, rfl⟩
  | date hbits hzone =>
    rw [decode_date rfl, skip_one_inside, peek_inside hbits, ok_bind, skip_inside hbits,
      skip_inside hzone]
    exact ⟨_, rfl⟩
  | longString hlen htext =>
    rw [decode_longString rfl, skip_one_inside, peek_inside hlen, ok_bind, skip_inside hlen,
      decodeText_inside htext, ok_bind]
    exact ⟨_, rfl⟩
  | unknown hbig =>
    rw [decode_unknown rfl hbig]
    exact ⟨_, rfl⟩

theorem ValueAt.exists_marker (h : ValueAt input ret rest) :
    ∃ marker input', input = marker :: input' := by
  cases h with
  | _ => exact ⟨_, _, rfl⟩

theorem Decodes.length_lt (h : Decodes fuel) (hvalue : ValueAt input .ok rest)
    (hfuel : input.length < fuel) : rest.length < input.length := by
  obtain ⟨item, hd⟩ := h.decode hvalue hfuel
  have hle : rest.length ≤ input.length - 1 := (((movesOn fuel).decode hd).2.2 rfl).length_le
  obtain ⟨marker, input, rfl⟩ := hvalue.exists_marker
  rw [List.length_cons] at hle ⊢
  omega

/-- A value behind a key. -/
theorem Decodes.decodeAmfObject_key (h : Decodes fuel) (fields : List (Bytes × AmfItem))
    {len key : Bytes} (hkey : IsKey len key) (hvalue : ValueAt input ret rest)
    (hfuel : input.length < fuel) :
    ∃ item, AmfDecoder.decodeAmfObject (fuel + 1) fields (inside (len ++ (key ++ input))) =
      if ret ≠ .ok then .ok (ret, fields, inside rest)
      else AmfDecoder.decodeAmfObject fuel (insertField key item fields) (inside rest) := by
  obtain ⟨item, hd⟩ := h.decode hvalue hfuel
  refine ⟨item, ?_⟩
  have hpos : 0 < (inside (len ++ (key ++ input))).leftLen := by
    have hlen := hkey.length_len
    simp only [inside, List.length_append]
    omega
  rw [AmfDecoder.decodeAmfObject_key hpos (keyAt_inside hkey input)]
  obtain ⟨marker, input, rfl⟩ := hvalue.exists_marker
  rw [peek_one rfl, ok_bind, List.headD_cons]
  by_cases hknown : marker ≤ lastMarker
  · rw [if_neg (UInt8.not_lt.mpr hknown), hd, ok_bind]
  · -- the object is left before `decode` would return the same
    obtain ⟨fuel, rfl⟩ : ∃ k, fuel = k + 1 := ⟨fuel - 1, by omega⟩
    rw [decode_unknown rfl hknown] at hd
    simp only [Except.ok.injEq, Prod.mk.injEq] at hd
    rw [if_pos (UInt8.not_le.mp hknown), ← hd.1, ← hd.2.2]
    rfl

theorem Decodes.decodeAmfObject_succ (h : Decodes fuel) (fields : List (Bytes × AmfItem))
    (hfields : FieldsAt input ret rest) (hfuel : input.length < fuel + 1) :
    ∃ fields', AmfDecoder.decodeAmfObject (fuel + 1) fields (inside input) =
      .ok (ret, fields', inside rest) := by
  cases hfields with
  | payloadEnd =>
    rw [AmfDecoder.decodeAmfObject, if_pos (by decide)]
    exact ⟨_, rfl⟩
  | @objectEnd rest =>
    show ∃ fields', AmfDecoder.decodeAmfObject (fuel + 1) fields
      (inside ([0x00, 0x00] ++ 0x09 :: rest)) = .ok (.ok, fields', inside (0x09 :: rest))
    have hpos : 0 < (inside ([0x00, 0x00] ++ 0x09 :: rest)).leftLen := by
      simp only [inside, List.length_append, List.length_cons]
      omega
    rw [decodeAmfObject_end hpos (peek_inside rfl _) rfl, @skip_inside 2 _ rfl, peek_one rfl,
      ok_bind]
    exact ⟨_, rfl⟩
  | @failed len key input rest ret hkey hvalue hret =>
    have hlen := hkey.length_len
    rw [List.length_append, List.length_append] at hfuel
    obtain ⟨item, hd⟩ := h.decodeAmfObject_key fields hkey hvalue (by omega)
    rw [hd, if_pos hret]
    exact ⟨_, rfl⟩
  | @field len key input input' rest ret hkey hvalue hrest =>
    have hlen := hkey.length_len
    rw [List.length_append, List.length_append] at hfuel
    obtain ⟨item, hd⟩ := h.decodeAmfObject_key fields hkey hvalue (by omega)
    rw [hd, if_neg (by decide)]
    have hlt := h.length_lt hvalue (by omega)
    exact h.decodeAmfObject _ hrest (by omega)

theorem decodes (fuel : Nat) : Decodes fuel := by
  induction fuel with
  | zero =>
    refine ⟨fun {input ret rest} _ hfuel => ?_, fun {input ret rest} fields _ hfuel => ?_,
      fun {count input rest} _ _ hfuel => ?_, fun {count input rest} items _ hfuel => ?_⟩
    · exact absurd hfuel (Nat.not_lt_zero _)
    · exact absurd hfuel (Nat.not_lt_zero _)
    · exact absurd hfuel (Nat.not_lt_zero _)
    · exact absurd hfuel (Nat.not_lt_zero _)
  | succ fuel ih =>
    refine ⟨fun {input ret rest} hvalue hfuel => ih.decode_succ hvalue hfuel,
      fun {input ret rest} fields hfields hfuel => ih.decodeAmfObject_succ fields hfields hfuel,
      fun {count input rest} hcount hitems hfuel => ?_,
      fun {count input rest} items hitems hfuel => ?_⟩
    · rw [List.length_append] at hfuel
      obtain ⟨ret, items, hitems⟩ := ih.decodeItems [] hitems (by omega)
      rw [decodeAmfArray, peek_inside hcount, ok_bind, skip_inside hcount]
      exact ⟨ret, items, hitems⟩
    · cases hitems with
      | done => exact ⟨_, _, rfl⟩
      | failed hvalue hret =>
        obtain ⟨item, hd⟩ := ih.decode hvalue (by omega)
        rw [decodeItems_succ, hd, ok_bind, if_pos hret]
        exact ⟨_, _, rfl⟩
      | item hvalue hrest =>
        obtain ⟨item, hd⟩ := ih.decode hvalue (by omega)
        rw [decodeItems_succ, hd, ok_bind, if_neg (by simp)]
        have hlt := ih.length_lt hvalue (by omega)
        exact ih.decodeItems _ hrest (by omega)

/-! ## The loop inside the payload -/

/-- Every call that the loop makes from `c` on returns, with no more bytes than there are.
A call that reads a byte behind the memory, or whose assertion fails, does not return, and
the count of a call only goes down (`movesOn`): it is negative in the end if it ever is. -/
def NeverLeaves (c : Cursor) : Prop :=
  ∀ d, Visits c d → 0 < d.leftLen →
    ∃ ret item d', decodeValue d = .ok (ret, item, d') ∧ 0 ≤ d'.leftLen

theorem NeverLeaves.next {c' : Cursor} (h : NeverLeaves c) (hpos : 0 < c.leftLen)
    {item : AmfItem} (hd : decodeValue c = .ok (ret, item, c')) : NeverLeaves c' :=
  fun d hvisit => h d (.next hpos hd hvisit)

theorem ValuesAt.of_neverLeaves (h : NeverLeaves (inside input)) : ValuesAt input := by
  induction hlen : input.length using Nat.strongRecOn generalizing input with
  | ind n ih =>
    rcases input with _ | ⟨marker, input⟩
    · exact .done
    · have hpos : 0 < (inside (marker :: input)).leftLen := by
        simp only [inside, List.length_cons]
        omega
      obtain ⟨ret, item, d, hd, hnonneg⟩ := h _ (.start _) hpos
      obtain ⟨rest, rfl, hvalue⟩ := (reads _).decode hd hnonneg
      by_cases hknown : marker ≤ lastMarker
      · have hle : rest.length ≤ (marker :: input).length - 1 :=
          (((movesOn _).decode hd).2.1 marker rfl hknown).length_le
        rw [List.length_cons] at hlen hle
        exact .value hvalue (ih rest.length (by omega) (h.next hpos hd) rfl)
      · exact .unknown hknown

/-- The loop stays at a marker that is not known. -/
theorem Visits.eq_of_unknown {c d : Cursor} (h : Visits c d) {marker : UInt8}
    (hm : c.data.head? = some marker) (hbig : ¬ marker ≤ lastMarker) : d = c := by
  induction h with
  | start c => rfl
  | next hpos hd _ ih =>
    rw [decodeValue, decode_unknown hm hbig] at hd
    cases hd
    exact ih hm

theorem ValuesAt.neverLeaves (h : ValuesAt input) : NeverLeaves (inside input) := by
  induction h with
  | done =>
    intro d hvisit hpos
    cases hvisit with
    | start => exact absurd hpos (by decide)
    | next hpos' => exact absurd hpos' (by decide)
  | @value input rest ret hvalue _ ih =>
    obtain ⟨item, hd⟩ := (decodes (input.length + 1)).decode hvalue (Nat.lt_succ_self _)
    intro d hvisit hpos
    cases hvisit with
    | start => exact ⟨ret, item, inside rest, hd, Int.natCast_nonneg _⟩
    | next hpos' hd' hvisit =>
      have heq := hd.symm.trans hd'
      simp only [Except.ok.injEq, Prod.mk.injEq] at heq
      rw [← heq.2.2] at hvisit
      exact ih d hvisit hpos
  | @unknown marker rest hbig =>
    intro d hvisit hpos
    obtain rfl := hvisit.eq_of_unknown rfl hbig
    exact ⟨_, _, _, decode_unknown rfl hbig, Int.le_of_lt hpos⟩

/-- **Memory safety.**  In the memory of the payload alone, the loop of a command makes no
read behind the end, does not let the count become negative and fails no assertion exactly
when the payload consists of complete values, up to its end or up to a marker that is not
known. -/
theorem values_stay_inside_iff (payload : Bytes) :
    NeverLeaves (commandCursor payload []) ↔ ValuesAt payload := by
  rw [← inside_eq_commandCursor]
  exact ⟨ValuesAt.of_neverLeaves, ValuesAt.neverLeaves⟩

/-- The marker of a number, and no number. -/
theorem not_stays_inside_number : ¬ NeverLeaves (commandCursor [0x00] []) := by
  intro h
  obtain ⟨ret, item, d, hd, -⟩ := h _ (.start _) (by decide)
  cases hd

end AmfDecoder

end MediaServer
