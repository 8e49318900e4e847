import MediaServer.Rtmp.AmfLoop

/-!
# What the decoder reads of what the encoder writes

A number, a boolean, a string, a null and an undefined value read back, whatever follows
them (`decode_encodeValue`).  A string of more than `0xffff` bytes is a long string when it
comes back.

An object does not.  Its end is an empty key and a marker, and the encoder writes both.
The decoder asserts that the marker is there and leaves it, so that the pointer does not
stand behind the object (`end_marker_left`).  Inside another object the marker that is left
becomes the length of the next key (`longKey_of_nested`).
-/

namespace MediaServer

open Run

/-! ## Values without fields -/

/-- The types of `AMF_ITERM` that are laid out without fields. -/
def AmfItem.IsPlain : AmfItem → Prop
  | .number _ | .bool _ | .null | .undefined => True
  | .string desc => desc.length < 2 ^ 32
  | _ => False

/-- The value as it comes back. -/
def AmfItem.readBack : AmfItem → AmfItem
  | .string desc => if desc.length > 0xffff then .longString desc else .string desc
  | item => item

namespace AmfEncoder

/-- The encoding of a value without fields. -/
def valueBytes (item : AmfItem) : Bytes := (encodeValue item []).2

/-- Behind other bytes, a text is encoded as it is alone. -/
theorem encodeString_append (str : Bytes) (skipMarker : Bool) (buffer : DataBuffer) :
    encodeString str skipMarker buffer = buffer ++ encodeString str skipMarker [] := by
  unfold encodeString
  split_ifs
  · rfl
  · rfl
  · rfl
  · rfl

theorem encodeString_key {key : Bytes} (h : key.length ≤ 0xffff) :
    encodeString key true [] = write2bytes (UInt16.ofNat key.length) ++ key := by
  rw [encodeString, if_neg (Nat.not_lt.mpr h)]
  rfl

theorem valueBytes_string {desc : Bytes} (h : desc.length ≤ 0xffff) :
    valueBytes (.string desc) = 0x02 :: (write2bytes (UInt16.ofNat desc.length) ++ desc) := by
  rw [valueBytes, encodeValue, encodeString, if_neg (Nat.not_lt.mpr h)]
  rfl

theorem valueBytes_longString {desc : Bytes} (h : desc.length > 0xffff) :
    valueBytes (.string desc) = 0x0c :: (write4bytes (UInt32.ofNat desc.length) ++ desc) := by
  rw [valueBytes, encodeValue, encodeString, if_pos h]
  rfl

theorem encodeValue_append {item : AmfItem} (h : item.IsPlain) (buffer : DataBuffer) :
    encodeValue item buffer = (.ok, buffer ++ valueBytes item) := by
  cases item with
  | number bits => rfl
  | bool enable => rfl
  | string desc =>
    rw [encodeValue, encodeString_append]
    rfl
  | null => rfl
  | undefined => rfl
  | unknown => exact h.elim
  | object fields => exact h.elim
  | array items => exact h.elim
  | date bits => exact h.elim
  | longString desc => exact h.elim

end AmfEncoder

namespace AmfDecoder

open Cursor AmfEncoder

variable {fuel : Nat}

theorem decodeText_append {len : Nat} {text : Bytes} (h : text.length = len) (rest : Bytes)
    (left : Int) : decodeText len ⟨text ++ rest, left⟩ = .ok (text, ⟨rest, left - len⟩) := by
  rw [decodeText, peek_append h, ok_bind, skip_append h]
  rfl

theorem decode_encodeValue {item : AmfItem} (h : item.IsPlain) (rest : Bytes) (left : Int) :
    decode (fuel + 1) ⟨valueBytes item ++ rest, left⟩ =
      .ok (.ok, item.readBack, ⟨rest, left - (valueBytes item).length⟩) := by
  cases item with
  | number bits =>
    have hbytes : valueBytes (.number bits) = 0x00 :: write8bytes bits := rfl
    have hbits : read8bytes (write8bytes bits) = bits := by
      simpa using read8bytes_write8bytes bits []
    rw [hbytes, List.cons_append, decode_number rfl, skip_cons,
      peek_append (write8bytes_length bits), ok_bind, skip_append (write8bytes_length bits), hbits,
      List.length_cons, write8bytes_length]
    simp [AmfItem.readBack, Int.sub_sub]
  | bool enable =>
    have hbytes : valueBytes (.bool enable) = [0x01, if enable then 0x01 else 0x00] := rfl
    rw [hbytes, List.cons_append, decode_bool rfl, skip_cons, @peek_append 1 _ _ rfl, ok_bind,
      @skip_append 1 _ _ rfl]
    cases enable <;> simp [AmfItem.readBack, Int.sub_sub]
  | string desc =>
    have hlt : desc.length < 2 ^ 32 := h
    by_cases hlong : desc.length > 0xffff
    · have hlen : read4bytes (write4bytes (UInt32.ofNat desc.length)) =
          UInt32.ofNat desc.length := by
        simpa using read4bytes_write4bytes (UInt32.ofNat desc.length) []
      have hdesc : desc.length = (UInt32.ofNat desc.length).toNat := by
        rw [UInt32.toNat_ofNat', Nat.mod_eq_of_lt hlt]
      rw [valueBytes_longString hlong, List.cons_append, List.append_assoc,
        decode_longString rfl, skip_cons, peek_append (write4bytes_length _), ok_bind, hlen,
        skip_append (write4bytes_length _), decodeText_append hdesc, ok_bind, ← hdesc]
      simp [AmfItem.readBack, hlong]
      omega
    · have hle := Nat.not_lt.mp hlong
      have hlen : read2bytes (write2bytes (UInt16.ofNat desc.length)) =
          UInt16.ofNat desc.length := by
        simpa using read2bytes_write2bytes (UInt16.ofNat desc.length) []
      have hdesc : desc.length = (UInt16.ofNat desc.length).toNat := by
        rw [UInt16.toNat_ofNat', Nat.mod_eq_of_lt (by omega)]
      rw [valueBytes_string hle, List.cons_append, List.append_assoc, decode_string rfl,
        skip_cons, peek_append (write2bytes_length _), ok_bind, hlen,
        skip_append (write2bytes_length _), decodeText_append hdesc, ok_bind, ← hdesc]
      simp [AmfItem.readBack, hlong]
      omega
  | null =>
    have hbytes : valueBytes .null = [0x05] := rfl
    rw [hbytes, List.cons_append, decode_null rfl, skip_cons]
    rfl
  | undefined =>
    have hbytes : valueBytes .undefined = [0x06] := rfl
    rw [hbytes, List.cons_append, decode_undefined rfl, skip_cons]
    rfl
  | unknown => exact h.elim
  | object fields => exact h.elim
  | array items => exact h.elim
  | date bits => exact h.elim
  | longString desc => exact h.elim

end AmfDecoder

/-! ## A sequence of scalars -/

/-- What the arguments of a command are, apart from objects. -/
inductive AmfScalar where
  | number (bits : UInt64)
  | bool (enable : Bool)
  | string (desc : Bytes)
  | null

namespace AmfScalar

/-- The overload of `AMF_Encoder::encode` for the scalar, or `encode_null`. -/
def encode (buffer : DataBuffer) : AmfScalar → DataBuffer
  | .number bits => AmfEncoder.encodeNumber bits buffer
  | .bool enable => AmfEncoder.encodeBool enable buffer
  | .string desc => AmfEncoder.encodeString desc false buffer
  | .null => AmfEncoder.encodeNull buffer

/-- The values one after another. -/
def encodeAll (scalars : List AmfScalar) : DataBuffer := scalars.foldl encode []

/-- The scalar as it is decoded. -/
def item : AmfScalar → AmfItem
  | .number bits => .number bits
  | .bool enable => .bool enable
  | .string desc => .string desc
  | .null => .null

theorem encode_eq (buffer : DataBuffer) (scalar : AmfScalar) :
    scalar.encode buffer = buffer ++ AmfEncoder.valueBytes scalar.item := by
  cases scalar with
  | number bits => rfl
  | bool enable => rfl
  | string desc => exact AmfEncoder.encodeString_append desc false buffer
  | null => rfl

theorem encodeAll_eq (scalars : List AmfScalar) :
    encodeAll scalars = scalars.flatMap fun scalar => AmfEncoder.valueBytes scalar.item := by
  have hgen : ∀ buffer : DataBuffer, scalars.foldl encode buffer =
      buffer ++ scalars.flatMap fun scalar => AmfEncoder.valueBytes scalar.item := by
    induction scalars with
    | nil => intro buffer; simp
    | cons scalar scalars ih =>
      intro buffer
      rw [List.foldl_cons, ih, encode_eq, List.append_assoc, List.flatMap_cons]
  exact hgen []

end AmfScalar

namespace AmfDecoder

open Cursor AmfEncoder

variable {fuel : Nat}

/-- The pointer at the payload of a command, with the count as an `int`. -/
def intCursor (payload after : Bytes) : Cursor :=
  { data := payload ++ after, leftLen := wrapInt payload.length }

theorem valueBytes_pos (scalar : AmfScalar) : 0 < (valueBytes scalar.item).length := by
  cases scalar with
  | number bits => exact Nat.succ_pos _
  | bool enable => exact Nat.succ_pos _
  | string desc =>
    by_cases hlong : desc.length > 0xffff
    · rw [AmfScalar.item, valueBytes_longString hlong]
      exact Nat.succ_pos _
    · rw [AmfScalar.item, valueBytes_string (Nat.not_lt.mp hlong)]
      exact Nat.succ_pos _
  | null => exact Nat.succ_pos _

theorem isPlain_of_length_lt {scalar : AmfScalar}
    (h : (valueBytes scalar.item).length < 2 ^ 31) : scalar.item.IsPlain := by
  cases scalar with
  | number bits => exact trivial
  | bool enable => exact trivial
  | string desc =>
    show desc.length < 2 ^ 32
    by_cases hlong : desc.length > 0xffff
    · rw [AmfScalar.item, valueBytes_longString hlong] at h
      simp only [List.length_cons, List.length_append] at h
      omega
    · omega
  | null => exact trivial

/-- The loop over scalars, with other values in the vector before it. -/
theorem decodeAll_scalars (after : Bytes) (scalars : List AmfScalar) (items : List AmfItem)
    (hlen : (AmfScalar.encodeAll scalars).length < 2 ^ 31) (hfuel : scalars.length < fuel) :
    decodeAll fuel items
        ⟨AmfScalar.encodeAll scalars ++ after, (AmfScalar.encodeAll scalars).length⟩ =
      .ok (items ++ scalars.map fun scalar => scalar.item.readBack) ∧
    Visits ⟨AmfScalar.encodeAll scalars ++ after, (AmfScalar.encodeAll scalars).length⟩
      ⟨after, 0⟩ := by
  induction scalars generalizing fuel items with
  | nil =>
    obtain ⟨fuel, rfl⟩ : ∃ k, fuel = k + 1 := ⟨fuel - 1, by rw [List.length_nil] at hfuel; omega⟩
    rw [decodeAll_done (Int.le_refl _), List.map_nil, List.append_nil]
    exact ⟨rfl, .start _⟩
  | cons scalar scalars ih =>
    obtain ⟨fuel, rfl⟩ : ∃ k, fuel = k + 1 := ⟨fuel - 1, by omega⟩
    have hcons : AmfScalar.encodeAll (scalar :: scalars) =
        valueBytes scalar.item ++ AmfScalar.encodeAll scalars := by
      rw [AmfScalar.encodeAll_eq, AmfScalar.encodeAll_eq, List.flatMap_cons]
    rw [hcons] at hlen ⊢
    rw [List.length_append] at hlen
    rw [List.length_cons] at hfuel
    have hpos := valueBytes_pos scalar
    have hleft : 0 < (((valueBytes scalar.item ++ AmfScalar.encodeAll scalars).length : Nat) :
        Int) := by
      rw [List.length_append]
      omega
    have hd := @decode_encodeValue
      ((valueBytes scalar.item ++ AmfScalar.encodeAll scalars ++ after).length) scalar.item
      (isPlain_of_length_lt (by omega)) (AmfScalar.encodeAll scalars ++ after)
      ((valueBytes scalar.item ++ AmfScalar.encodeAll scalars).length : Nat)
    have hrest : (((valueBytes scalar.item ++ AmfScalar.encodeAll scalars).length : Nat) : Int) -
        (valueBytes scalar.item).length = (AmfScalar.encodeAll scalars).length := by
      rw [List.length_append]
      omega
    rw [hrest, ← List.append_assoc] at hd
    obtain ⟨hall, hvisits⟩ := @ih fuel (items ++ [scalar.item.readBack]) (by omega) (by omega)
    refine ⟨?_, .next hleft hd hvisits⟩
    rw [decodeAll_next hleft, decodeValue, hd, ok_bind, hall, List.map_cons, List.append_assoc]
    rfl

theorem length_le_encodeAll (scalars : List AmfScalar) :
    scalars.length ≤ (AmfScalar.encodeAll scalars).length := by
  rw [AmfScalar.encodeAll_eq]
  induction scalars with
  | nil => exact Nat.le_refl _
  | cons scalar scalars ih =>
    have hpos := valueBytes_pos scalar
    rw [List.flatMap_cons, List.length_append, List.length_cons]
    omega

/-- **Scalars.**  The loop over the encodings of scalars gives the scalars back, in their
order, and ends with no byte left, when an `int` can count the bytes. -/
theorem scalars_read_back (scalars : List AmfScalar) (after : Bytes)
    (h : (AmfScalar.encodeAll scalars).length < 2 ^ 31) :
    decodeAll ((AmfScalar.encodeAll scalars).length + 1) []
        (intCursor (AmfScalar.encodeAll scalars) after) =
      .ok (scalars.map fun scalar => scalar.item.readBack) ∧
    Visits (intCursor (AmfScalar.encodeAll scalars) after) ⟨after, 0⟩ := by
  rw [intCursor, wrapInt_of_lt h]
  exact decodeAll_scalars after scalars [] h
    (Nat.lt_succ_of_le (length_le_encodeAll scalars))

/-- Three arguments of a command. -/
theorem scalars_read_back_three :
    decodeAll ((AmfScalar.encodeAll [.string [0x61], .number 1, .null]).length + 1) []
        (intCursor (AmfScalar.encodeAll [.string [0x61], .number 1, .null]) []) =
      .ok [.string [0x61], .number 1, .null] ∧
    Visits (intCursor (AmfScalar.encodeAll [.string [0x61], .number 1, .null]) []) ⟨[], 0⟩ :=
  scalars_read_back [.string [0x61], .number 1, .null] [] (by decide)

theorem length_encodeAll_two {desc : Bytes} (h : desc.length > 0xffff) :
    (AmfScalar.encodeAll [.string desc, .string desc]).length = 2 * (desc.length + 5) := by
  rw [AmfScalar.encodeAll_eq]
  simp only [AmfScalar.item, List.flatMap_cons, List.flatMap_nil, valueBytes_longString h,
    List.length_append, List.length_cons, List.length_nil, write4bytes_length]
  omega

/-- Half of what an `int` can count, twice: the count is negative, and no value is decoded. -/
theorem decodeAll_negative {desc : Bytes} (h : desc.length = 2 ^ 30) (fuel : Nat) :
    decodeAll (fuel + 1) []
      (intCursor (AmfScalar.encodeAll [.string desc, .string desc]) []) = .ok [] := by
  refine decodeAll_done ?_
  have hlen := length_encodeAll_two (show desc.length > 0xffff by omega)
  have hwrap := wrapInt_add_le (show 2 ^ 31 ≤ 2 * (desc.length + 5) by omega)
  simp only [intCursor, hlen]
  omega

/-- Two strings of `2 ^ 30` bytes are not read back. -/
theorem not_scalars_read_back_long :
    (List.replicate (2 ^ 30) (0x61 : UInt8)).length < 2 ^ 31 - 5 ∧
      ¬ ∃ fuel, decodeAll fuel []
          (intCursor (AmfScalar.encodeAll [.string (List.replicate (2 ^ 30) 0x61),
            .string (List.replicate (2 ^ 30) 0x61)]) []) =
        .ok ([AmfScalar.string (List.replicate (2 ^ 30) 0x61),
          .string (List.replicate (2 ^ 30) 0x61)].map fun scalar => scalar.item.readBack) := by
  have hlen : (List.replicate (2 ^ 30) (0x61 : UInt8)).length = 2 ^ 30 := List.length_replicate
  generalize List.replicate (2 ^ 30) (0x61 : UInt8) = desc at hlen ⊢
  refine ⟨by omega, ?_⟩
  rintro ⟨fuel, hfuel⟩
  cases fuel with
  | zero => cases hfuel
  | succ fuel =>
    rw [decodeAll_negative hlen, List.map_cons] at hfuel
    cases hfuel

/-! ## Objects -/

mutual

/-- `ValueLayout item bytes`: the encoder's layout of a value, and of an object at any
depth.  The encoder itself writes no object inside an object. -/
inductive ValueLayout : AmfItem → Bytes → Prop
  | number (bits : UInt64) : ValueLayout (.number bits) (valueBytes (.number bits))
  | bool (enable : Bool) : ValueLayout (.bool enable) (valueBytes (.bool enable))
  | string (desc : Bytes) : ValueLayout (.string desc) (valueBytes (.string desc))
  | null : ValueLayout .null (valueBytes .null)
  | undefined : ValueLayout .undefined (valueBytes .undefined)
  | object {fields : List (Bytes × AmfItem)} {bytes : Bytes} (h : FieldsLayout fields bytes) :
      ValueLayout (.object fields) (0x03 :: bytes)

/-- The layout of fields with different keys, in any order, and of the end of the object. -/
inductive FieldsLayout : List (Bytes × AmfItem) → Bytes → Prop
  | nil : FieldsLayout [] [0x00, 0x00, 0x09]
  | cons {key value bytes : Bytes} {item : AmfItem} {fields : List (Bytes × AmfItem)}
      (hpos : 0 < key.length) (hlen : key.length ≤ 0xffff) (hnew : ∀ field ∈ fields, field.1 ≠ key)
      (hvalue : ValueLayout item value) (hrest : FieldsLayout fields bytes) :
      FieldsLayout ((key, item) :: fields) (encodeString key true [] ++ (value ++ bytes))

end

theorem FieldsLayout.exists_end {fields : List (Bytes × AmfItem)} {bytes : Bytes}
    (h : FieldsLayout fields bytes) : ∃ front, bytes = front ++ [0x00, 0x00, 0x09] := by
  induction fields generalizing bytes with
  | nil =>
    cases h
    exact ⟨[], rfl⟩
  | cons field fields ih =>
    cases h with
    | @cons key value bytes item _ hpos hlen hnew hvalue hrest =>
      obtain ⟨front, rfl⟩ := ih hrest
      exact ⟨encodeString key true [] ++ (value ++ front), by simp only [List.append_assoc]⟩

theorem FieldsLayout.length_lt {fields : List (Bytes × AmfItem)} {bytes : Bytes}
    (h : FieldsLayout fields bytes) : fields.length < bytes.length := by
  induction fields generalizing bytes with
  | nil =>
    cases h
    exact Nat.succ_pos _
  | cons field fields ih =>
    cases h with
    | cons hpos hlen hnew hvalue hrest =>
      have hlt := ih hrest
      rw [encodeString_key hlen]
      simp only [List.length_append, List.length_cons]
      omega

/-- A call of `decode_amf_object` that succeeds has used up the count, or it stands behind an
empty key. -/
theorem decodeAmfObject_ends {fields fields' : List (Bytes × AmfItem)} {c c' : Cursor}
    (h : decodeAmfObject fuel fields c = .ok (.ok, fields', c')) :
    c'.leftLen ≤ 0 ∨ ∃ front, c.data = front ++ [0x00, 0x00] ++ c'.data := by
  induction fuel generalizing fields c with
  | zero => cases h
  | succ fuel ih =>
    cases objectCase_of_ok h with
    | noneLeft hnone => exact Or.inl hnone
    | objectEnd hpos hlen hzero hend =>
      obtain ⟨hlength, hdata⟩ := peek_ok hlen
      rw [eq_zeros_of_read2bytes hlength hzero] at hdata
      exact Or.inr ⟨[], hdata⟩
    | failed hpos hkey hd hret => exact absurd rfl hret
    | @field key d d' item _ hpos hkey hd hrest =>
      rcases ih hrest with hnone | ⟨front, hfront⟩
      · exact Or.inl hnone
      · obtain ⟨n, -, rfl⟩ := hkey.moves.trans ((movesOn fuel).decode hd).1
        refine Or.inr ⟨c.data.take n ++ front, ?_⟩
        rw [List.append_assoc, List.append_assoc, ← List.append_assoc front, ← hfront]
        exact (List.take_append_drop n c.data).symm

/-- The pointer at an object, with bytes of the payload behind it and the memory `after`. -/
def objectCursor (bytes following after : Bytes) : Cursor :=
  { data := bytes ++ (following ++ after), leftLen := (bytes ++ following).length }

/-- `decode` returns 0 and leaves the pointer at the first byte behind the object. -/
def EndsBehind (bytes following after : Bytes) : Prop :=
  ∃ item, decodeValue (objectCursor bytes following after) =
    .ok (.ok, item, ⟨following ++ after, following.length⟩)

theorem not_endsBehind_of_following {fields : List (Bytes × AmfItem)} {bytes : Bytes}
    (h : FieldsLayout fields bytes) {following : Bytes} (hne : following ≠ []) (after : Bytes) :
    ¬ EndsBehind (0x03 :: bytes) following after := by
  rintro ⟨item, hd⟩
  rw [decodeValue, decode_object rfl] at hd
  obtain ⟨⟨ret, fields', c'⟩, hout, hd⟩ := exists_of_bind_ok hd
  cases hd
  rcases decodeAmfObject_ends hout with hnone | ⟨front, hfront⟩
  · have hpos := List.length_pos_iff.mpr hne
    simp only at hnone
    omega
  · -- the two bytes before the pointer are those of an empty key, and not the end marker
    obtain ⟨front', rfl⟩ := h.exists_end
    have hdata : front' ++ [0x00, 0x00, 0x09] ++ (following ++ after) =
        front ++ [0x00, 0x00] ++ (following ++ after) := hfront
    have hlast := congrArg List.getLast? (List.append_cancel_right hdata)
    simp at hlast

/-! An object without objects in it is read as far as its end marker. -/

/-- No value of the object is an object. -/
def Flat (fields : List (Bytes × AmfItem)) : Prop := ∀ field ∈ fields, field.2.IsPlain

theorem insertField_new {key : Bytes} {item : AmfItem} {fields : List (Bytes × AmfItem)}
    (h : ∀ field ∈ fields, field.1 ≠ key) :
    insertField key item fields = fields ++ [(key, item)] := by
  have hany : fields.any (·.1 = key) = false := by
    simpa using h
  rw [insertField, hany]
  rfl

theorem ValueLayout.eq_valueBytes {item : AmfItem} {bytes : Bytes} (h : ValueLayout item bytes)
    (hplain : item.IsPlain) : bytes = valueBytes item := by
  cases h with
  | object => exact hplain.elim
  | _ => rfl

/-- What the encoder appends for an object without objects in it is its layout. -/
theorem encodeFields_eq {fields : List (Bytes × AmfItem)} {bytes : Bytes}
    (h : FieldsLayout fields bytes) (hflat : Flat fields) (buffer : DataBuffer) :
    encodeFields fields buffer = (.ok, buffer ++ bytes) := by
  induction fields generalizing bytes buffer with
  | nil =>
    cases h
    rw [encodeFields, encodeString_append, DataBuffer.appendData, List.append_assoc]
    rfl
  | cons field fields ih =>
    cases h with
    | @cons key value bytes item _ hpos hlen hnew hvalue hrest =>
      have hplain : item.IsPlain := hflat (key, item) List.mem_cons_self
      rw [encodeFields, encodeString_append, encodeValue_append hplain,
        hvalue.eq_valueBytes hplain]
      refine (ih hrest (fun field hfield => hflat field (List.mem_cons_of_mem _ hfield)) _).trans ?_
      simp only [List.append_assoc]

theorem encodeObject_eq {fields : List (Bytes × AmfItem)} {bytes : Bytes}
    (h : ValueLayout (.object fields) bytes) (hflat : Flat fields) (buffer : DataBuffer) :
    encodeObject fields buffer = (.ok, buffer ++ bytes) := by
  cases h with
  | object hfields =>
    rw [encodeObject, encodeFields_eq hfields hflat, DataBuffer.appendData, List.append_assoc]
    rfl

theorem keyAt_encodeString {key : Bytes} (hpos : 0 < key.length) (hlen : key.length ≤ 0xffff)
    (rest : Bytes) (left : Int) :
    KeyAt ⟨encodeString key true [] ++ rest, left⟩ key
      ⟨rest, left - (encodeString key true []).length⟩ := by
  have hkey : key.length = (UInt16.ofNat key.length).toNat := by
    rw [UInt16.toNat_ofNat', Nat.mod_eq_of_lt (by omega)]
  have hread : read2bytes (write2bytes (UInt16.ofNat key.length)) = UInt16.ofNat key.length := by
    simpa using read2bytes_write2bytes (UInt16.ofNat key.length) []
  rw [encodeString_key hlen, List.append_assoc]
  refine ⟨write2bytes (UInt16.ofNat key.length), peek_append (write2bytes_length _) _, ?_, ?_, ?_⟩
  · rw [hread]
    intro hzero
    rw [hzero] at hkey
    exact absurd hkey (Nat.ne_of_gt hpos)
  · rw [hread, skip_append (write2bytes_length _)]
    exact peek_append hkey _
  · rw [hread, skip_append (write2bytes_length _), skip_append hkey, ← hkey, List.length_append,
      write2bytes_length, Cursor.mk.injEq]
    exact ⟨rfl, by omega⟩

/-- A call that succeeds has found a marker that it knows. -/
theorem exists_marker_of_ok {c c' : Cursor} {item : AmfItem}
    (h : decode (fuel + 1) c = .ok (.ok, item, c')) :
    ∃ marker, c.data.head? = some marker ∧ marker ≤ lastMarker := by
  rcases hm : c.data.head? with _ | marker
  · rw [decode_empty (List.head?_eq_none_iff.mp hm)] at h
    cases h
  · refine ⟨marker, rfl, ?_⟩
    by_contra hbig
    rw [decode_unknown hm hbig] at h
    cases h

/-- A field whose value is decoded. -/
theorem decodeAmfObject_field {c d d' : Cursor} {key : Bytes} {item : AmfItem}
    {fields : List (Bytes × AmfItem)} (hpos : 0 < c.leftLen) (hkey : KeyAt c key d)
    (hd : decode (fuel + 1) d = .ok (.ok, item, d')) :
    decodeAmfObject (fuel + 2) fields c =
      decodeAmfObject (fuel + 1) (insertField key item fields) d' := by
  obtain ⟨marker, hm, hknown⟩ := exists_marker_of_ok hd
  rw [decodeAmfObject_key hpos hkey, peek_one hm, ok_bind, List.headD_cons,
    if_neg (UInt8.not_lt.mpr hknown), hd, ok_bind]
  rfl

theorem decodeAmfObject_flat {fields : List (Bytes × AmfItem)} {bytes : Bytes}
    (h : FieldsLayout fields bytes) (hflat : Flat fields) (rest : Bytes) {left : Int}
    (hleft : bytes.length ≤ left) {before : List (Bytes × AmfItem)}
    (hnew : ∀ field ∈ fields, ∀ old ∈ before, old.1 ≠ field.1) (hfuel : fields.length < fuel) :
    decodeAmfObject fuel before ⟨bytes ++ rest, left⟩ =
      .ok (.ok, before ++ fields.map fun field => (field.1, field.2.readBack),
        ⟨0x09 :: rest, left - bytes.length + 1⟩) := by
  induction fields generalizing fuel bytes left before with
  | nil =>
    obtain ⟨fuel, rfl⟩ : ∃ k, fuel = k + 1 := ⟨fuel - 1, by rw [List.length_nil] at hfuel; omega⟩
    cases h
    simp only [List.length_cons, List.length_nil] at hleft
    have hsplit : [0x00, 0x00, 0x09] ++ rest = [0x00, 0x00] ++ (0x09 :: rest) := rfl
    have hpos : 0 < (Cursor.mk ([0x00, 0x00] ++ (0x09 :: rest)) left).leftLen := by
      simp only
      omega
    rw [hsplit, decodeAmfObject_end hpos (@peek_append 2 _ _ rfl _) rfl,
      @skip_append 2 _ _ rfl, peek_one rfl, ok_bind, List.map_nil, List.append_nil,
      show left - (2 : Nat) = left - (3 : Nat) + 1 by omega]
    rfl
  | cons field fields ih =>
    obtain ⟨fuel, rfl⟩ : ∃ k, fuel = k + 2 :=
      ⟨fuel - 2, by rw [List.length_cons] at hfuel; omega⟩
    cases h with
    | @cons key value bytes item _ hpos hlen hfresh hvalue hrest =>
      have hplain : item.IsPlain := hflat (key, item) List.mem_cons_self
      obtain rfl := hvalue.eq_valueBytes hplain
      have hkeylen : (encodeString key true []).length = key.length + 2 := by
        rw [encodeString_key hlen, List.length_append, write2bytes_length, Nat.add_comm]
      simp only [List.length_append, List.length_cons] at hleft hfuel
      rw [List.append_assoc, List.append_assoc,
        decodeAmfObject_field (by simp only; omega) (keyAt_encodeString hpos hlen _ _)
          (decode_encodeValue hplain _ _),
        insertField_new fun old hold => hnew _ List.mem_cons_self old hold,
        ih hrest (fun field hfield => hflat field (List.mem_cons_of_mem _ hfield))
          (by omega) (fun field hfield old hold => ?_) (by omega)]
      · rw [List.map_cons, List.append_assoc, Except.ok.injEq]
        simp only [List.length_append, Prod.mk.injEq, Cursor.mk.injEq, true_and]
        exact ⟨rfl, by omega⟩
      · rw [List.mem_append, List.mem_singleton] at hold
        rcases hold with hold | rfl
        · exact hnew field (List.mem_cons_of_mem _ hfield) old hold
        · exact (hfresh field hfield).symm

/-- An object without objects in it reads back, and the pointer is left at its end marker. -/
theorem decode_flat {fields : List (Bytes × AmfItem)} {bytes : Bytes}
    (h : FieldsLayout fields bytes) (hflat : Flat fields) (following after : Bytes) :
    decodeValue (objectCursor (0x03 :: bytes) following after) =
      .ok (.ok, .object (fields.map fun field => (field.1, field.2.readBack)),
        ⟨0x09 :: (following ++ after), following.length + 1⟩) := by
  have hskip : (objectCursor (0x03 :: bytes) following after).skip 1 =
      ⟨bytes ++ (following ++ after), bytes.length + following.length⟩ := by
    rw [objectCursor, List.cons_append, skip_cons, Cursor.mk.injEq]
    simp only [List.cons_append, List.length_cons, List.length_append, true_and]
    omega
  have hfuel : fields.length < (objectCursor (0x03 :: bytes) following after).data.length := by
    have hlt := h.length_lt
    simp only [objectCursor, List.cons_append, List.length_cons, List.length_append]
    omega
  rw [decodeValue, decode_object rfl, hskip,
    decodeAmfObject_flat h hflat _ (by omega) (by simp) hfuel, ok_bind, List.nil_append,
    show (bytes.length : Int) + following.length - bytes.length + 1 = following.length + 1 by omega]

theorem not_endsBehind_of_flat {fields : List (Bytes × AmfItem)} {bytes : Bytes}
    (h : FieldsLayout fields bytes) (hflat : Flat fields) (following after : Bytes) :
    ¬ EndsBehind (0x03 :: bytes) following after := by
  rintro ⟨item, hd⟩
  rw [decode_flat h hflat, Except.ok.injEq] at hd
  simp only [Prod.mk.injEq, Cursor.mk.injEq, true_and] at hd
  omega

/-! The end marker of a value that is an object is read as the length of a key. -/

/-- The object has, at some depth, a key whose length begins with an end marker. -/
inductive LongKey : AmfItem → Prop
  | key {fields : List (Bytes × AmfItem)} {field : Bytes × AmfItem} (hmem : field ∈ fields)
      (hlong : 0x0900 ≤ field.1.length) : LongKey (.object fields)
  | value {fields : List (Bytes × AmfItem)} {field : Bytes × AmfItem} (hmem : field ∈ fields)
      (hlong : LongKey field.2) : LongKey (.object fields)

theorem subset_insertField (key : Bytes) (item : AmfItem) (fields : List (Bytes × AmfItem)) :
    fields ⊆ insertField key item fields := by
  unfold insertField
  split_ifs
  · exact List.Subset.refl fields
  · exact List.subset_append_left fields _

theorem exists_mem_insertField (key : Bytes) (item : AmfItem) (fields : List (Bytes × AmfItem)) :
    ∃ field ∈ insertField key item fields, field.1 = key := by
  unfold insertField
  split_ifs with hany
  · simpa using hany
  · exact ⟨(key, item), by simp, rfl⟩

/-- No field is lost. -/
theorem subset_of_decodeAmfObject {fields fields' : List (Bytes × AmfItem)} {c d : Cursor}
    {ret : RtmpRet} (h : decodeAmfObject fuel fields c = .ok (ret, fields', d)) :
    fields ⊆ fields' := by
  induction fuel generalizing fields c with
  | zero => cases h
  | succ fuel ih =>
    cases objectCase_of_ok h with
    | noneLeft => exact List.Subset.refl _
    | objectEnd => exact List.Subset.refl _
    | unknown => exact List.Subset.refl _
    | failed => exact List.Subset.refl _
    | field hpos hkey hd hrest => exact List.Subset.trans (subset_insertField _ _ _) (ih hrest)

/-- The length of a key that begins with an end marker. -/
theorem le_read2bytes_of_end {len : Bytes} (hlen : len.length = 2) (h : len.head? = some 0x09) :
    0x0900 ≤ (read2bytes len).toNat := by
  obtain ⟨high, low, rfl⟩ := List.length_eq_two.mp hlen
  obtain rfl : high = 0x09 := Option.some.inj h
  have hlow := low.toNat_lt
  simp [read2bytes, BigEndian.value]
  omega

theorem head_of_peek {n : Nat} {c : Cursor} {bytes : Bytes} (h : c.peek (n + 1) = .ok bytes) :
    bytes.head? = c.data.head? := by
  obtain ⟨hlen, hdata⟩ := peek_ok h
  obtain ⟨byte, bytes, rfl⟩ := List.exists_of_length_succ _ hlen
  rw [hdata]
  rfl

/-- From an end marker an object goes on, if it does, with a long key. -/
theorem longKey_of_end {fields fields' : List (Bytes × AmfItem)} {c d : Cursor}
    (hpos : 0 < c.leftLen) (hend : c.data.head? = some 0x09)
    (h : decodeAmfObject (fuel + 1) fields c = .ok (.ok, fields', d)) :
    LongKey (.object fields') := by
  cases objectCase_of_ok h with
  | noneLeft hnone => omega
  | objectEnd _ hlen hzero _ =>
    have hle := le_read2bytes_of_end (peek_ok hlen).1 ((head_of_peek hlen).trans hend)
    rw [hzero] at hle
    cases hle
  | failed _ _ _ hret => exact absurd rfl hret
  | @field key _ _ item _ _ hkey hd hrest =>
    obtain ⟨len, hlen, -, hkey, -⟩ := hkey
    have hle := le_read2bytes_of_end (peek_ok hlen).1 ((head_of_peek hlen).trans hend)
    obtain ⟨field, hfield, hname⟩ := exists_mem_insertField key item fields
    refine .key (subset_of_decodeAmfObject hrest hfield) ?_
    rw [hname, (peek_ok hkey).1]
    exact hle

/-- An iteration that reads a key and succeeds has read its value. -/
theorem exists_value_of_ok {fields fields' : List (Bytes × AmfItem)} {c d e : Cursor} {key : Bytes}
    (hpos : 0 < c.leftLen) (hkey : KeyAt c key d)
    (h : decodeAmfObject (fuel + 1) fields c = .ok (.ok, fields', e)) :
    ∃ item d', decode fuel d = .ok (.ok, item, d') ∧
      decodeAmfObject fuel (insertField key item fields) d' = .ok (.ok, fields', e) := by
  rw [decodeAmfObject_key hpos hkey] at h
  obtain ⟨bytes, -, h⟩ := exists_of_bind_ok h
  split_ifs at h
  · cases h
  · obtain ⟨⟨ret, item, d'⟩, hd, h⟩ := exists_of_bind_ok h
    split_ifs at h with hret
    · cases h
      exact absurd rfl hret
    · obtain rfl : ret = .ok := not_not.mp hret
      exact ⟨item, d', hd, h⟩

/-- A value that is not plain is an object, or it is too long for its length field. -/
theorem ValueLayout.object_or_long {item : AmfItem} {bytes : Bytes} (h : ValueLayout item bytes)
    (hplain : ¬ item.IsPlain) :
    (∃ fields inner, item = .object fields ∧ bytes = 0x03 :: inner ∧ FieldsLayout fields inner) ∨
      2 ^ 32 ≤ bytes.length := by
  cases h with
  | string desc =>
    have hlong : ¬ desc.length < 2 ^ 32 := hplain
    rw [valueBytes_longString (by omega), List.length_cons, List.length_append]
    exact Or.inr (by omega)
  | object hfields => exact Or.inl ⟨_, _, rfl, rfl, hfields⟩
  | _ => exact absurd trivial hplain

/-- An object with an object in it is read, if it is, with a long key. -/
theorem longKey_of_nested {fields fields' before : List (Bytes × AmfItem)} {bytes rest : Bytes}
    {left : Int} {d : Cursor} (h : FieldsLayout fields bytes) (hnested : ¬ Flat fields)
    (hleft : bytes.length ≤ left) (hint : bytes.length < 2 ^ 31)
    (hnew : ∀ field ∈ fields, ∀ old ∈ before, old.1 ≠ field.1) (hfuel : bytes.length ≤ fuel)
    (hd : decodeAmfObject fuel before ⟨bytes ++ rest, left⟩ = .ok (.ok, fields', d)) :
    LongKey (.object fields') := by
  -- on the fuel: the fields behind a value, and the fields of a value that is an object
  induction fuel using Nat.strongRecOn generalizing fields bytes rest left before fields' d with
  | ind fuel ih =>
    cases h with
    | nil => exact absurd (fun field hfield => by cases hfield) hnested
    | @cons key value bytes item fields hpos hlen hfresh hvalue hrest =>
      have hkeylen : (encodeString key true []).length = key.length + 2 := by
        rw [encodeString_key hlen, List.length_append, write2bytes_length, Nat.add_comm]
      simp only [List.length_append] at hleft hint hfuel
      obtain ⟨fuel, rfl⟩ : ∃ k, fuel = k + 2 := ⟨fuel - 2, by omega⟩
      rw [List.append_assoc, List.append_assoc] at hd
      obtain ⟨item', d', hvalue', hrest'⟩ :=
        exists_value_of_ok (by simp only; omega) (keyAt_encodeString hpos hlen _ _) hd
      rw [insertField_new fun old hold => hnew _ List.mem_cons_self old hold] at hrest'
      by_cases hplain : item.IsPlain
      · obtain rfl := hvalue.eq_valueBytes hplain
        rw [decode_encodeValue hplain] at hvalue'
        cases hvalue'
        have hnested' : ¬ Flat fields := fun hflat =>
          hnested (List.forall_mem_cons.mpr ⟨hplain, hflat⟩)
        refine ih (fuel + 1) (by omega) hrest hnested' (by omega) (by omega) ?_ (by omega) hrest'
        intro field hfield old hold
        rw [List.mem_append, List.mem_singleton] at hold
        rcases hold with hold | rfl
        · exact hnew field (List.mem_cons_of_mem _ hfield) old hold
        · exact (hfresh field hfield).symm
      · rcases hvalue.object_or_long hplain with ⟨inner, innerBytes, rfl, rfl, hinner⟩ | hlong
        · rw [List.cons_append, decode_object rfl, skip_cons] at hvalue'
          obtain ⟨⟨ret, innerFields, e⟩, hobject, hvalue'⟩ := exists_of_bind_ok hvalue'
          cases hvalue'
          rw [List.length_cons] at hleft hint hfuel
          by_cases hflat : Flat inner
          · have hlt := hinner.length_lt
            rw [decodeAmfObject_flat hinner hflat _ (by omega) (by simp) (by omega)] at hobject
            cases hobject
            exact longKey_of_end (by simp only; omega) rfl hrest'
          · have hlong := ih fuel (by omega) hinner hflat (by omega) (by omega) (by simp)
              (by omega) hobject
            have hmem : (key, .object innerFields) ∈ fields' :=
              subset_of_decodeAmfObject hrest' (by simp)
            exact .value hmem hlong
        · omega

theorem longKey_of_ends {fields : List (Bytes × AmfItem)} {bytes after : Bytes} {item : AmfItem}
    (h : FieldsLayout fields bytes) (hint : bytes.length < 2 ^ 31)
    (hd : decodeValue (objectCursor (0x03 :: bytes) [] after) = .ok (.ok, item, ⟨after, 0⟩)) :
    LongKey item := by
  by_cases hflat : Flat fields
  · exact absurd ⟨item, hd⟩ (not_endsBehind_of_flat h hflat [] after)
  · rw [decodeValue, decode_object rfl] at hd
    obtain ⟨⟨ret, fields', c'⟩, hout, hd⟩ := exists_of_bind_ok hd
    cases hd
    have hskip : (objectCursor (0x03 :: bytes) [] after).skip 1 =
        ⟨bytes ++ after, bytes.length⟩ := by
      rw [objectCursor, List.cons_append, skip_cons, Cursor.mk.injEq]
      simp
    rw [hskip] at hout
    refine longKey_of_nested h hflat (Int.le_refl _) hint (by simp) ?_ hout
    simp only [objectCursor, List.cons_append, List.length_cons, List.length_append]
    omega

/-- **The end marker.**  Behind no object does `decode` leave the pointer at the byte that
follows, when one follows.  When none does, it returns no object with the pointer behind it
but one with a key that is as long as an end marker makes it. -/
theorem end_marker_left {fields : List (Bytes × AmfItem)} {bytes : Bytes}
    (h : ValueLayout (.object fields) bytes) (after : Bytes) :
    (∀ following, following ≠ [] → ¬ EndsBehind bytes following after) ∧
      (bytes.length < 2 ^ 31 → ∀ item, ¬ LongKey item →
        decodeValue (objectCursor bytes [] after) ≠ .ok (.ok, item, ⟨after, 0⟩)) := by
  cases h with
  | object hfields =>
    refine ⟨fun following hne => not_endsBehind_of_following hfields hne after, ?_⟩
    intro hint item hshort hd
    rw [List.length_cons] at hint
    exact hshort (longKey_of_ends hfields (by omega) hd)

/-- An object with one field. -/
def oneField : Bytes := [0x03, 0x00, 0x01, 0x61, 0x05, 0x00, 0x00, 0x09]

theorem oneField_layout : ValueLayout (.object [([0x61], .null)]) oneField :=
  .object (.cons (by decide) (by decide) (by simp) .null .nil)

theorem end_marker_left_one : ¬ EndsBehind oneField [0x05] [] :=
  (end_marker_left oneField_layout []).1 [0x05] (by decide)

/-- Behind an object with one field, the next argument of a command is not reached. -/
theorem not_ends_behind_one :
    ¬ ∃ item, decodeValue (objectCursor oneField [0x05] []) = .ok (.ok, item, ⟨[0x05], 1⟩) := by
  rintro ⟨item, hd⟩
  cases hd

end AmfDecoder

end MediaServer
