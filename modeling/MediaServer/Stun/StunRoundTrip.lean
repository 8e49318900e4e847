import MediaServer.Stun.StunPacket
import Mathlib.Tactic.Common

/-!
# Writing a STUN message and reading it back

`stun_round_trip` is about every binding message: `serialize` writes it, `parse`
reads the same fields, and `check_auth` accepts the code with the password.

The proof follows the loop of `parse`.  `parseFrom_attr` is one turn of it, over an
attribute and its filling.  An attribute that is left out when its field has the
value that a new packet has leaves the field right as well, so that
`parseFrom_optional` covers both cases, and the lemmas behind it are this one for
each attribute in turn.  The two hashes see the same bytes on both sides:
`writeLength_written` is about the first, whose header has another length.
-/

namespace MediaServer

theorem padTo4bytes_toNat {n : Nat} (h : n < 65533) :
    (padTo4bytes (UInt16.ofNat n)).toNat = (n + 3) / 4 * 4 := by
  have hn : (UInt16.ofNat n).toNat = n := UInt16.toNat_ofNat_of_lt' (by simp [UInt16.size]; omega)
  have hlow : (UInt16.ofNat n &&& 0x03).toNat = n % 4 := by
    rw [UInt16.toNat_and, hn]
    exact Nat.and_two_pow_sub_one_eq_mod n 2
  have hhigh : (UInt16.ofNat n &&& 0xFFFC).toNat = n / 4 * 4 := by
    rw [UInt16.toNat_and, hn]
    have hdiv : (n &&& 0xFFFC) / 2 ^ 2 = n / 4 := by
      rw [Nat.and_div_two_pow]
      exact (Nat.and_two_pow_sub_one_eq_mod (n / 4) 14).trans (Nat.mod_eq_of_lt (by omega))
    have hmod : (n &&& 0xFFFC) % 2 ^ 2 = 0 := by
      rw [Nat.and_mod_two_pow]
      simp
    show n &&& 0xFFFC = _
    omega
  unfold padTo4bytes
  split
  · rename_i hne
    have hne' : n % 4 ≠ 0 := by
      intro hz
      apply hne
      rw [← UInt16.toNat_inj, hlow, hz]
      rfl
    rw [UInt16.toNat_add, hhigh]
    show (n / 4 * 4 + 4) % 65536 = _
    omega
  · rename_i heq
    have heq' : n % 4 = 0 := by
      rw [← hlow]
      simpa using congrArg UInt16.toNat (not_not.mp heq)
    rw [hn]
    omega

namespace StunPacket

/-! ## The loop over the attributes -/

/-- `parseAttributes` with fuel for all bytes. -/
def parseFrom (p : Nat) (rest : Bytes) (st : ParseState) :
    Except (Stop StunError) (Nat × ParseState) :=
  parseAttributes (rest.length + 1) p rest st

/-- Fuel that is enough does not matter. -/
theorem parseAttributes_fuel {f g p : Nat} {rest : Bytes} {st : ParseState}
    (hf : rest.length < f) (hg : rest.length < g) :
    parseAttributes f p rest st = parseAttributes g p rest st := by
  induction f generalizing g p rest st with
  | zero => omega
  | succ f ih =>
    obtain ⟨g, rfl⟩ : ∃ g', g = g' + 1 := ⟨g - 1, by omega⟩
    simp only [parseAttributes]
    split
    · rfl
    · rename_i hlen
      repeat' split
      all_goals first | rfl | skip
      apply ih
      · simp only [List.length_drop]
        omega
      · simp only [List.length_drop]
        omega

theorem parseFrom_nil (p : Nat) (st : ParseState) : parseFrom p [] st = .ok (p, st) := rfl

/-- One turn of the loop: an attribute and its filling. -/
theorem parseFrom_attr {p : Nat} {attrType : UInt16} {attrData : Bytes} {st st' : ParseState}
    (fill tail : Bytes) (hlen : attrData.length < 65533)
    (hfill : attrData.length + fill.length = (attrData.length + 3) / 4 * 4)
    (hmore : 0 < attrData.length + tail.length) (hfp : st.hasFingerprint = false)
    (hmi : st.hasMessageIntegrity = false ∨ attrType = STUN_FINGERPRINT)
    (hattr : parseAttribute attrType attrData (p + 4) st = .ok st') :
    parseFrom p (attr attrType attrData ++ fill ++ tail) st =
      parseFrom (p + (attr attrType attrData ++ fill).length) tail st' := by
  have hdrop2 : (attr attrType attrData ++ fill ++ tail).drop 2 =
      write2bytes (UInt16.ofNat attrData.length) ++ (attrData ++ fill ++ tail) := by
    simp [attr, List.append_assoc]
  have hdrop4 : (attr attrType attrData ++ fill ++ tail).drop 4 = attrData ++ (fill ++ tail) := by
    rw [show 4 = 2 + 2 from rfl, ← List.drop_drop, hdrop2]
    simp [List.append_assoc]
  have htype : read2bytes (attr attrType attrData ++ fill ++ tail) = attrType := by
    simp [attr, List.append_assoc]
  have hlength : (UInt16.ofNat attrData.length).toNat = attrData.length :=
    UInt16.toNat_ofNat_of_lt' (by simp [UInt16.size]; omega)
  have hskip : (padTo4bytes (UInt16.ofNat attrData.length)).toNat = (attrData ++ fill).length := by
    rw [padTo4bytes_toNat hlen, List.length_append, hfill]
  have htotal : (attr attrType attrData ++ fill ++ tail).length =
      4 + (attrData ++ fill).length + tail.length := by
    simp [attr]
    omega
  have hsize : (attrData ++ fill).length = attrData.length + fill.length := List.length_append
  have hallowed : ¬(st.hasMessageIntegrity ∧ attrType ≠ STUN_FINGERPRINT) := by
    rintro ⟨hset, hother⟩
    rcases hmi with hmi | hmi
    · rw [hmi] at hset
      cases hset
    · exact hother hmi
  rw [parseFrom, parseAttributes]
  simp only [hdrop2, hdrop4, htype, read2bytes_write2bytes, hlength, hskip, hfp]
  rw [if_neg (by omega), if_neg (by simp), if_neg (by simp), if_neg hallowed,
    List.take_left, hattr]
  simp only []
  rw [← List.append_assoc, List.drop_left,
    show (attr attrType attrData ++ fill).length = 4 + (attrData ++ fill).length by
      simp [attr]; omega, ← Nat.add_assoc]
  exact parseAttributes_fuel (by omega) (by omega)

/-- An attribute that stands there only when it says something new. -/
theorem parseFrom_optional {c : Prop} [Decidable c] {p : Nat} {attrType : UInt16}
    {attrData tail : Bytes} {st st' : ParseState} (hlen : attrData.length < 65533)
    (hfour : attrData.length % 4 = 0) (hmore : tail ≠ [])
    (hfp : st.hasFingerprint = false) (hmi : st.hasMessageIntegrity = false)
    (hattr : c → parseAttribute attrType attrData (p + 4) st = .ok st') (hnot : ¬c → st' = st) :
    parseFrom p ((if c then attr attrType attrData else []) ++ tail) st =
      parseFrom (p + (if c then attr attrType attrData else []).length) tail st' := by
  by_cases hc : c
  · have hpos := List.length_pos_iff.mpr hmore
    have hturn := parseFrom_attr [] tail hlen (by simp; omega) (by omega) hfp (.inl hmi) (hattr hc)
    simpa [hc] using hturn
  · simp [hc, hnot hc]

/-! ## What is written -/

/-- A message as the server makes it: the code fills in the fields of a packet that
`stun_packet()` has made. -/
structure Encodable (pkt : StunPacket) : Prop where
  binding : pkt.stunMethod = BINDING
  transactionId : pkt.transactionId.length = 12
  noAddress : pkt.xorAddress = none
  dataSize : pkt.data.length = STUN_DATA_SIZE
  noError : pkt.stunClass ≠ .errorResponse → pkt.errorCode = 0
  errorRange : pkt.errorCode.toNat < 25600

@[simp] theorem attr_length (attrType : UInt16) (attrData : Bytes) :
    (attr attrType attrData).length = 4 + attrData.length := by
  simp [attr]
  omega

theorem attr_ne_nil (attrType : UInt16) (attrData : Bytes) : attr attrType attrData ≠ [] := by
  intro h
  have hlen := congrArg List.length h
  simp at hlen

variable {pkt : StunPacket} {hmac : HmacSha1}

@[simp] theorem errorValue_length (code : UInt16) : (errorValue code).length = 4 := by
  simp [errorValue]

theorem addXorAddress_eq_none (h : Encodable pkt) : pkt.addXorAddress = none := by
  simp [addXorAddress, h.noAddress]

theorem header_length (h : Encodable pkt) : pkt.header.length = 20 := by
  simp [header, h.transactionId, magicCookie]

theorem integrity_length : (integrity hmac pkt).length = 20 := hmac.length _ _

/-- Header, user name and fingerprint are in `data`. -/
theorem userName_room (h : Encodable pkt) (hfits : (written hmac pkt).length ≤ STUN_DATA_SIZE) :
    pkt.userName.length + 24 ≤ STUN_DATA_SIZE := by
  have hheader := header_length h
  by_cases hempty : pkt.userName = []
  · simp [hempty, STUN_DATA_SIZE]
  · refine Nat.le_trans ?_ hfits
    simp only [written, signed, body, integrityAttribute, userNameAttribute, List.isEmpty_iff,
      hempty, if_false, List.length_append, attr_length, hheader, write4bytes_length]
    omega

theorem userNamePadLen_eq (h : Encodable pkt)
    (hfits : (written hmac pkt).length ≤ STUN_DATA_SIZE) :
    pkt.userNamePadLen = (pkt.userName.length + 3) / 4 * 4 := by
  have hroom := userName_room h hfits
  rw [STUN_DATA_SIZE] at hroom
  exact padTo4bytes_toNat (by omega)

/-- The bytes that the write pointer moves over behind the user name. -/
def filling (pkt : StunPacket) : Bytes :=
  (pkt.data.drop (STUN_HEADER_SIZE + 4 + pkt.userName.length)).take
    (pkt.userNamePadLen - pkt.userName.length)

theorem filling_length (h : Encodable pkt) (hfits : (written hmac pkt).length ≤ STUN_DATA_SIZE) :
    pkt.userName.length + pkt.filling.length = (pkt.userName.length + 3) / 4 * 4 := by
  have hpad := userNamePadLen_eq h hfits
  have hroom := userName_room h hfits
  have hsize := h.dataSize
  rw [STUN_DATA_SIZE] at hroom hsize
  rw [filling, List.length_take, List.length_drop, hsize, hpad, STUN_HEADER_SIZE]
  omega

/-- The attributes between the user name and MESSAGE-INTEGRITY. -/
def options (pkt : StunPacket) : Bytes :=
  (if pkt.priority ≠ 0 then attr STUN_PRIORITY (write4bytes pkt.priority) else []) ++
    ((if pkt.iceControlling ≠ 0 then attr STUN_ICE_CONTROLLING (write8bytes pkt.iceControlling)
      else []) ++
    ((if pkt.iceControlled ≠ 0 then attr STUN_ICE_CONTROLLED (write8bytes pkt.iceControlled)
      else []) ++
    ((if pkt.hasUseCandidate then attr STUN_USE_CANDIDATE [] else []) ++
    (if pkt.addError then attr STUN_ERROR_CODE (errorValue pkt.errorCode) else []))))

theorem body_eq (h : Encodable pkt) :
    pkt.body = pkt.header ++ (pkt.userNameAttribute ++ pkt.options) := by
  simp only [body, options, addXorAddress_eq_none h, List.append_assoc, List.append_nil, ite_not]

theorem userNameAttribute_eq (hname : pkt.userName ≠ []) :
    pkt.userNameAttribute = attr STUN_USERNAME pkt.userName ++ pkt.filling := by
  simp [userNameAttribute, filling, hname]

/-- The two places that compute the length agree. -/
theorem written_length (h : Encodable pkt) (hfits : (written hmac pkt).length ≤ STUN_DATA_SIZE) :
    (written hmac pkt).length = pkt.serializedLen := by
  have hheader := header_length h
  have hpad := userNamePadLen_eq h hfits
  have hfill := filling_length h hfits
  have hcode : (integrity hmac pkt).length = 20 := integrity_length
  have hname : (userNameAttribute pkt).length =
      if pkt.userName.isEmpty then 0 else 4 + pkt.userNamePadLen := by
    by_cases hempty : pkt.userName = []
    · simp [userNameAttribute, hempty]
    · rw [userNameAttribute_eq hempty, List.length_append, attr_length, hpad]
      simp only [List.isEmpty_iff, hempty, if_false]
      omega
  simp only [written, signed, integrityAttribute, body_eq h, options, List.length_append, hheader,
    hname, serializedLen, STUN_HEADER_SIZE, addXorAddress_eq_none h, ne_eq, ite_not,
    apply_ite List.length, attr_length, write4bytes_length, write8bytes_length, errorValue_length,
    hcode, List.length_nil, Option.isSome_none, Bool.false_eq_true, if_false, Nat.add_zero]
  omega

/-! ## Reading back what is written -/

/-- The class and the number of an error make up its code again. -/
theorem errorValue_read {code : UInt16} (h : code.toNat < 25600) :
    UInt16.ofNat (((errorValue code).getD 2 0).toNat * 100 + ((errorValue code).getD 3 0).toNat) =
      code := by
  have hclass : ((errorValue code).getD 2 0).toNat = code.toNat / 100 := by
    show ((code / 100).toUInt8).toNat = _
    rw [UInt16.toNat_toUInt8, UInt16.toNat_div]
    show code.toNat / 100 % 256 = _
    omega
  have hnumber : ((errorValue code).getD 3 0).toNat = code.toNat % 100 := by
    show (code.toUInt8 - (code / 100).toUInt8 * 100).toNat = _
    rw [UInt8.toNat_sub, UInt8.toNat_mul, UInt16.toNat_toUInt8, UInt16.toNat_toUInt8,
      UInt16.toNat_div]
    show (256 - code.toNat / 100 % 256 * 100 % 256 + code.toNat % 256) % 256 = _
    omega
  rw [hclass, hnumber, show code.toNat / 100 * 100 + code.toNat % 100 = code.toNat by omega,
    UInt16.ofNat_toNat]

theorem parseFrom_userName {p : Nat} {tail : Bytes} {st : ParseState} (h : Encodable pkt)
    (hfits : (written hmac pkt).length ≤ STUN_DATA_SIZE) (hfp : st.hasFingerprint = false)
    (hmi : st.hasMessageIntegrity = false) (hinit : st.retPacket.userName = []) :
    parseFrom p (pkt.userNameAttribute ++ tail) st =
      parseFrom (p + pkt.userNameAttribute.length) tail
        { st with retPacket.userName := pkt.userName } := by
  by_cases hempty : pkt.userName = []
  · have hsame : { st with retPacket.userName := pkt.userName } = st := by
      rw [hempty, ← hinit]
    rw [hsame]
    simp [userNameAttribute, hempty]
  · have hroom := userName_room h hfits
    have hpos := List.length_pos_iff.mpr hempty
    rw [STUN_DATA_SIZE] at hroom
    rw [userNameAttribute_eq hempty]
    exact parseFrom_attr _ _ (by omega) (filling_length h hfits) (by omega) hfp (.inl hmi) rfl

section Optional

variable {p : Nat} {tail : Bytes} {st : ParseState} (hfp : st.hasFingerprint = false)
  (hmi : st.hasMessageIntegrity = false) (htail : tail ≠ [])
include hfp hmi htail

theorem parseFrom_priority {v : UInt32} (hinit : st.retPacket.priority = 0) :
    parseFrom p ((if v ≠ 0 then attr STUN_PRIORITY (write4bytes v) else []) ++ tail) st =
      parseFrom (p + (if v ≠ 0 then attr STUN_PRIORITY (write4bytes v) else []).length) tail
        { st with retPacket.priority := v } := by
  refine parseFrom_optional (by simp) (by simp) htail hfp hmi (fun _ => ?_) (fun hv => ?_)
  · have hread := read4bytes_write4bytes v []
    rw [List.append_nil] at hread
    simp [parseAttribute, STUN_USERNAME, STUN_PRIORITY, hread]
  · rw [not_not.mp hv, ← hinit]

theorem parseFrom_iceControlling {v : UInt64} (hinit : st.retPacket.iceControlling = 0) :
    parseFrom p ((if v ≠ 0 then attr STUN_ICE_CONTROLLING (write8bytes v) else []) ++ tail) st =
      parseFrom (p + (if v ≠ 0 then attr STUN_ICE_CONTROLLING (write8bytes v) else []).length) tail
        { st with retPacket.iceControlling := v } := by
  refine parseFrom_optional (by simp) (by simp) htail hfp hmi (fun _ => ?_) (fun hv => ?_)
  · have hread := read8bytes_write8bytes v []
    rw [List.append_nil] at hread
    simp [parseAttribute, STUN_USERNAME, STUN_PRIORITY, STUN_ICE_CONTROLLING, hread]
  · rw [not_not.mp hv, ← hinit]

theorem parseFrom_iceControlled {v : UInt64} (hinit : st.retPacket.iceControlled = 0) :
    parseFrom p ((if v ≠ 0 then attr STUN_ICE_CONTROLLED (write8bytes v) else []) ++ tail) st =
      parseFrom (p + (if v ≠ 0 then attr STUN_ICE_CONTROLLED (write8bytes v) else []).length) tail
        { st with retPacket.iceControlled := v } := by
  refine parseFrom_optional (by simp) (by simp) htail hfp hmi (fun _ => ?_) (fun hv => ?_)
  · have hread := read8bytes_write8bytes v []
    rw [List.append_nil] at hread
    simp [parseAttribute, STUN_USERNAME, STUN_PRIORITY, STUN_ICE_CONTROLLING, STUN_ICE_CONTROLLED,
      hread]
  · rw [not_not.mp hv, ← hinit]

theorem parseFrom_useCandidate {v : Bool} (hinit : st.retPacket.hasUseCandidate = false) :
    parseFrom p ((if v then attr STUN_USE_CANDIDATE [] else []) ++ tail) st =
      parseFrom (p + (if v then attr STUN_USE_CANDIDATE [] else []).length) tail
        { st with retPacket.hasUseCandidate := v } := by
  refine parseFrom_optional (by simp) (by simp) htail hfp hmi (fun hv => ?_) (fun hv => ?_)
  · simp [parseAttribute, STUN_USERNAME, STUN_PRIORITY, STUN_ICE_CONTROLLING, STUN_ICE_CONTROLLED,
      STUN_USE_CANDIDATE, hv]
  · rw [Bool.not_eq_true _ |>.mp hv, ← hinit]

theorem parseFrom_errorCode (h : Encodable pkt) (hinit : st.retPacket.errorCode = 0) :
    parseFrom p ((if pkt.addError then attr STUN_ERROR_CODE (errorValue pkt.errorCode) else []) ++
        tail) st =
      parseFrom (p + (if pkt.addError then attr STUN_ERROR_CODE (errorValue pkt.errorCode)
        else []).length) tail { st with retPacket.errorCode := pkt.errorCode } := by
  refine parseFrom_optional (by simp) (by simp) htail hfp hmi (fun _ => ?_) (fun hv => ?_)
  · simp [parseAttribute, STUN_USERNAME, STUN_PRIORITY, STUN_ICE_CONTROLLING, STUN_ICE_CONTROLLED,
      STUN_USE_CANDIDATE, STUN_MESSAGE_INTEGRITY, STUN_FINGERPRINT, STUN_ERROR_CODE,
      -List.getD_eq_getElem?_getD, errorValue_read h.errorRange]
  · have hzero : pkt.errorCode = 0 := by
      by_cases hclass : pkt.stunClass = .errorResponse
      · simpa [addError, hclass] using hv
      · exact h.noError hclass
    rw [hzero, ← hinit]

/-- The attributes behind the user name give the fields of the packet. -/
theorem parseFrom_options (h : Encodable pkt) (hpriority : st.retPacket.priority = 0)
    (hcontrolling : st.retPacket.iceControlling = 0) (hcontrolled : st.retPacket.iceControlled = 0)
    (huse : st.retPacket.hasUseCandidate = false) (herror : st.retPacket.errorCode = 0) :
    parseFrom p (pkt.options ++ tail) st = parseFrom (p + pkt.options.length) tail
      { st with
        retPacket := { st.retPacket with
          priority := pkt.priority, iceControlling := pkt.iceControlling,
          iceControlled := pkt.iceControlled, hasUseCandidate := pkt.hasUseCandidate,
          errorCode := pkt.errorCode } } := by
  simp only [options, List.append_assoc, List.length_append, ← Nat.add_assoc]
  refine (parseFrom_priority hfp hmi ?_ hpriority).trans ?_
  · simp [htail]
  refine (parseFrom_iceControlling ?_ ?_ ?_ ?_).trans ?_
  · exact hfp
  · exact hmi
  · simp [htail]
  · exact hcontrolling
  refine (parseFrom_iceControlled ?_ ?_ ?_ ?_).trans ?_
  · exact hfp
  · exact hmi
  · simp [htail]
  · exact hcontrolled
  refine (parseFrom_useCandidate ?_ ?_ ?_ ?_).trans ?_
  · exact hfp
  · exact hmi
  · simp [htail]
  · exact huse
  exact parseFrom_errorCode hfp hmi htail h herror

end Optional

theorem parseFrom_signature {p : Nat} {st : ParseState} {c : Bool} {code : Bytes} {fp : UInt32}
    (hcode : code.length = 20) (hfp : st.hasFingerprint = false)
    (hmi : st.hasMessageIntegrity = false) (hinit : st.retPacket.messageIntegrity = none) :
    parseFrom p ((if c then attr STUN_MESSAGE_INTEGRITY code else []) ++
        attr STUN_FINGERPRINT (write4bytes fp)) st =
      .ok (p + ((if c then attr STUN_MESSAGE_INTEGRITY code else []) ++
          attr STUN_FINGERPRINT (write4bytes fp)).length,
        { st with
          hasMessageIntegrity := c, hasFingerprint := true,
          fingerprintPos := p + (if c then attr STUN_MESSAGE_INTEGRITY code else []).length,
          retPacket := { st.retPacket with
            messageIntegrity := if c then some (p + 4) else none, fingerprint := fp } }) := by
  have hread := read4bytes_write4bytes fp []
  rw [List.append_nil] at hread
  have hlast : ∀ {q : Nat} {s : ParseState}, s.hasFingerprint = false →
      parseFrom q (attr STUN_FINGERPRINT (write4bytes fp)) s =
        .ok (q + (attr STUN_FINGERPRINT (write4bytes fp)).length,
          { s with
            hasFingerprint := true, fingerprintPos := q, retPacket.fingerprint := fp }) := by
    intro q s hs
    have hattr : parseAttribute STUN_FINGERPRINT (write4bytes fp) (q + 4) s = .ok { s with
        hasFingerprint := true, fingerprintPos := q, retPacket.fingerprint := fp } := by
      simp [parseAttribute, STUN_USERNAME, STUN_PRIORITY, STUN_ICE_CONTROLLING,
        STUN_ICE_CONTROLLED, STUN_USE_CANDIDATE, STUN_MESSAGE_INTEGRITY, STUN_FINGERPRINT, hread]
    have hturn := parseFrom_attr [] [] (by simp) (by simp) (by simp) hs (.inr rfl) hattr
    rw [List.append_nil, List.append_nil, parseFrom_nil] at hturn
    exact hturn
  cases c with
  | false =>
    refine (hlast hfp).trans ?_
    simp only [Bool.false_eq_true, if_false, List.nil_append, List.length_nil, Nat.add_zero, hmi,
      hinit]
  | true =>
    have hattr : parseAttribute STUN_MESSAGE_INTEGRITY code (p + 4) st = .ok { st with
        hasMessageIntegrity := true, retPacket.messageIntegrity := some (p + 4) } := by
      simp [parseAttribute, STUN_USERNAME, STUN_PRIORITY, STUN_ICE_CONTROLLING,
        STUN_ICE_CONTROLLED, STUN_USE_CANDIDATE, STUN_MESSAGE_INTEGRITY, hcode]
    have hturn := parseFrom_attr [] (attr STUN_FINGERPRINT (write4bytes fp)) (by omega)
      (by simp [hcode]) (by simp) hfp (.inl hmi) hattr
    rw [List.append_nil] at hturn
    refine hturn.trans ((hlast ?_).trans ?_)
    · exact hfp
    · simp only [if_true, List.length_append, Nat.add_assoc]

/-- The two bytes of the message type of a binding message. -/
def typeBytes : StunClass → Bytes
  | .request => [0x00, 0x01]
  | .indication => [0x00, 0x11]
  | .successResponse => [0x01, 0x01]
  | .errorResponse => [0x01, 0x11]

theorem write2bytes_typeField (h : Encodable pkt) :
    write2bytes pkt.typeField = typeBytes pkt.stunClass := by
  rw [typeField, h.binding]
  rcases pkt.stunClass <;> decide

theorem header_eq (h : Encodable pkt) (rest : Bytes) :
    pkt.header ++ rest = typeBytes pkt.stunClass ++
      (write2bytes (UInt16.ofNat (pkt.serializedLen - 20)) ++
        (magicCookie ++ (pkt.transactionId ++ rest))) := by
  simp [header, write2bytes_typeField h, STUN_HEADER_SIZE]

theorem isStun_header {cls : StunClass} {len tid : Bytes} (hlen : len.length = 2)
    (htid : tid.length = 12) (rest : Bytes) :
    isStun (typeBytes cls ++ (len ++ (magicCookie ++ (tid ++ rest)))) = true := by
  have hdrop : (typeBytes cls ++ (len ++ (magicCookie ++ (tid ++ rest)))).drop 4 =
      magicCookie ++ (tid ++ rest) := by
    rcases cls <;> simp [typeBytes, hlen]
  have htake : (magicCookie ++ (tid ++ rest)).take 4 = magicCookie := List.take_left' rfl
  have hsize : STUN_HEADER_SIZE ≤
      (typeBytes cls ++ (len ++ (magicCookie ++ (tid ++ rest)))).length := by
    rcases cls <;> simp [typeBytes, magicCookie, STUN_HEADER_SIZE, hlen, htid] <;> omega
  have hfirst : (typeBytes cls ++ (len ++ (magicCookie ++ (tid ++ rest)))).getD 0 0 < 3 := by
    rcases cls
    · show (0x00 : UInt8) < 3
      decide
    · show (0x00 : UInt8) < 3
      decide
    · show (0x01 : UInt8) < 3
      decide
    · show (0x01 : UInt8) < 3
      decide
  rw [isStun, hdrop, htake, decide_eq_true hsize, decide_eq_true hfirst]
  simp

theorem classOf_typeBytes (cls : StunClass) (rest : Bytes) :
    classOf (typeBytes cls ++ rest) = cls := by
  have hfront : classOf (typeBytes cls ++ rest) = classOf (typeBytes cls) := by
    rcases cls <;> rfl
  rw [hfront]
  rcases cls <;> decide

theorem methodOf_typeBytes (cls : StunClass) (rest : Bytes) :
    methodOf (read2bytes (typeBytes cls ++ rest)) = BINDING := by
  have hfront : read2bytes (typeBytes cls ++ rest) = read2bytes (typeBytes cls) := by
    rcases cls <;> rfl
  rw [hfront]
  rcases cls <;> decide

/-- The header gives class, method and transaction id. -/
theorem ofHeader_written (h : Encodable pkt) (rest : Bytes) :
    ofHeader (pkt.header ++ rest) = {
      stunClass := pkt.stunClass, stunMethod := BINDING, transactionId := pkt.transactionId,
      originData := some (pkt.header ++ rest),
      data := pkt.header ++ rest ++
        List.replicate (STUN_DATA_SIZE - (pkt.header ++ rest).length) 0,
      dataLen := (pkt.header ++ rest).length } := by
  have hclass : classOf (pkt.header ++ rest) = pkt.stunClass := by
    rw [header_eq h, classOf_typeBytes]
  have hmethod : methodOf (read2bytes (pkt.header ++ rest)) = BINDING := by
    rw [header_eq h, methodOf_typeBytes]
  have htid : ((pkt.header ++ rest).drop 8).take 12 = pkt.transactionId := by
    have hdrop : (pkt.header ++ rest).drop 8 = pkt.transactionId ++ rest := by
      rw [header_eq h]
      rcases pkt.stunClass <;> rfl
    rw [hdrop, List.take_left' h.transactionId]
  rw [ofHeader, hclass, hmethod, htid]

/-- The packet that `parse` makes of a message. -/
def parsed (hmac : HmacSha1) (pkt : StunPacket) : StunPacket :=
  { ofHeader (written hmac pkt) with
    userName := pkt.userName, priority := pkt.priority, iceControlling := pkt.iceControlling,
    iceControlled := pkt.iceControlled, hasUseCandidate := pkt.hasUseCandidate,
    errorCode := pkt.errorCode,
    messageIntegrity := if pkt.addMsgIntegrity then some (pkt.body.length + 4) else none,
    fingerprint := caculateFingerprint (signed hmac pkt),
    hasFingerprint := true }

theorem four_dvd_ite {c : Prop} [Decidable c] {m n : Nat} (hm : 4 ∣ m) (hn : 4 ∣ n) :
    4 ∣ if c then m else n := by
  split
  · exact hm
  · exact hn

theorem four_dvd_serializedLen (h : Encodable pkt)
    (hfits : (written hmac pkt).length ≤ STUN_DATA_SIZE) : 4 ∣ pkt.serializedLen := by
  have hpad := userNamePadLen_eq h hfits
  have hname : 4 ∣ 4 + pkt.userNamePadLen := by omega
  have h4 : 4 ∣ 4 := by decide
  have h8 : 4 ∣ 4 + 4 := by decide
  have h12 : 4 ∣ 4 + 8 := by decide
  have h24 : 4 ∣ 4 + 20 := by decide
  have h20 : 4 ∣ STUN_HEADER_SIZE := by decide
  have h0 : 4 ∣ 0 := by decide
  exact Nat.dvd_add (Nat.dvd_add (Nat.dvd_add (Nat.dvd_add (Nat.dvd_add (Nat.dvd_add (Nat.dvd_add
    (Nat.dvd_add (Nat.dvd_add h20 (four_dvd_ite h0 hname)) (four_dvd_ite h0 h8))
    (four_dvd_ite h0 h12)) (four_dvd_ite h0 h12)) (four_dvd_ite h4 h0)) (four_dvd_ite h12 h0))
    (four_dvd_ite h8 h0)) (four_dvd_ite h24 h0)) h8

/-- The attributes of a message in the order of the loop that reads them. -/
theorem written_eq (h : Encodable pkt) :
    written hmac pkt = pkt.header ++ (pkt.userNameAttribute ++ (pkt.options ++
      (integrityAttribute hmac pkt ++
        attr STUN_FINGERPRINT (write4bytes (caculateFingerprint (signed hmac pkt)))))) := by
  rw [written, signed, body_eq h]
  simp only [List.append_assoc]

theorem parseFrom_written (h : Encodable pkt)
    (hfits : (written hmac pkt).length ≤ STUN_DATA_SIZE) :
    parseFrom STUN_HEADER_SIZE ((written hmac pkt).drop STUN_HEADER_SIZE)
        { retPacket := ofHeader (written hmac pkt) } =
      .ok ((written hmac pkt).length,
        { hasMessageIntegrity := pkt.addMsgIntegrity, hasFingerprint := true,
          fingerprintPos := (signed hmac pkt).length,
          retPacket := { parsed hmac pkt with hasFingerprint := false } }) := by
  have hbody : pkt.body.length = 20 + pkt.userNameAttribute.length + pkt.options.length := by
    rw [body_eq h, List.length_append, List.length_append, header_length h, Nat.add_assoc]
  have hsigned : (signed hmac pkt).length =
      pkt.body.length + (integrityAttribute hmac pkt).length := by
    rw [signed, List.length_append]
  have htotal : (written hmac pkt).length = pkt.body.length + (integrityAttribute hmac pkt ++
      attr STUN_FINGERPRINT (write4bytes (caculateFingerprint (signed hmac pkt)))).length := by
    rw [written, List.length_append, hsigned, List.length_append, Nat.add_assoc]
  have hdrop : (written hmac pkt).drop STUN_HEADER_SIZE = pkt.userNameAttribute ++ (pkt.options ++
      (integrityAttribute hmac pkt ++
        attr STUN_FINGERPRINT (write4bytes (caculateFingerprint (signed hmac pkt))))) := by
    rw [written_eq h]
    exact List.drop_left' (header_length h)
  have hmore : integrityAttribute hmac pkt ++
      attr STUN_FINGERPRINT (write4bytes (caculateFingerprint (signed hmac pkt))) ≠ [] :=
    List.append_ne_nil_of_right_ne_nil _ (attr_ne_nil _ _)
  rw [hdrop, htotal, hsigned, hbody]
  refine (parseFrom_userName h hfits rfl rfl rfl).trans ?_
  refine (parseFrom_options rfl rfl hmore h rfl rfl rfl rfl rfl).trans ?_
  refine (parseFrom_signature integrity_length rfl rfl rfl).trans ?_
  have hnew : (ofHeader (written hmac pkt)).hasFingerprint = false := rfl
  simp only [parsed, hbody, STUN_HEADER_SIZE, integrityAttribute, hnew]

theorem parse_written (h : Encodable pkt) (hfits : (written hmac pkt).length ≤ STUN_DATA_SIZE) :
    parse (written hmac pkt) = .ok (parsed hmac pkt) := by
  have hsize := written_length h hfits
  have hmult := four_dvd_serializedLen h hfits
  have hstun : isStun (written hmac pkt) = true := by
    rw [written_eq h, header_eq h]
    exact isStun_header (by simp) h.transactionId _
  have hlen : read2bytes ((written hmac pkt).drop 2) = UInt16.ofNat (pkt.serializedLen - 20) := by
    have hdrop : (written hmac pkt).drop 2 =
        write2bytes (UInt16.ofNat (pkt.serializedLen - 20)) ++ (written hmac pkt).drop 4 := by
      rw [written_eq h, header_eq h]
      rcases pkt.stunClass <;> rfl
    rw [hdrop, read2bytes_write2bytes]
  have hroom : pkt.serializedLen < 65536 := by
    rw [← hsize]
    exact Nat.lt_of_le_of_lt hfits (by decide)
  have hnat : (UInt16.ofNat (pkt.serializedLen - 20)).toNat = (written hmac pkt).length - 20 := by
    rw [hsize]
    exact UInt16.toNat_ofNat_of_lt' (by simp [UInt16.size]; omega)
  have hlow : UInt16.ofNat (pkt.serializedLen - 20) &&& 0x03 = 0 := by
    rw [← UInt16.toNat_inj, UInt16.toNat_and, hnat, hsize]
    refine (Nat.and_two_pow_sub_one_eq_mod (pkt.serializedLen - 20) 2).trans ?_
    show (pkt.serializedLen - 20) % 4 = 0
    omega
  have hcovers : (written hmac pkt).take (signed hmac pkt).length = signed hmac pkt :=
    List.take_left' rfl
  rw [parse]
  simp only [hstun, hlen, hnat, hlow, Bool.not_true, Bool.false_eq_true, if_false, ne_eq,
    not_true_eq_false, or_self, Nat.not_lt.mpr hfits]
  have hloop := parseFrom_written h hfits
  rw [parseFrom] at hloop
  rw [hloop]
  simp only [hcovers, if_true, not_true_eq_false, if_false]
  rw [if_neg]
  · simp only [parsed]
  · exact not_not.mpr rfl

/-! ## Writing, reading and authenticating -/

theorem serialize_eq (h : Encodable pkt) (hfits : (written hmac pkt).length ≤ STUN_DATA_SIZE) :
    serialize hmac pkt = .ok { pkt with
      data := written hmac pkt ++ pkt.data.drop (written hmac pkt).length
      dataLen := pkt.serializedLen
      messageIntegrity := if pkt.addMsgIntegrity then some (pkt.body.length + 4) else none
      hasFingerprint := true } := by
  have hroom := userName_room h hfits
  have hsize := written_length h hfits
  rw [serialize, if_neg (by rw [STUN_HEADER_SIZE]; omega), if_neg (by simpa using hsize)]

/-- The text that `check_auth` hashes is the one that `serialize` has hashed. -/
theorem writeLength_written (h : Encodable pkt) (len : UInt16) :
    writeLength (written hmac pkt) len = writeLength pkt.body len ++
      (written hmac pkt).drop pkt.body.length := by
  have hbody : 20 ≤ pkt.body.length := by
    rw [body_eq h, List.length_append, header_length h]
    omega
  have hsplit : written hmac pkt = pkt.body ++ (written hmac pkt).drop pkt.body.length := by
    rw [written, signed, List.append_assoc, List.drop_left]
  generalize (written hmac pkt).drop pkt.body.length = rest at hsplit ⊢
  rw [hsplit, writeLength, writeLength, List.take_append_of_le_length (by omega),
    List.drop_append_of_le_length (by omega)]
  simp only [List.append_assoc]

theorem writeLength_length {data : Bytes} {len : UInt16} (h : 4 ≤ data.length) :
    (writeLength data len).length = data.length := by
  simp [writeLength]
  omega

theorem writeLength_writeLength {data : Bytes} {len len' : UInt16} (h : 2 ≤ data.length) :
    writeLength (writeLength data len) len' = writeLength data len' := by
  have htake : (data.take 2).length = 2 := by simp [h]
  have hdrop : (data.take 2 ++ write2bytes len ++ data.drop 4).drop 4 = data.drop 4 :=
    List.drop_left' (by simp [htake])
  have hfront : (data.take 2 ++ write2bytes len ++ data.drop 4).take 2 = data.take 2 := by
    rw [List.append_assoc]
    exact List.take_left' htake
  rw [writeLength, writeLength, hdrop, hfront, writeLength]

/-- The length that stands in the header. -/
theorem writeLength_self (h : Encodable pkt) (rest : Bytes) :
    writeLength (pkt.header ++ rest) (UInt16.ofNat (pkt.serializedLen - 20)) =
      pkt.header ++ rest := by
  rw [header_eq h, writeLength]
  rcases pkt.stunClass <;> rfl

theorem parsed_origin : (parsed hmac pkt).origin = written hmac pkt := by
  simp only [origin, parsed, ofHeader, Option.getD_some]

theorem parsed_dataLen : (parsed hmac pkt).dataLen = (written hmac pkt).length := by
  simp only [parsed, ofHeader]

theorem setOrigin_origin (pkt : StunPacket) : pkt.setOrigin pkt.origin = pkt := by
  rw [setOrigin, origin]
  split
  · rename_i bytes horigin
    rw [horigin, Option.getD_some, ← horigin]
  · rename_i horigin
    rw [horigin, Option.getD_none, ← horigin]

theorem parsed_stunClass (hmac : HmacSha1) (h : Encodable pkt) :
    (parsed hmac pkt).stunClass = pkt.stunClass := by
  rw [parsed, written_eq h, ofHeader_written h]

theorem parsed_stunMethod (hmac : HmacSha1) (h : Encodable pkt) :
    (parsed hmac pkt).stunMethod = BINDING := by
  rw [parsed, written_eq h, ofHeader_written h]

theorem parsed_transactionId (hmac : HmacSha1) (h : Encodable pkt) :
    (parsed hmac pkt).transactionId = pkt.transactionId := by
  rw [parsed, written_eq h, ofHeader_written h]

theorem namesLocal_of_eq {localUsername rest : Bytes}
    (hname : pkt.userName = localUsername ++ ascii ":" ++ rest) :
    pkt.namesLocal localUsername = true := by
  have hcolon : ascii ":" = [58] := by decide
  rw [namesLocal, hname, hcolon]
  simp

/-- What stands behind the body of a message with a code. -/
theorem written_drop_body (hadd : pkt.addMsgIntegrity = true) :
    ((written hmac pkt).drop (pkt.body.length + 4)).take 20 = integrity hmac pkt := by
  have hdrop : (written hmac pkt).drop (pkt.body.length + 4) = integrity hmac pkt ++
      attr STUN_FINGERPRINT (write4bytes (caculateFingerprint (signed hmac pkt))) := by
    rw [← List.drop_drop, written, signed, integrityAttribute, hadd, if_pos rfl,
      List.append_assoc, List.drop_left, attr]
    rfl
  rw [hdrop, List.take_left' integrity_length]

/-- A request or indication for the local user is checked for its code. -/
theorem checkAuth_eq {localUsername localPwd : Bytes}
    (hclass : pkt.stunClass = .request ∨ pkt.stunClass = .indication)
    (hnames : pkt.namesLocal localUsername = true) :
    checkAuth hmac pkt localUsername localPwd = pkt.checkIntegrity hmac localPwd := by
  have hempty : pkt.userName.isEmpty = false := by
    rw [namesLocal, Bool.and_eq_true, Bool.and_eq_true, decide_eq_true_eq] at hnames
    exact List.isEmpty_eq_false_iff.mpr (List.length_pos_iff.mp (by omega))
  rcases hclass with hclass | hclass <;> simp [checkAuth, hclass, hempty, hnames]

theorem checkAuth_parsed (h : Encodable pkt) (hfits : (written hmac pkt).length ≤ STUN_DATA_SIZE)
    {localUsername rest : Bytes}
    (hclass : pkt.stunClass = .request ∨ pkt.stunClass = .indication) (hpwd : pkt.password ≠ [])
    (hname : pkt.userName = localUsername ++ ascii ":" ++ rest) :
    checkAuth hmac (parsed hmac pkt) localUsername pkt.password =
      .ok (.ok, parsed hmac pkt) := by
  have hsize := written_length h hfits
  have hbody : 20 ≤ pkt.body.length := by
    rw [body_eq h, List.length_append, header_length h]
    omega
  have hlong : pkt.body.length + 8 ≤ (written hmac pkt).length := by
    rw [written, signed, List.length_append, List.length_append, attr_length, write4bytes_length]
    omega
  have hadd : pkt.addMsgIntegrity = true := by
    rcases hclass with hclass | hclass <;> simp [addMsgIntegrity, hclass, hpwd]
  have hnames : (parsed hmac pkt).namesLocal localUsername = true :=
    namesLocal_of_eq hname
  -- the two lengths that `check_auth` writes
  have hshort : UInt16.ofNat (parsed hmac pkt).dataLen - 20 - 8 =
      UInt16.ofNat (pkt.serializedLen - STUN_HEADER_SIZE - 8) := by
    rw [parsed_dataLen, hsize, UInt16.ofNat_sub (by rw [STUN_HEADER_SIZE]; omega),
      UInt16.ofNat_sub (by rw [STUN_HEADER_SIZE]; omega)]
    rfl
  have hfull : UInt16.ofNat (parsed hmac pkt).dataLen - 20 =
      UInt16.ofNat (pkt.serializedLen - 20) := by
    rw [parsed_dataLen, hsize, UInt16.ofNat_sub (by omega)]
    rfl
  have hhash : (writeLength (written hmac pkt)
      (UInt16.ofNat (pkt.serializedLen - STUN_HEADER_SIZE - 8))).take pkt.body.length =
        writeLength pkt.body (UInt16.ofNat (pkt.serializedLen - STUN_HEADER_SIZE - 8)) := by
    rw [writeLength_written h]
    exact List.take_left' (writeLength_length (by omega))
  have hcode : ((writeLength (written hmac pkt)
      (UInt16.ofNat (pkt.serializedLen - STUN_HEADER_SIZE - 8))).drop (pkt.body.length + 4)).take
        20 = integrity hmac pkt := by
    rw [writeLength_written h, ← List.drop_drop,
      List.drop_left' (writeLength_length (by omega)), List.drop_drop, written_drop_body hadd]
  have hback : writeLength (writeLength (written hmac pkt)
      (UInt16.ofNat (pkt.serializedLen - STUN_HEADER_SIZE - 8)))
        (UInt16.ofNat (pkt.serializedLen - 20)) = written hmac pkt := by
    rw [writeLength_writeLength (by omega), written_eq h, writeLength_self h]
  have hposition : (parsed hmac pkt).messageIntegrity = some (pkt.body.length + 4) := by
    simp [parsed, hadd]
  rw [checkAuth_eq (by rw [parsed_stunClass hmac h]; exact hclass) hnames, checkIntegrity,
    hposition]
  have hfingerprint : (parsed hmac pkt).hasFingerprint = true := rfl
  simp only [hfingerprint, if_true, parsed_origin, hshort]
  simp only [hfull, hback, hcode, Nat.add_sub_cancel, hhash]
  rw [← integrity, if_pos rfl, ← parsed_origin, setOrigin_origin]

/-- Every binding message that fits into the packet can be written, reads back with
the same fields, and is authenticated by the user name and the password that it was
made with.  The packet is as `stun_packet()` makes it, with the fields set. -/
theorem stun_round_trip (hmac : HmacSha1) (stunClass : StunClass)
    (transactionId userName password : Bytes) (priority : UInt32)
    (iceControlling iceControlled : UInt64) (hasUseCandidate : Bool) (errorCode : UInt16)
    (htid : transactionId.length = 12) (hnoError : stunClass ≠ .errorResponse → errorCode = 0)
    (herror : errorCode.toNat < 25600) (pkt : StunPacket)
    (hpkt : pkt = {
      stunClass, stunMethod := BINDING, transactionId, userName, password, priority,
      iceControlling, iceControlled, hasUseCandidate, errorCode })
    (hfits : (written hmac pkt).length ≤ STUN_DATA_SIZE) :
    ∃ out p, serialize hmac pkt = .ok out ∧ parse out.wire = .ok p ∧
      p.stunClass = stunClass ∧ p.stunMethod = BINDING ∧ p.transactionId = transactionId ∧
      p.userName = userName ∧ p.priority = priority ∧ p.iceControlling = iceControlling ∧
      p.iceControlled = iceControlled ∧ p.hasUseCandidate = hasUseCandidate ∧
      p.errorCode = errorCode ∧ p.hasFingerprint = true ∧
      ∀ localUsername rest, stunClass = .request ∨ stunClass = .indication → password ≠ [] →
        userName = localUsername ++ ascii ":" ++ rest →
        ∃ p', checkAuth hmac p localUsername password = .ok (.ok, p') ∧ p'.origin = out.wire := by
  have h : Encodable pkt := by
    subst hpkt
    exact ⟨rfl, htid, rfl, List.length_replicate, hnoError, herror⟩
  have hsize := written_length h hfits
  refine ⟨_, parsed hmac pkt, serialize_eq h hfits, ?_⟩
  have hwire : ∀ out : StunPacket, out.data = written hmac pkt ++
      pkt.data.drop (written hmac pkt).length → out.dataLen = pkt.serializedLen →
        out.wire = written hmac pkt := by
    intro out hdata hlen
    rw [wire, hdata, hlen]
    exact List.take_left' hsize
  rw [hwire _ rfl rfl]
  have hmethod := parsed_stunMethod hmac h
  have htransaction := parsed_transactionId hmac h
  have hclass := parsed_stunClass hmac h
  refine ⟨parse_written h hfits, ?_⟩
  subst hpkt
  refine ⟨hclass, hmethod, htransaction, rfl, rfl, rfl, rfl, rfl, rfl, rfl, ?_⟩
  intro localUsername rest hclass' hpwd hname
  exact ⟨_, checkAuth_parsed h hfits hclass' hpwd hname, parsed_origin⟩

/-- A binding request of a client that wants to send media. -/
theorem stun_round_trip_request :
    ∃ out p, serialize .zeros {
        stunClass := .request, stunMethod := BINDING, transactionId := List.replicate 12 7,
        userName := ascii "u:v", password := ascii "pwd", priority := 1,
        iceControlling := 2, hasUseCandidate := true } = .ok out ∧
      parse out.wire = .ok p ∧ p.userName = ascii "u:v" ∧
      ∃ p', checkAuth .zeros p (ascii "u") (ascii "pwd") = .ok (.ok, p') ∧
        p'.origin = out.wire := by
  obtain ⟨out, p, hout, hp, -, -, -, hname, -, -, -, -, -, -, hauth⟩ :=
    stun_round_trip .zeros .request (List.replicate 12 7) (ascii "u:v") (ascii "pwd") 1 2 0 true
      0 (by decide) (fun _ => rfl) (by decide) _ rfl (by decide +kernel)
  exact ⟨out, p, hout, hp, hname,
    hauth (ascii "u") (ascii "v") (.inl rfl) (by decide) (by decide)⟩

end StunPacket

end MediaServer
