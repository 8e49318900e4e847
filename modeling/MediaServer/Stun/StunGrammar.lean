import MediaServer.Stun.StunBounds

/-!
# The messages that `parse` accepts

`Message` says what a well-formed STUN message is: a header and a list of attributes
whose bytes are the rest of the datagram, with the lengths, the order and the
fingerprint that the protocol asks for.

`Reads` is a run of the loop over a list of attributes.  `Reads.parseFrom` is the
way from it to `parse` and `exists_reads` the way back.  The loop condition leaves
out a position that is exactly four bytes before the end, so an attribute without
a value is read everywhere except at the end of the message.  `parse_iff` is the
set of messages that `parse` accepts, and `accepts_well_formed` the comparison with
the grammar.
-/

namespace MediaServer.StunPacket

/-! ## The grammar -/

/-- A type, a value whose length fits into two bytes, and the bytes that fill it up to
a multiple of four. -/
structure Attribute where
  attrType : UInt16
  value : Bytes
  filling : Bytes
  short : value.length < 65536
  padded : value.length + filling.length = (value.length + 3) / 4 * 4

namespace Attribute

/-- The bytes of an attribute. -/
def wire (a : Attribute) : Bytes := attr a.attrType a.value ++ a.filling

/-- The length that the type asks for. -/
structure LengthOk (a : Attribute) : Prop where
  four : a.attrType = STUN_PRIORITY ∨ a.attrType = STUN_FINGERPRINT ∨
    a.attrType = STUN_ERROR_CODE → a.value.length = 4
  eight : a.attrType = STUN_ICE_CONTROLLING ∨ a.attrType = STUN_ICE_CONTROLLED →
    a.value.length = 8
  useCandidate : a.attrType = STUN_USE_CANDIDATE → a.value.length = 0
  messageIntegrity : a.attrType = STUN_MESSAGE_INTEGRITY → a.value.length = 20

/-- `b` may stand somewhere behind `a`. -/
def AllowsAfter (a b : Attribute) : Prop :=
  a.attrType ≠ STUN_FINGERPRINT ∧
    (a.attrType = STUN_MESSAGE_INTEGRITY → b.attrType = STUN_FINGERPRINT)

end Attribute

/-- The bytes of a list of attributes. -/
def wires (attributes : List Attribute) : Bytes := attributes.flatMap Attribute.wire

/-- A well-formed message with these attributes. -/
structure Message (data : Bytes) (attributes : List Attribute) : Prop where
  stun : isStun data
  length : (read2bytes (data.drop 2)).toNat = data.length - 20
  aligned : 4 ∣ (read2bytes (data.drop 2)).toNat
  rest : data.drop 20 = wires attributes
  lengths : ∀ a ∈ attributes, a.LengthOk
  order : attributes.Pairwise Attribute.AllowsAfter
  fingerprint : ∀ before last, attributes = before ++ [last] →
    last.attrType = STUN_FINGERPRINT →
      read4bytes last.value =
        ByteCrypto.getCrc32 (data.take (20 + (wires before).length)) ^^^ 0x5354554e

/-- The datagram is a message of the grammar. -/
def WellFormed (data : Bytes) : Prop := ∃ attributes, Message data attributes

/-- The last attribute, if there is one, has a value. -/
def EndsFilled (attributes : List Attribute) : Prop :=
  ∀ a, attributes.getLast? = some a → a.value ≠ []

/-- A well-formed message whose last attribute is only a type and the length zero. -/
def EndsEmpty (data : Bytes) : Prop :=
  ∃ attributes, Message data attributes ∧ ¬EndsFilled attributes

/-! ## Lists of attributes -/

variable {data rest tail : Bytes} {a : Attribute} {attributes before : List Attribute}
  {p p' : Nat} {st st' st'' : ParseState}

@[simp] theorem wires_nil : wires [] = [] := rfl

@[simp] theorem wires_cons : wires (a :: attributes) = a.wire ++ wires attributes := rfl

@[simp] theorem wires_append :
    wires (before ++ attributes) = wires before ++ wires attributes := by
  simp [wires]

@[simp] theorem Attribute.wire_length (a : Attribute) :
    a.wire.length = 4 + (a.value.length + 3) / 4 * 4 := by
  rw [wire, List.length_append, attr_length, Nat.add_assoc, a.padded]

theorem EndsFilled.of_cons (h : EndsFilled (a :: attributes)) : EndsFilled attributes := by
  intro b hb
  apply h b
  rw [List.getLast?_cons, hb]
  rfl

/-! ## A run of the loop -/

/-- The loop reads a list of attributes from position `p` on. -/
inductive Reads : Nat → ParseState → List Attribute → ParseState → Prop where
  | nil {p : Nat} {st : ParseState} : Reads p st [] st
  | cons {p : Nat} {st st' st'' : ParseState} {a : Attribute} {attributes : List Attribute}
      (hfp : st.hasFingerprint = false)
      (hmi : st.hasMessageIntegrity = false ∨ a.attrType = STUN_FINGERPRINT)
      (hattr : parseAttribute a.attrType a.value (p + 4) st = .ok st')
      (hrest : Reads (p + a.wire.length) st' attributes st'') :
      Reads p st (a :: attributes) st''

/-- The loop goes over the attributes when there is anything behind the last type and
length. -/
theorem Reads.parseFrom (h : Reads p st attributes st')
    (hsize : (wires attributes).length ≤ STUN_DATA_SIZE)
    (hmore : tail ≠ [] ∨ EndsFilled attributes) :
    parseFrom p (wires attributes ++ tail) st =
      parseFrom (p + (wires attributes).length) tail st' := by
  induction h with
  | nil => rfl
  | @cons p st st' st'' a attributes hfp hmi hattr _ ih =>
    rw [wires_cons, List.length_append, Attribute.wire_length, STUN_DATA_SIZE] at hsize
    have hbehind : 0 < a.value.length + (wires attributes ++ tail).length := by
      cases attributes with
      | cons b attributes =>
        rw [List.length_append, wires_cons, List.length_append, Attribute.wire_length]
        omega
      | nil =>
        rcases hmore with htail | hfilled
        · have hpos := List.length_pos_iff.mpr htail
          rw [List.length_append]
          omega
        · have hpos := List.length_pos_iff.mpr (hfilled a rfl)
          omega
    have hturn := parseFrom_attr a.filling (wires attributes ++ tail) (by omega) a.padded hbehind
      hfp hmi hattr
    rw [wires_cons, List.append_assoc, List.length_append, ← Nat.add_assoc]
    refine hturn.trans (ih ?_ ?_)
    · rw [STUN_DATA_SIZE]
      omega
    · exact hmore.imp_right EndsFilled.of_cons

/-- Bytes that start with a type and a length, and have room for the padded value, start with
an attribute. -/
theorem exists_attribute (hsize : rest.length ≤ STUN_DATA_SIZE)
    (hroom : 4 + ((read2bytes (rest.drop 2)).toNat + 3) / 4 * 4 ≤ rest.length) :
    ∃ a : Attribute, a.attrType = read2bytes rest ∧
      a.value = (rest.drop 4).take (read2bytes (rest.drop 2)).toNat ∧
      a.value.length = (read2bytes (rest.drop 2)).toNat ∧
      rest = a.wire ++ (rest.drop 4).drop (((read2bytes (rest.drop 2)).toNat + 3) / 4 * 4) := by
  rw [STUN_DATA_SIZE] at hsize
  generalize hlen : (read2bytes (rest.drop 2)).toNat = n at *
  have hvalue : ((rest.drop 4).take n).length = n := by
    rw [List.length_take, List.length_drop]
    omega
  have hfilling : (((rest.drop 4).drop n).take ((n + 3) / 4 * 4 - n)).length =
      (n + 3) / 4 * 4 - n := by
    rw [List.length_take, List.length_drop, List.length_drop]
    omega
  have hfield : write2bytes (UInt16.ofNat n) = (rest.drop 2).take 2 := by
    rw [← hlen, UInt16.ofNat_toNat]
    exact write2bytes_read2bytes (by
      rw [List.length_drop]
      omega)
  have hsplit : rest = (attr (read2bytes rest) ((rest.drop 4).take n) ++
      ((rest.drop 4).drop n).take ((n + 3) / 4 * 4 - n)) ++
        (rest.drop 4).drop ((n + 3) / 4 * 4) := by
    have hhead : rest.take 2 ++ (rest.drop 2).take 2 = rest.take 4 := List.take_add.symm
    have hpadded : (rest.drop 4).take n ++ ((rest.drop 4).drop n).take ((n + 3) / 4 * 4 - n) =
        (rest.drop 4).take ((n + 3) / 4 * 4) := by
      rw [← List.take_add, Nat.add_sub_cancel' (by omega)]
    rw [attr, hvalue, hfield, write2bytes_read2bytes (by omega), hhead,
      List.append_assoc (rest.take 4), hpadded, List.append_assoc, List.take_append_drop,
      List.take_append_drop]
  have hshort : ((rest.drop 4).take n).length < 65536 := by omega
  have hpadded : ((rest.drop 4).take n).length +
      (((rest.drop 4).drop n).take ((n + 3) / 4 * 4 - n)).length =
        (((rest.drop 4).take n).length + 3) / 4 * 4 := by
    omega
  exact ⟨⟨read2bytes rest, (rest.drop 4).take n,
    ((rest.drop 4).drop n).take ((n + 3) / 4 * 4 - n), hshort, hpadded⟩, rfl, rfl, hvalue, hsplit⟩

/-- One turn backwards: the bytes that it goes over are an attribute. -/
theorem exists_turn (hfour : 4 ∣ rest.length) (hsize : rest.length ≤ STUN_DATA_SIZE)
    (hmore : 4 < rest.length) (h : parseFrom p rest st = .ok (p', st'')) :
    ∃ (a : Attribute) (tail : Bytes) (st' : ParseState),
      rest = a.wire ++ tail ∧ (a.value ≠ [] ∨ tail ≠ []) ∧
      st.hasFingerprint = false ∧
      (st.hasMessageIntegrity = false ∨ a.attrType = STUN_FINGERPRINT) ∧
      parseAttribute a.attrType a.value (p + 4) st = .ok st' ∧
      parseFrom (p + a.wire.length) tail st' = .ok (p', st'') := by
  rw [parseFrom, parseAttributes, if_neg (by omega)] at h
  simp only [List.length_drop] at h
  split_ifs at h with hlong hfp hmi
  obtain ⟨a, htype, hvalue, hlen, hsplit⟩ := exists_attribute hsize (by omega)
  have hpad : (padTo4bytes (read2bytes (rest.drop 2))).toNat = (a.value.length + 3) / 4 * 4 := by
    rw [STUN_DATA_SIZE] at hsize
    rw [hlen, ← padTo4bytes_toNat (by omega), UInt16.ofNat_toNat]
  rw [← htype, ← hvalue, hpad] at h
  rw [← hlen] at hsplit
  cases hattr : parseAttribute a.attrType a.value (p + 4) st with
  | error e =>
    rw [hattr] at h
    cases h
  | ok st' =>
    rw [hattr] at h
    refine ⟨a, _, st', hsplit, ?_, ?_, ?_, hattr, ?_⟩
    · by_contra hnone
      rw [not_or, not_not, not_not] at hnone
      have hempty := congrArg List.length hnone.1
      have hend := congrArg List.length hnone.2
      simp only [List.length_drop, List.length_nil] at hempty hend
      omega
    · simpa using hfp
    · by_cases hfingerprint : a.attrType = STUN_FINGERPRINT
      · exact .inr hfingerprint
      · left
        simpa [← htype, hfingerprint] using hmi
    · rw [Attribute.wire_length, ← Nat.add_assoc, ← h]
      apply parseAttributes_fuel
      · omega
      · simp only [List.length_drop]
        omega

/-- The way back: when the loop gets to the end, the bytes are attributes. -/
theorem exists_reads (hfour : 4 ∣ rest.length) (hsize : rest.length ≤ STUN_DATA_SIZE)
    (h : parseFrom p rest st = .ok (p + rest.length, st'')) :
    ∃ attributes, rest = wires attributes ∧ Reads p st attributes st'' ∧
      EndsFilled attributes := by
  induction hn : rest.length using Nat.strongRecOn generalizing p rest st with
  | ind n ih =>
    by_cases hmore : 4 < rest.length
    · obtain ⟨a, tail, st', hrest, hfilled, hfp, hmi, hattr, hloop⟩ :=
        exists_turn hfour hsize hmore h
      have hlen : rest.length = a.wire.length + tail.length := by
        rw [hrest, List.length_append]
      have hwire := a.wire_length
      rw [hlen, ← Nat.add_assoc] at hloop
      obtain ⟨attributes, htail, hreads, hends⟩ := ih tail.length (by omega) (by omega) (by omega)
        hloop rfl
      refine ⟨a :: attributes, ?_, .cons hfp hmi hattr hreads, ?_⟩
      · rw [hrest, htail, wires_cons]
      · cases attributes with
        | nil =>
          intro b hb
          cases hb
          rcases hfilled with hvalue | hnone
          · exact hvalue
          · exact absurd htail hnone
        | cons b attributes =>
          intro c hc
          exact hends c (by simpa using hc)
    · have hstop : parseFrom p rest st = .ok (p, st) := by
        rw [parseFrom, parseAttributes, if_pos (by omega)]
      rw [hstop] at h
      cases hrest : rest with
      | nil =>
        rw [hrest] at h
        cases h
        refine ⟨[], rfl, .nil, ?_⟩
        intro a ha
        cases ha
      | cons b bytes =>
        rw [hrest] at h
        simp at h

/-! ## Which lists the loop reads -/

/-- What the flags of a state ask of the attributes that are left. -/
structure Expects (st : ParseState) (attributes : List Attribute) : Prop where
  fingerprint : st.hasFingerprint = true → attributes = []
  messageIntegrity : st.hasMessageIntegrity = true → ∀ a ∈ attributes,
    a.attrType = STUN_FINGERPRINT
  order : attributes.Pairwise Attribute.AllowsAfter
  lengths : ∀ a ∈ attributes, a.LengthOk

theorem Applied.lengthOk {pos : Nat} (h : Applied a.attrType a.value pos st st') : a.LengthOk := by
  have hlen := h.length
  constructor
  · rintro (htype | htype | htype)
    all_goals
      exact hlen 4 (by
        rw [htype]
        rfl)
  · rintro (htype | htype)
    all_goals
      exact hlen 8 (by
        rw [htype]
        rfl)
  · intro htype
    exact hlen 0 (by
      rw [htype]
      rfl)
  · intro htype
    exact hlen 20 (by
      rw [htype]
      rfl)

theorem Attribute.LengthOk.length {n : Nat} (h : a.LengthOk) (hn : valueLen a.attrType = some n) :
    a.value.length = n := by
  unfold valueLen at hn
  split at hn
  · rename_i hfour
    cases hn
    exact h.four hfour
  · split at hn
    · rename_i height
      cases hn
      exact h.eight height
    · split at hn
      · rename_i huse
        cases hn
        exact h.useCandidate huse
      · split at hn
        · rename_i hintegrity
          cases hn
          exact h.messageIntegrity hintegrity
        · cases hn

/-- The switch throws only because of a length. -/
theorem Attribute.LengthOk.exists_parseAttribute (h : a.LengthOk) (st : ParseState) (pos : Nat) :
    ∃ st', parseAttribute a.attrType a.value pos st = .ok st' := by
  have hswitched := @parseAttribute_switched a.attrType a.value pos st
  cases hattr : parseAttribute a.attrType a.value pos st with
  | ok st' => exact ⟨st', rfl⟩
  | error e =>
    rw [hattr] at hswitched
    cases hswitched with
    | rejected n hlen hne => exact absurd (h.length hlen) hne

theorem expects_cons {pos : Nat} (h : Applied a.attrType a.value pos st st') :
    Expects st (a :: attributes) ↔
      st.hasFingerprint = false ∧
        (st.hasMessageIntegrity = false ∨ a.attrType = STUN_FINGERPRINT) ∧
        Expects st' attributes := by
  have hfp := h.hasFingerprint
  have hmi := h.hasMessageIntegrity
  constructor
  · intro hst
    have horder := List.pairwise_cons.mp hst.order
    have hlengths := List.forall_mem_cons.mp hst.lengths
    refine ⟨?_, ?_, ?_, ?_, horder.2, hlengths.2⟩
    · by_contra hset
      exact List.cons_ne_nil _ _ (hst.fingerprint (by simpa using hset))
    · by_contra hset
      rw [not_or, Bool.not_eq_false] at hset
      exact hset.2 (hst.messageIntegrity hset.1 a (List.mem_cons_self))
    · intro hset
      rw [hfp, Bool.or_eq_true, beq_iff_eq] at hset
      rcases hset with hset | htype
      · cases hst.fingerprint hset
      · apply List.eq_nil_iff_forall_not_mem.mpr
        intro b hb
        exact (horder.1 b hb).1 htype
    · intro hset b hb
      rw [hmi, Bool.or_eq_true, beq_iff_eq] at hset
      rcases hset with hset | htype
      · exact hst.messageIntegrity hset b (List.mem_cons_of_mem _ hb)
      · exact (horder.1 b hb).2 htype
  · rintro ⟨hnofp, hallowed, hst'⟩
    refine ⟨?_, ?_, ?_, ?_⟩
    · intro hset
      rw [hnofp] at hset
      cases hset
    · intro hset b hb
      rw [hset] at hallowed hmi
      rw [Bool.true_or] at hmi
      rcases List.mem_cons.mp hb with rfl | hb
      · simpa using hallowed
      · exact hst'.messageIntegrity hmi b hb
    · refine List.pairwise_cons.mpr ⟨?_, hst'.order⟩
      intro b hb
      refine ⟨?_, ?_⟩
      · intro htype
        rw [htype, beq_self_eq_true, Bool.or_true] at hfp
        rw [hst'.fingerprint hfp] at hb
        cases hb
      · intro htype
        rw [htype, beq_self_eq_true, Bool.or_true] at hmi
        exact hst'.messageIntegrity hmi b hb
    · exact List.forall_mem_cons.mpr ⟨h.lengthOk, hst'.lengths⟩

/-- The loop reads a list exactly when the flags, the order and the lengths allow it. -/
theorem reads_iff : (∃ st', Reads p st attributes st') ↔ Expects st attributes := by
  induction attributes generalizing p st with
  | nil =>
    constructor
    · intro _
      refine ⟨fun _ => rfl, ?_, .nil, ?_⟩
      · simp
      · simp
    · intro _
      exact ⟨st, .nil⟩
  | cons a attributes ih =>
    constructor
    · rintro ⟨st'', hreads⟩
      cases hreads with
      | cons hfp hmi hattr hrest =>
        exact (expects_cons (parseAttribute_applied hattr)).mpr ⟨hfp, hmi, ih.mp ⟨st'', hrest⟩⟩
    · intro hst
      obtain ⟨st', hattr⟩ :=
        (hst.lengths a List.mem_cons_self).exists_parseAttribute st (p + 4)
      obtain ⟨hfp, hmi, hst'⟩ := (expects_cons (parseAttribute_applied hattr)).mp hst
      obtain ⟨st'', hrest⟩ := ih.mpr hst'
      exact ⟨st'', .cons hfp hmi hattr hrest⟩

/-- The fields of a FINGERPRINT at the end. -/
theorem Reads.of_fingerprint_last (h : Reads p st (before ++ [a]) st')
    (htype : a.attrType = STUN_FINGERPRINT) :
    st'.hasFingerprint = true ∧ st'.fingerprintPos = p + (wires before).length ∧
      st'.retPacket.fingerprint = read4bytes a.value := by
  induction before generalizing p st with
  | nil =>
    cases h with
    | cons _ _ hattr hrest =>
      cases hrest
      have happlied := parseAttribute_applied hattr
      refine ⟨?_, ?_, ?_⟩
      · rw [happlied.hasFingerprint, htype, beq_self_eq_true, Bool.or_true]
      · rw [happlied.fingerprintPos, if_pos htype]
        rfl
      · rw [happlied.fingerprint, if_pos htype]
  | cons b before ih =>
    cases h with
    | cons _ _ _ hrest =>
      rw [wires_cons, List.length_append, ← Nat.add_assoc]
      exact ih hrest

/-- The flag of the fingerprint is set by the last attribute. -/
theorem Reads.exists_fingerprint_last (h : Reads p st attributes st')
    (hbefore : st.hasFingerprint = false) (hafter : st'.hasFingerprint = true) :
    ∃ before last, attributes = before ++ [last] ∧ last.attrType = STUN_FINGERPRINT := by
  induction h with
  | nil =>
    rw [hbefore] at hafter
    cases hafter
  | @cons p st st₁ st₂ a attributes _ _ hattr hrest ih =>
    have happlied := (parseAttribute_applied hattr).hasFingerprint
    cases hset : st₁.hasFingerprint with
    | false =>
      obtain ⟨before, last, rfl, htype⟩ := ih hset hafter
      exact ⟨a :: before, last, rfl, htype⟩
    | true =>
      have hnil : attributes = [] := (reads_iff.mp ⟨_, hrest⟩).fingerprint hset
      rw [hset, hbefore, Bool.false_or] at happlied
      exact ⟨[], a, by rw [hnil, List.nil_append], by simpa using happlied.symm⟩

/-! ## The accepted messages -/

theorem headerCheck_iff :
    headerCheck data = .ok () ↔
      isStun data ∧ (read2bytes (data.drop 2)).toNat = data.length - 20 ∧
        4 ∣ (read2bytes (data.drop 2)).toNat ∧ data.length ≤ STUN_DATA_SIZE := by
  have hlow : read2bytes (data.drop 2) &&& 0x03 = 0 ↔ 4 ∣ (read2bytes (data.drop 2)).toNat := by
    have hand : (read2bytes (data.drop 2)).toNat % 4 = (read2bytes (data.drop 2)).toNat &&& 3 :=
      (Nat.and_two_pow_sub_one_eq_mod _ 2).symm
    rw [Nat.dvd_iff_mod_eq_zero, hand, ← UInt16.toNat_inj, UInt16.toNat_and]
    rfl
  simp only [headerCheck]
  split_ifs with hstun hlen hsize
  · simp only [false_iff]
    rintro ⟨hyes, -⟩
    simp [hyes] at hstun
  · rw [← not_and_or, ← hlow] at *
    simp only [false_iff]
    tauto
  · simp only [false_iff]
    omega
  · rw [not_or, not_not, not_not, hlow] at hlen
    simp only [true_iff]
    exact ⟨by simpa using hstun, hlen.1, hlen.2, by omega⟩

/-- `parse` accepts when the header is right, the loop ends at the end of the datagram
and the fingerprint, if there is one, is right. -/
theorem parse_ok_iff :
    (∃ pkt, parse data = .ok pkt) ↔
      headerCheck data = .ok () ∧
        ∃ st, parseFrom STUN_HEADER_SIZE (data.drop STUN_HEADER_SIZE)
            { retPacket := ofHeader data } = .ok (data.length, st) ∧
          (st.hasFingerprint = true →
            st.retPacket.fingerprint = caculateFingerprint (data.take st.fingerprintPos)) := by
  rw [parse_eq]
  cases hcheck : headerCheck data with
  | error e => simp
  | ok u =>
    cases hloop : parseFrom STUN_HEADER_SIZE (data.drop STUN_HEADER_SIZE)
        { retPacket := ofHeader data } with
    | error e => simp
    | ok r =>
      obtain ⟨p, st⟩ := r
      simp only [true_and, Except.ok.injEq, Prod.mk.injEq]
      split_ifs with hend hset hvalue
      · simp [hend]
      · simp only [exists_false, false_iff]
        rintro ⟨_, ⟨-, rfl⟩, hright⟩
        exact hvalue (hright hset)
      · simp only [Except.ok.injEq, exists_eq', true_iff]
        exact ⟨st, ⟨not_not.mp hend, rfl⟩, fun _ => not_not.mp hvalue⟩
      · simp only [Except.ok.injEq, exists_eq', true_iff]
        exact ⟨st, ⟨not_not.mp hend, rfl⟩, fun h => absurd h hset⟩

/-- At the start of the loop every list in the right order is expected. -/
theorem expects_start :
    Expects { retPacket := ofHeader data } attributes ↔
      (∀ a ∈ attributes, a.LengthOk) ∧ attributes.Pairwise Attribute.AllowsAfter := by
  constructor
  · intro h
    exact ⟨h.lengths, h.order⟩
  · rintro ⟨hlengths, horder⟩
    refine ⟨?_, ?_, horder, hlengths⟩
    · intro hset
      cases hset
    · intro hset
      cases hset

theorem Message.headerCheck (h : Message data attributes) (hsize : data.length ≤ STUN_DATA_SIZE) :
    headerCheck data = .ok () :=
  headerCheck_iff.mpr ⟨h.stun, h.length, h.aligned, hsize⟩

theorem Message.length_eq (h : Message data attributes) (hsize : data.length ≤ STUN_DATA_SIZE) :
    data.length = STUN_HEADER_SIZE + (wires attributes).length := by
  have hheader := (headerCheck_framed (h.headerCheck hsize)).header
  rw [← h.rest, List.length_drop]
  rw [STUN_HEADER_SIZE] at *
  omega

theorem Message.exists_reads (h : Message data attributes) :
    ∃ st, Reads STUN_HEADER_SIZE { retPacket := ofHeader data } attributes st :=
  reads_iff.mpr (expects_start.mpr ⟨h.lengths, h.order⟩)

/-- The fingerprint that the loop has read is the one of the message. -/
theorem Reads.fingerprint_eq
    (h : Reads STUN_HEADER_SIZE { retPacket := ofHeader data } attributes st) :
    (st.hasFingerprint = true →
        st.retPacket.fingerprint = caculateFingerprint (data.take st.fingerprintPos)) ↔
      ∀ before last, attributes = before ++ [last] → last.attrType = STUN_FINGERPRINT →
        read4bytes last.value =
          ByteCrypto.getCrc32 (data.take (20 + (wires before).length)) ^^^ 0x5354554e := by
  constructor
  · rintro hright before last rfl htype
    obtain ⟨hset, hpos, hvalue⟩ := h.of_fingerprint_last htype
    rw [← hvalue, hright hset, hpos]
    rfl
  · intro hright hset
    obtain ⟨before, last, rfl, htype⟩ := h.exists_fingerprint_last rfl hset
    obtain ⟨-, hpos, hvalue⟩ := h.of_fingerprint_last htype
    rw [hvalue, hpos, hright before last rfl htype]
    rfl

/-- A message whose last attribute has a value is accepted. -/
theorem Message.accepted (h : Message data attributes) (hsize : data.length ≤ STUN_DATA_SIZE)
    (hfilled : EndsFilled attributes) : ∃ pkt, parse data = .ok pkt := by
  obtain ⟨st, hreads⟩ := h.exists_reads
  have hlen := h.length_eq hsize
  have hloop := hreads.parseFrom (show (wires attributes).length ≤ _ by omega)
    (.inr hfilled : ([] : Bytes) ≠ [] ∨ _)
  rw [List.append_nil, ← hlen, ← h.rest, parseFrom_nil] at hloop
  exact parse_ok_iff.mpr ⟨h.headerCheck hsize, st, hloop, hreads.fingerprint_eq.mpr h.fingerprint⟩

/-- What `parse` accepts is a message whose last attribute has a value. -/
theorem exists_message (h : ∃ pkt, parse data = .ok pkt) :
    ∃ attributes, Message data attributes ∧ EndsFilled attributes := by
  obtain ⟨hcheck, st, hloop, hright⟩ := parse_ok_iff.mp h
  obtain ⟨hheader, haligned, hsize⟩ := headerCheck_framed hcheck
  obtain ⟨hstun, hlength, hfour, -⟩ := headerCheck_iff.mp hcheck
  have hrest : STUN_HEADER_SIZE + (data.drop STUN_HEADER_SIZE).length = data.length := by
    rw [List.length_drop, Nat.add_sub_cancel' hheader]
  rw [STUN_HEADER_SIZE] at *
  rw [← hrest] at hloop
  obtain ⟨attributes, hwires, hreads, hfilled⟩ := exists_reads (by omega) (by omega) hloop
  have hexpects := expects_start.mp (reads_iff.mp ⟨st, hreads⟩)
  exact ⟨attributes, ⟨hstun, hlength, hfour, hwires, hexpects.1, hexpects.2,
    hreads.fingerprint_eq.mp hright⟩, hfilled⟩

/-- A message that ends with an empty value is not accepted: the loop stops in front
of it. -/
theorem Message.rejected (h : Message data attributes) (hsize : data.length ≤ STUN_DATA_SIZE)
    (hempty : ¬EndsFilled attributes) : ¬∃ pkt, parse data = .ok pkt := by
  simp only [EndsFilled, not_forall, not_not] at hempty
  obtain ⟨a, hlast, hvalue⟩ := hempty
  obtain ⟨before, rfl⟩ := List.getLast?_eq_some_iff.mp hlast
  have hwire : a.wire.length = 4 := by
    rw [Attribute.wire_length, hvalue]
    rfl
  have hnonempty : a.wire ≠ [] := by
    intro hnil
    rw [hnil] at hwire
    cases hwire
  have hlen := h.length_eq hsize
  rw [wires_append, List.length_append, wires_cons, wires_nil, List.append_nil, hwire] at hlen
  obtain ⟨st₁, hreads⟩ : ∃ st₁, Reads STUN_HEADER_SIZE { retPacket := ofHeader data } before st₁ :=
    reads_iff.mpr (expects_start.mpr
      ⟨fun b hb => h.lengths b (List.mem_append_left _ hb), (List.pairwise_append.mp h.order).1⟩)
  have hstop := hreads.parseFrom (show (wires before).length ≤ _ by omega)
    (.inl hnonempty : a.wire ≠ [] ∨ _)
  have hlast' : parseFrom (STUN_HEADER_SIZE + (wires before).length) a.wire st₁ =
      .ok (STUN_HEADER_SIZE + (wires before).length, st₁) := by
    rw [StunPacket.parseFrom, parseAttributes, if_pos (by omega)]
  have hrest := h.rest
  rw [wires_append, wires_cons, wires_nil, List.append_nil] at hrest
  rw [← hrest, hlast'] at hstop
  intro haccepted
  obtain ⟨-, st, hloop, -⟩ := parse_ok_iff.mp haccepted
  rw [STUN_HEADER_SIZE] at *
  rw [hstop, Except.ok.injEq, Prod.mk.injEq] at hloop
  omega

/-- The accepted datagrams of up to 1500 bytes are the well-formed messages, but for
those whose last attribute has an empty value. -/
theorem accepts_well_formed (data : Bytes) (hsize : data.length ≤ STUN_DATA_SIZE) :
    ((∃ pkt, parse data = .ok pkt) ↔ WellFormed data) ↔ ¬EndsEmpty data := by
  constructor
  · rintro hsame ⟨attributes, hmessage, hempty⟩
    exact hmessage.rejected hsize hempty (hsame.mpr ⟨attributes, hmessage⟩)
  · intro hnot
    constructor
    · intro haccepted
      obtain ⟨attributes, hmessage, -⟩ := exists_message haccepted
      exact ⟨attributes, hmessage⟩
    · rintro ⟨attributes, hmessage⟩
      by_cases hfilled : EndsFilled attributes
      · exact hmessage.accepted hsize hfilled
      · exact absurd ⟨attributes, hmessage, hfilled⟩ hnot

/-- A binding request that ends with USE-CANDIDATE. -/
def useCandidateRequest : Bytes :=
  [0, 1, 0, 4] ++ magicCookie ++ List.replicate 12 0 ++ attr STUN_USE_CANDIDATE []

theorem accepts_well_formed_use_candidate :
    ((∃ pkt, parse useCandidateRequest = .ok pkt) ↔ WellFormed useCandidateRequest) ↔
      ¬EndsEmpty useCandidateRequest :=
  accepts_well_formed useCandidateRequest (by decide)

/-- The attribute of that request. -/
def useCandidate : Attribute where
  attrType := STUN_USE_CANDIDATE
  value := []
  filling := []
  short := by decide
  padded := rfl

theorem useCandidateRequest_message : Message useCandidateRequest [useCandidate] where
  stun := by decide
  length := by decide
  aligned := by decide
  rest := by decide
  lengths := by
    intro a ha
    rw [List.mem_singleton.mp ha]
    constructor
    all_goals decide
  order := List.pairwise_singleton _ _
  fingerprint := by
    intro before last hlist htype
    have hlast : some useCandidate = (before ++ [last]).getLast? :=
      congrArg List.getLast? hlist
    rw [List.getLast?_concat] at hlast
    have hother : useCandidate.attrType ≠ STUN_FINGERPRINT := by decide
    rw [Option.some.inj hlast] at hother
    exact absurd htype hother

/-- The request is well-formed and `parse` throws it away. -/
theorem not_accepts_use_candidate :
    ¬((∃ pkt, parse useCandidateRequest = .ok pkt) ↔ WellFormed useCandidateRequest) := by
  intro hsame
  have hempty : ¬EndsFilled [useCandidate] := by
    intro hfilled
    exact hfilled useCandidate rfl rfl
  exact useCandidateRequest_message.rejected (by decide) hempty
    (hsame.mpr ⟨_, useCandidateRequest_message⟩)

end MediaServer.StunPacket
