import MediaServer.Stun.StunRoundTrip

/-!
# A STUN message is read inside of its datagram

`parse` checks the length of an attribute without its filling and moves its pointer
over the filling as well.  It stays in the datagram because all positions are
multiples of four.

`parseAt` is `parse` with positions in the datagram instead of the bytes that are
left, and every access is checked: `readAt` faults outside of the datagram.  The
module shows

- `Inside`, what holds whenever the loop starts a turn, and `turnAt_inside`, that a
  turn keeps it,
- `parseAttributes_eq_loopAt` and `parseAt_eq_parse`, that the checks never fail and
  that the positions are the ones of `parse`, and
- `parse_stays_inside`, the result for all datagrams.
-/

namespace MediaServer.StunPacket

/-! ## The reader with positions -/

/-- The access to `n` bytes from `data + pos` on. -/
def readAt (data : Bytes) (pos n : Nat) : Except (Stop StunError) Bytes :=
  if pos + n ≤ data.length then .ok ((data.drop pos).take n) else .error (.fault .outOfBounds)

/-- One turn of the loop. -/
def turnAt (data : Bytes) (p : Nat) (st : ParseState) :
    Except (Stop StunError) (Nat × ParseState) :=
  match readAt data p 4 with
  | .error e => .error e
  | .ok head =>
    let attrType := read2bytes head
    let attrLen := read2bytes (head.drop 2)
    if data.length < p + 4 + attrLen.toNat then .error (.thrown .attributeTooLong)
    else if st.hasFingerprint then .error (.thrown .fingerprintNotLast)
    else if st.hasMessageIntegrity ∧ attrType ≠ STUN_FINGERPRINT then
      .error (.thrown .afterMessageIntegrity)
    else
      match readAt data (p + 4) attrLen.toNat with
      | .error e => .error e
      | .ok attrData =>
        match parseAttribute attrType attrData (p + 4) st with
        | .error e => .error (.thrown e)
        | .ok st' => .ok (p + 4 + (padTo4bytes attrLen).toNat, st')

/-- The loop.  A turn moves the pointer by at least four bytes. -/
def loopAt (data : Bytes) : Nat → Nat → ParseState → Except (Stop StunError) (Nat × ParseState)
  | 0, _, _ => .error (.fault .hang)
  | fuel + 1, p, st =>
    if data.length ≤ p + 4 then .ok (p, st)
    else
      match turnAt data p st with
      | .error e => .error e
      | .ok (p', st') => loopAt data fuel p' st'

/-- The bytes at `message_integrity`. -/
def integrityAt (data : Bytes) (st : ParseState) : Except (Stop StunError) Bytes :=
  match st.retPacket.messageIntegrity with
  | none => .ok []
  | some pos => readAt data pos 20

/-- The 20 bytes at `message_integrity` and the bytes under the checksum are
accesses too. -/
def finishAt (data : Bytes) (p : Nat) (st : ParseState) : Except (Stop StunError) StunPacket :=
  if p ≠ data.length then .error (.thrown .dataOffset)
  else
    match integrityAt data st with
    | .error e => .error e
    | .ok _ =>
      if st.hasFingerprint then
        match readAt data 0 st.fingerprintPos with
        | .error e => .error e
        | .ok signed =>
          if st.retPacket.fingerprint ≠ caculateFingerprint signed then
            .error (.thrown .fingerprint)
          else .ok { st.retPacket with hasFingerprint := true }
      else .ok st.retPacket

/-- The checks of the header, which `parse` makes before the loop. -/
def headerCheck (data : Bytes) : Except (Stop StunError) Unit :=
  let msgLen := read2bytes (data.drop 2)
  if !isStun data then .error (.thrown .notStun)
  else if msgLen.toNat ≠ data.length - 20 ∨ msgLen &&& 0x03 ≠ 0 then .error (.thrown .messageLen)
  else if data.length > STUN_DATA_SIZE then .error (.thrown .packetTooLarge)
  else .ok ()

/-- `parse` on the memory of a datagram. -/
def parseAt (data : Bytes) : Except (Stop StunError) StunPacket :=
  match headerCheck data with
  | .error e => .error e
  | .ok () =>
    match loopAt data (data.length - STUN_HEADER_SIZE + 1) STUN_HEADER_SIZE
        { retPacket := ofHeader data } with
    | .error e => .error e
    | .ok (p, st) => finishAt data p st

/-- The positions and the local variables with which the loop of `parse` starts a
turn. -/
inductive LoopHead (data : Bytes) : Nat → ParseState → Prop where
  | start (hheader : headerCheck data = .ok ()) :
      LoopHead data STUN_HEADER_SIZE { retPacket := ofHeader data }
  | turn {p p' : Nat} {st st' : ParseState} (hprev : LoopHead data p st)
      (hmore : p + 4 < data.length) (hturn : turnAt data p st = .ok (p', st')) :
      LoopHead data p' st'

/-! ## What a turn keeps -/

/-- The pointer is aligned and in the datagram, and so is all that the loop has put
aside. -/
structure Inside (data : Bytes) (p : Nat) (st : ParseState) : Prop where
  header : STUN_HEADER_SIZE ≤ p
  aligned : 4 ∣ p
  bound : p ≤ data.length
  integrity : ∀ pos, st.retPacket.messageIntegrity = some pos → pos + 20 ≤ p
  fingerprint : st.fingerprintPos ≤ p

/-- A datagram that has passed the checks of the header. -/
structure Framed (data : Bytes) : Prop where
  header : STUN_HEADER_SIZE ≤ data.length
  aligned : 4 ∣ data.length
  bound : data.length ≤ STUN_DATA_SIZE

/-- The length that `parse` asks of the value of an attribute. -/
def valueLen (attrType : UInt16) : Option Nat :=
  if attrType = STUN_PRIORITY ∨ attrType = STUN_FINGERPRINT ∨ attrType = STUN_ERROR_CODE then some 4
  else if attrType = STUN_ICE_CONTROLLING ∨ attrType = STUN_ICE_CONTROLLED then some 8
  else if attrType = STUN_USE_CANDIDATE then some 0
  else if attrType = STUN_MESSAGE_INTEGRITY then some 20
  else none

/-- What the switch over `attr_type` does to the two flags, to what the checks behind
the loop read and to the transaction. -/
structure Applied (attrType : UInt16) (attrData : Bytes) (pos : Nat) (st st' : ParseState) :
    Prop where
  length : ∀ n, valueLen attrType = some n → attrData.length = n
  hasFingerprint : st'.hasFingerprint = (st.hasFingerprint || attrType == STUN_FINGERPRINT)
  hasMessageIntegrity :
    st'.hasMessageIntegrity = (st.hasMessageIntegrity || attrType == STUN_MESSAGE_INTEGRITY)
  messageIntegrity : st'.retPacket.messageIntegrity =
    if attrType = STUN_MESSAGE_INTEGRITY then some pos else st.retPacket.messageIntegrity
  fingerprintPos : st'.fingerprintPos =
    if attrType = STUN_FINGERPRINT then pos - 4 else st.fingerprintPos
  fingerprint : st'.retPacket.fingerprint =
    if attrType = STUN_FINGERPRINT then read4bytes attrData else st.retPacket.fingerprint
  transactionId : st'.retPacket.transactionId = st.retPacket.transactionId

variable {data : Bytes} {attrType : UInt16} {attrData : Bytes} {p p' pos fuel : Nat}
  {st st' : ParseState}

/-- What the switch ends with: it throws exactly because of a length. -/
inductive Switched (attrType : UInt16) (attrData : Bytes) (pos : Nat) (st : ParseState) :
    Except StunError ParseState → Prop where
  | applied (st' : ParseState) (h : Applied attrType attrData pos st st') :
      Switched attrType attrData pos st (.ok st')
  | rejected (n : Nat) (hlen : valueLen attrType = some n) (hne : attrData.length ≠ n) :
      Switched attrType attrData pos st (.error (.attributeLen attrType))

/-- An attribute that is neither of the two that the loop asks for. -/
theorem applied_of_ne (hfp : attrType ≠ STUN_FINGERPRINT) (hmi : attrType ≠ STUN_MESSAGE_INTEGRITY)
    (hlen : ∀ n, valueLen attrType = some n → attrData.length = n)
    (hflags : st'.hasFingerprint = st.hasFingerprint ∧
      st'.hasMessageIntegrity = st.hasMessageIntegrity ∧ st'.fingerprintPos = st.fingerprintPos)
    (hpacket : st'.retPacket.messageIntegrity = st.retPacket.messageIntegrity ∧
      st'.retPacket.fingerprint = st.retPacket.fingerprint ∧
      st'.retPacket.transactionId = st.retPacket.transactionId) :
    Applied attrType attrData pos st st' where
  length := hlen
  hasFingerprint := by rw [hflags.1, beq_eq_false_iff_ne.mpr hfp, Bool.or_false]
  hasMessageIntegrity := by rw [hflags.2.1, beq_eq_false_iff_ne.mpr hmi, Bool.or_false]
  messageIntegrity := by rw [if_neg hmi, hpacket.1]
  fingerprintPos := by rw [if_neg hfp, hflags.2.2]
  fingerprint := by rw [if_neg hfp, hpacket.2.1]
  transactionId := hpacket.2.2

/-- A case of the switch that checks the length. -/
theorem switched_of_length {n : Nat} (hn : valueLen attrType = some n)
    (h : attrData.length = n → Applied attrType attrData pos st st') :
    Switched attrType attrData pos st
      (if attrData.length ≠ n then .error (.attributeLen attrType) else .ok st') := by
  by_cases hlen : attrData.length = n
  · rw [if_neg (not_not.mpr hlen)]
    exact .applied st' (h hlen)
  · rw [if_pos hlen]
    exact .rejected n hn hlen

/-- A case that stores a value of a known length. -/
theorem switched_of_ne {n : Nat} (hn : valueLen attrType = some n)
    (hfp : attrType ≠ STUN_FINGERPRINT) (hmi : attrType ≠ STUN_MESSAGE_INTEGRITY)
    (hflags : st'.hasFingerprint = st.hasFingerprint ∧
      st'.hasMessageIntegrity = st.hasMessageIntegrity ∧ st'.fingerprintPos = st.fingerprintPos)
    (hpacket : st'.retPacket.messageIntegrity = st.retPacket.messageIntegrity ∧
      st'.retPacket.fingerprint = st.retPacket.fingerprint ∧
      st'.retPacket.transactionId = st.retPacket.transactionId) :
    Switched attrType attrData pos st
      (if attrData.length ≠ n then .error (.attributeLen attrType) else .ok st') := by
  refine switched_of_length hn fun hlen => applied_of_ne hfp hmi ?_ hflags hpacket
  intro m hm
  rw [hn, Option.some.injEq] at hm
  exact hlen.trans hm

theorem parseAttribute_switched :
    Switched attrType attrData pos st (parseAttribute attrType attrData pos st) := by
  rw [parseAttribute]
  by_cases huser : attrType = STUN_USERNAME
  · rw [if_pos huser, huser]
    refine .applied _ (applied_of_ne (by decide) (by decide) ?_ ⟨rfl, rfl, rfl⟩ ⟨rfl, rfl, rfl⟩)
    intro n hn
    cases hn
  rw [if_neg huser]
  by_cases hpriority : attrType = STUN_PRIORITY
  · rw [if_pos hpriority, hpriority]
    exact switched_of_ne rfl (by decide) (by decide) ⟨rfl, rfl, rfl⟩ ⟨rfl, rfl, rfl⟩
  rw [if_neg hpriority]
  by_cases hcontrolling : attrType = STUN_ICE_CONTROLLING
  · rw [if_pos hcontrolling, hcontrolling]
    exact switched_of_ne rfl (by decide) (by decide) ⟨rfl, rfl, rfl⟩ ⟨rfl, rfl, rfl⟩
  rw [if_neg hcontrolling]
  by_cases hcontrolled : attrType = STUN_ICE_CONTROLLED
  · rw [if_pos hcontrolled, hcontrolled]
    exact switched_of_ne rfl (by decide) (by decide) ⟨rfl, rfl, rfl⟩ ⟨rfl, rfl, rfl⟩
  rw [if_neg hcontrolled]
  by_cases huse : attrType = STUN_USE_CANDIDATE
  · rw [if_pos huse, huse]
    exact switched_of_ne rfl (by decide) (by decide) ⟨rfl, rfl, rfl⟩ ⟨rfl, rfl, rfl⟩
  rw [if_neg huse]
  by_cases hintegrity : attrType = STUN_MESSAGE_INTEGRITY
  · rw [if_pos hintegrity, hintegrity]
    refine switched_of_length rfl fun hlen => ?_
    refine ⟨?_, (Bool.or_false _).symm, (Bool.or_true _).symm, rfl, rfl, rfl, rfl⟩
    intro n hn
    cases hn
    exact hlen
  rw [if_neg hintegrity]
  by_cases hfingerprint : attrType = STUN_FINGERPRINT
  · rw [if_pos hfingerprint, hfingerprint]
    refine switched_of_length rfl fun hlen => ?_
    refine ⟨?_, (Bool.or_true _).symm, (Bool.or_false _).symm, rfl, rfl, rfl, rfl⟩
    intro n hn
    cases hn
    exact hlen
  rw [if_neg hfingerprint]
  by_cases herror : attrType = STUN_ERROR_CODE
  · rw [if_pos herror, herror]
    exact switched_of_ne rfl (by decide) (by decide) ⟨rfl, rfl, rfl⟩ ⟨rfl, rfl, rfl⟩
  rw [if_neg herror]
  refine .applied st (applied_of_ne hfingerprint hintegrity ?_ ⟨rfl, rfl, rfl⟩ ⟨rfl, rfl, rfl⟩)
  intro n hn
  rw [valueLen, if_neg (by simp [hpriority, hfingerprint, herror]),
    if_neg (by simp [hcontrolling, hcontrolled]), if_neg huse, if_neg hintegrity] at hn
  cases hn

theorem parseAttribute_applied (h : parseAttribute attrType attrData pos st = .ok st') :
    Applied attrType attrData pos st st' := by
  have hswitched := @parseAttribute_switched attrType attrData pos st
  rw [h] at hswitched
  cases hswitched with
  | applied _ happlied => exact happlied

/-! ## The checks never fail -/

theorem readAt_of_le {n : Nat} (h : pos + n ≤ data.length) :
    readAt data pos n = .ok ((data.drop pos).take n) := by
  rw [readAt, if_pos h]

theorem read2bytes_take {bytes : Bytes} {n : Nat} (h : 2 ≤ n) :
    read2bytes (bytes.take n) = read2bytes bytes := by
  rw [read2bytes, read2bytes, List.take_take, Nat.min_eq_left h]

/-- The header of a datagram that the checks let through. -/
theorem headerCheck_framed (h : headerCheck data = .ok ()) : Framed data := by
  simp only [headerCheck] at h
  split_ifs at h with hstun hlen hsize
  have hheader : STUN_HEADER_SIZE ≤ data.length := by
    simp only [isStun, Bool.not_eq_true', Bool.not_eq_false, Bool.and_eq_true] at hstun
    exact of_decide_eq_true hstun.1.1
  rw [not_or, not_not, not_not] at hlen
  have hlow : (read2bytes (data.drop 2)).toNat % 4 = 0 := by
    have hand := congrArg UInt16.toNat hlen.2
    rw [UInt16.toNat_and] at hand
    exact (Nat.and_two_pow_sub_one_eq_mod _ 2).symm.trans hand
  refine ⟨hheader, ?_, by omega⟩
  rw [STUN_HEADER_SIZE] at hheader
  omega

/-- A turn without its accesses.  They are in the datagram because of the condition
of the loop and the check of the length. -/
theorem turnAt_eq (hmore : p + 4 < data.length) :
    turnAt data p st =
      if data.length < p + 4 + (read2bytes (data.drop (p + 2))).toNat then
        .error (.thrown .attributeTooLong)
      else if st.hasFingerprint then .error (.thrown .fingerprintNotLast)
      else if st.hasMessageIntegrity ∧ read2bytes (data.drop p) ≠ STUN_FINGERPRINT then
        .error (.thrown .afterMessageIntegrity)
      else
        match parseAttribute (read2bytes (data.drop p))
            ((data.drop (p + 4)).take (read2bytes (data.drop (p + 2))).toNat) (p + 4) st with
        | .error e => .error (.thrown e)
        | .ok st' => .ok (p + 4 + (padTo4bytes (read2bytes (data.drop (p + 2)))).toNat, st') := by
  have htype : read2bytes ((data.drop p).take 4) = read2bytes (data.drop p) :=
    read2bytes_take (by omega)
  have hlen : read2bytes (((data.drop p).take 4).drop 2) = read2bytes (data.drop (p + 2)) := by
    rw [List.drop_take, List.drop_drop]
    exact read2bytes_take (by omega)
  rw [turnAt, readAt_of_le (by omega)]
  simp only [htype, hlen]
  split
  · rfl
  · rename_i hshort
    rw [readAt_of_le (by omega)]

/-- A turn that ends well: the attribute is in the datagram and the pointer moves
over it and its filling. -/
theorem turnAt_ok (hmore : p + 4 < data.length) (h : turnAt data p st = .ok (p', st')) :
    ∃ attrType attrLen : UInt16, p + 4 + attrLen.toNat ≤ data.length ∧
      p' = p + 4 + (padTo4bytes attrLen).toNat ∧
      Applied attrType ((data.drop (p + 4)).take attrLen.toNat) (p + 4) st st' := by
  rw [turnAt_eq hmore] at h
  split_ifs at h with hlong
  split at h
  · cases h
  · rename_i st'' happly
    cases h
    exact ⟨_, _, by omega, rfl, parseAttribute_applied happly⟩

theorem turnAt_ne_fault (hmore : p + 4 < data.length) (f : Fault) :
    turnAt data p st ≠ .error (.fault f) := by
  rw [turnAt_eq hmore]
  split_ifs
  · simp
  · simp
  · simp
  · split <;> simp

theorem parseAttributes_eq_loopAt :
    parseAttributes fuel p (data.drop p) st = loopAt data fuel p st := by
  induction fuel generalizing p st with
  | zero => rfl
  | succ fuel ih =>
    rw [parseAttributes, loopAt, List.length_drop]
    by_cases hend : data.length ≤ p + 4
    · rw [if_pos (by omega), if_pos hend]
    · rw [if_neg (by omega), if_neg hend, turnAt_eq (by omega)]
      simp only [List.drop_drop, List.length_drop]
      by_cases hlong : data.length < p + 4 + (read2bytes (data.drop (p + 2))).toNat
      · rw [if_pos (by omega), if_pos hlong]
      · rw [if_neg (by omega), if_neg hlong]
        split_ifs
        · rfl
        · rfl
        · cases parseAttribute (read2bytes (data.drop p))
              ((data.drop (p + 4)).take (read2bytes (data.drop (p + 2))).toNat) (p + 4) st with
          | error e => rfl
          | ok st' => exact ih

/-! ## Every turn starts inside of the datagram -/

/-- The filling ends in the datagram as well, because its end is a multiple of four. -/
theorem turnAt_inside (hframed : Framed data) (hmore : p + 4 < data.length)
    (h : Inside data p st) (hturn : turnAt data p st = .ok (p', st')) :
    p + 4 ≤ p' ∧ Inside data p' st' := by
  obtain ⟨attrType, attrLen, hlen, rfl, happlied⟩ := turnAt_ok hmore hturn
  have hdata := hframed.aligned
  have hsize := hframed.bound
  have hp := h.aligned
  rw [STUN_DATA_SIZE] at hsize
  have hpad : (padTo4bytes attrLen).toNat = (attrLen.toNat + 3) / 4 * 4 := by
    rw [← padTo4bytes_toNat (by omega), UInt16.ofNat_toNat]
  refine ⟨by omega, ?_, ?_, ?_, ?_, ?_⟩
  · have hheader := h.header
    omega
  · omega
  · omega
  · intro pos hpos
    rw [happlied.messageIntegrity] at hpos
    split at hpos
    · rename_i htype
      have hvalue := happlied.length 20 (by
        rw [htype]
        rfl)
      rw [List.length_take, List.length_drop] at hvalue
      cases hpos
      omega
    · have hbefore := h.integrity pos hpos
      omega
  · have hbefore := h.fingerprint
    rw [happlied.fingerprintPos]
    split <;> omega

theorem inside_start (hframed : Framed data) :
    Inside data STUN_HEADER_SIZE { retPacket := ofHeader data } where
  header := Nat.le_refl _
  aligned := by decide
  bound := hframed.header
  integrity := by
    intro pos hpos
    cases hpos
  fingerprint := Nat.zero_le _

theorem LoopHead.framed (h : LoopHead data p st) : Framed data := by
  induction h with
  | start hheader => exact headerCheck_framed hheader
  | turn _ _ _ ih => exact ih

theorem LoopHead.inside (h : LoopHead data p st) : Inside data p st := by
  induction h with
  | start hheader => exact inside_start (headerCheck_framed hheader)
  | turn hprev hmore hturn ih => exact (turnAt_inside hprev.framed hmore ih hturn).2

theorem LoopHead.transactionId (h : LoopHead data p st) :
    st.retPacket.transactionId = (data.drop 8).take 12 := by
  induction h with
  | start _ => rfl
  | turn _ hmore hturn ih =>
    obtain ⟨_, _, -, -, happlied⟩ := turnAt_ok hmore hturn
    exact happlied.transactionId.trans ih

/-- The loop ends at one of its heads, or with an exception. -/
theorem loopAt_ends (hhead : LoopHead data p st) (hfuel : data.length < p + fuel) :
    (∃ p' st', loopAt data fuel p st = .ok (p', st') ∧ LoopHead data p' st') ∨
      ∃ e, loopAt data fuel p st = .error (.thrown e) := by
  induction fuel generalizing p st with
  | zero =>
    have hbound := hhead.inside.bound
    omega
  | succ fuel ih =>
    rw [loopAt]
    by_cases hend : data.length ≤ p + 4
    · rw [if_pos hend]
      exact .inl ⟨p, st, rfl, hhead⟩
    · rw [if_neg hend]
      have hmore : p + 4 < data.length := by omega
      cases hturn : turnAt data p st with
      | ok r =>
        obtain ⟨p', st'⟩ := r
        have hstep := turnAt_inside hhead.framed hmore hhead.inside hturn
        exact ih (hhead.turn hmore hturn) (by omega)
      | error e =>
        cases e with
        | thrown e => exact .inr ⟨e, rfl⟩
        | fault f => exact absurd hturn (turnAt_ne_fault hmore f)

/-! ## The whole message -/

theorem finishAt_eq (h : Inside data p st) :
    finishAt data p st =
      if p ≠ data.length then .error (.thrown .dataOffset)
      else if st.hasFingerprint then
        if st.retPacket.fingerprint ≠ caculateFingerprint (data.take st.fingerprintPos) then
          .error (.thrown .fingerprint)
        else .ok { st.retPacket with hasFingerprint := true }
      else .ok st.retPacket := by
  have hbound := h.bound
  have hsigned : readAt data 0 st.fingerprintPos = .ok (data.take st.fingerprintPos) := by
    have hplace := h.fingerprint
    rw [readAt_of_le (by omega), List.drop_zero]
  have hcode : ∃ code, integrityAt data st = .ok code := by
    rw [integrityAt]
    cases hpos : st.retPacket.messageIntegrity with
    | none => exact ⟨[], rfl⟩
    | some pos =>
      have hplace := h.integrity pos hpos
      exact ⟨_, readAt_of_le (by omega)⟩
  obtain ⟨code, hcode⟩ := hcode
  rw [finishAt, hcode, hsigned]

/-- `parse` in two parts. -/
theorem parse_eq :
    parse data =
      match headerCheck data with
      | .error e => .error e
      | .ok () =>
        match parseFrom STUN_HEADER_SIZE (data.drop STUN_HEADER_SIZE)
            { retPacket := ofHeader data } with
        | .error e => .error e
        | .ok (p, st) =>
          if p ≠ data.length then .error (.thrown .dataOffset)
          else if st.hasFingerprint then
            if st.retPacket.fingerprint ≠ caculateFingerprint (data.take st.fingerprintPos) then
              .error (.thrown .fingerprint)
            else .ok { st.retPacket with hasFingerprint := true }
          else .ok st.retPacket := by
  rw [parse, headerCheck]
  split_ifs <;> rfl

/-- The checked reader is the reader. -/
theorem parseAt_eq_parse : parseAt data = parse data := by
  rw [parseAt, parse_eq]
  cases hcheck : headerCheck data with
  | error e => rfl
  | ok u =>
    have hframed := headerCheck_framed hcheck
    have hhead : LoopHead data STUN_HEADER_SIZE { retPacket := ofHeader data } := .start hcheck
    simp only [parseFrom, parseAttributes_eq_loopAt, List.length_drop]
    obtain ⟨p, st, hloop, hlast⟩ | ⟨e, hloop⟩ := loopAt_ends hhead
      (show data.length < _ + (data.length - STUN_HEADER_SIZE + 1) by omega)
    · rw [hloop]
      exact finishAt_eq hlast.inside
    · rw [hloop]

/-- The packet that the loop has filled. -/
def ParseState.packet (st : ParseState) : StunPacket :=
  if st.hasFingerprint then { st.retPacket with hasFingerprint := true } else st.retPacket

/-- How the reader ends: with an exception, or with the packet of a turn that would
start at the end of the datagram. -/
theorem parse_ends (data : Bytes) :
    (∃ e, parse data = .error (.thrown e)) ∨
      ∃ st, LoopHead data data.length st ∧ parse data = .ok st.packet := by
  rw [← parseAt_eq_parse, parseAt]
  cases hcheck : headerCheck data with
  | error e =>
    cases e with
    | thrown e => exact .inl ⟨e, rfl⟩
    | fault f =>
      simp only [headerCheck] at hcheck
      split_ifs at hcheck
      all_goals cases hcheck
  | ok u =>
    have hhead : LoopHead data STUN_HEADER_SIZE { retPacket := ofHeader data } := .start hcheck
    obtain ⟨p, st, hloop, hlast⟩ | ⟨e, hloop⟩ := loopAt_ends hhead
      (show data.length < _ + (data.length - STUN_HEADER_SIZE + 1) by omega)
    · rw [hloop]
      simp only [finishAt_eq hlast.inside]
      split_ifs with hend hset hvalue
      · exact .inl ⟨_, rfl⟩
      · exact .inl ⟨_, rfl⟩
      · rw [not_not.mp hend] at hlast
        exact .inr ⟨st, hlast, by rw [ParseState.packet, if_pos hset]⟩
      · rw [not_not.mp hend] at hlast
        exact .inr ⟨st, hlast, by rw [ParseState.packet, if_neg hset]⟩
    · rw [hloop]
      exact .inl ⟨e, rfl⟩

/-- A packet has the twelve bytes of its header as the transaction. -/
theorem transactionId_length {pkt : StunPacket} (h : parse data = .ok pkt) :
    pkt.transactionId.length = 12 := by
  obtain ⟨e, hthrown⟩ | ⟨st, hlast, hok⟩ := parse_ends data
  · rw [h] at hthrown
    cases hthrown
  · rw [h] at hok
    cases hok
    have hheader := hlast.framed.header
    have hpacket : st.packet.transactionId = st.retPacket.transactionId := by
      rw [ParseState.packet]
      split <;> rfl
    rw [STUN_HEADER_SIZE] at hheader
    rw [hpacket, hlast.transactionId, List.length_take, List.length_drop]
    omega

/-- Reading a datagram stays inside of it.  The reader whose accesses are all checked
is `parse`, and it comes to an end without a fault.  Each turn of the loop starts at
a multiple of four behind the header and not behind the end, with accesses in the
datagram.  A packet is returned only at the end of the datagram; the code of its
MESSAGE-INTEGRITY and the bytes under its checksum are in the datagram. -/
theorem parse_stays_inside (data : Bytes) :
    parseAt data = parse data ∧
      (∀ f, parse data ≠ .error (.fault f)) ∧
      (∀ p st, LoopHead data p st →
        20 ≤ p ∧ 4 ∣ p ∧ p ≤ data.length ∧
          (∀ f, p + 4 < data.length → turnAt data p st ≠ .error (.fault f)) ∧
          (∀ pos, st.retPacket.messageIntegrity = some pos → pos + 20 ≤ data.length) ∧
          st.fingerprintPos ≤ data.length) ∧
      (∀ pkt, parse data = .ok pkt →
        ∃ st, LoopHead data data.length st ∧ pkt = st.packet) := by
  refine ⟨parseAt_eq_parse, ?_, ?_, ?_⟩
  · intro f hfault
    obtain ⟨e, hthrown⟩ | ⟨st, -, hok⟩ := parse_ends data
    · rw [hfault] at hthrown
      cases hthrown
    · rw [hfault] at hok
      cases hok
  · intro p st hhead
    have hinside := hhead.inside
    have hbound := hinside.bound
    refine ⟨hinside.header, hinside.aligned, hbound, ?_, ?_, ?_⟩
    · intro f hmore
      exact turnAt_ne_fault hmore f
    · intro pos hpos
      exact Nat.le_trans (hinside.integrity pos hpos) hbound
    · exact Nat.le_trans hinside.fingerprint hbound
  · intro pkt hpkt
    obtain ⟨e, hthrown⟩ | ⟨st, hlast, hok⟩ := parse_ends data
    · rw [hpkt] at hthrown
      cases hthrown
    · rw [hpkt] at hok
      cases hok
      exact ⟨st, hlast, rfl⟩

end MediaServer.StunPacket
