import MediaServer.Rtprtcp.RtpPacket
import MediaServer.Webrtc.WebrtcSession

/-!
# Parsing of RTP packets

`parse` of a datagram that `is_rtp` accepts ends with an exception or with a packet
whose parts lie in the datagram one behind the other.

* `Answers` is the rule by which the reads and the loops are shown to stay inside.
* `parseHeader_ok_iff`, `parsePadding_ok_iff` and `parse_ok_iff` say what a packet is
  that comes out.
* `rtp_parse_exact` is the result, with what `clone` makes of the packet.
-/

namespace MediaServer

/-- A computation throws or gives a value with `P`; it stays within the defined
behaviour. -/
def Answers {ε α : Type} (x : Except (Stop ε) α) (P : α → Prop) : Prop :=
  (∃ e, x = .error (.thrown e)) ∨ ∃ a, x = .ok a ∧ P a

section Answers

variable {ε α β : Type} {P Q : α → Prop}

theorem answers_ok {a : α} (h : P a) : Answers (.ok a : Except (Stop ε) α) P :=
  Or.inr ⟨a, rfl, h⟩

theorem answers_thrown (e : ε) : Answers (.error (.thrown e) : Except (Stop ε) α) P :=
  Or.inl ⟨e, rfl⟩

theorem Answers.mono {x : Except (Stop ε) α} (h : Answers x P) (hPQ : ∀ a, P a → Q a) :
    Answers x Q := by
  rcases h with ⟨e, rfl⟩ | ⟨a, rfl, ha⟩
  · exact answers_thrown e
  · exact answers_ok (hPQ a ha)

theorem Answers.bind {x : Except (Stop ε) α} {f : α → Except (Stop ε) β} {R : β → Prop}
    (hx : Answers x P) (hf : ∀ a, P a → Answers (f a) R) : Answers (x >>= f) R := by
  rcases hx with ⟨e, rfl⟩ | ⟨a, rfl, ha⟩
  · exact answers_thrown e
  · exact hf a ha

end Answers

namespace Rtp

/-! ## Reads -/

theorem readBytes_ok {data : Bytes} {offset len : Nat} (h : offset + len ≤ data.length) :
    readBytes data offset len = .ok ((data.drop offset).take len) :=
  if_pos h

theorem readByte_ok {data : Bytes} {offset : Nat} (h : offset < data.length) :
    readByte data offset = .ok (data.getD offset 0) := by
  rw [readByte, readBytes_ok (by omega), Run.ok_bind, List.headD_eq_head?_getD,
    List.head?_take, if_neg (by decide), List.head?_drop, List.getD]
  rfl

theorem readField_ok {data : Bytes} {offset : Nat} (h : offset + 2 ≤ data.length) :
    readField data offset = .ok (read2bytes (data.drop offset)) := by
  rw [readField, readBytes_ok h, Run.ok_bind, read2bytes, read2bytes, List.take_take]
  rfl

/-! ## Elements -/

/-- The length of the element at `p`, with its head. -/
def elementLen (form : ExtForm) (data : Bytes) (p : Nat) : Nat :=
  form.headLen + form.len ((data.drop p).take form.headLen)

/-- The element of the entry lies between `low` and `high`, with its data, and has the
id under which it stands. -/
structure ElementIn (form : ExtForm) (data : Bytes) (low high : Nat) (e : Nat × Nat) : Prop where
  low : low ≤ e.2
  high : e.2 + elementLen form data e.2 ≤ high
  id : (form.id ((data.drop e.2).take form.headLen)).toNat = e.1

/-- The loop over the padding goes on, and ends. -/
theorem skipZeros_ok {data : Bytes} {extEnd turns p : Nat} (hend : extEnd ≤ data.length)
    (hpos : 0 < turns) (hturns : extEnd < p + turns) :
    ∃ q, skipZeros data extEnd turns p = .ok q ∧ p ≤ q := by
  induction turns generalizing p with
  | zero => omega
  | succ turns ih =>
    rw [skipZeros]
    by_cases hp : p < extEnd
    · rw [if_pos hp, readByte_ok (by omega), Run.ok_bind]
      split_ifs
      · have hrest : ∃ q, skipZeros data extEnd turns (p + 1) = .ok q ∧ p + 1 ≤ q :=
          ih (by omega) (by omega)
        obtain ⟨q, hq, hle⟩ := hrest
        exact ⟨q, hq, by omega⟩
      · exact ⟨p, rfl, Nat.le_refl p⟩
    · rw [if_neg hp]
      exact ⟨p, rfl, Nat.le_refl p⟩

theorem parseElements_answers {form : ExtForm} {length : UInt16} {data : Bytes}
    {low extEnd turns p : Nat} {map : ExtMap} (hhead : 0 < form.headLen)
    (hend : extEnd ≤ data.length) (hpos : 0 < turns) (hturns : extEnd < p + turns)
    (hlow : low ≤ p) (hmap : ∀ e ∈ map.entries, ElementIn form data low extEnd e) :
    Answers (parseElements form length data extEnd turns p map)
      fun map => ∀ e ∈ map.entries, ElementIn form data low extEnd e := by
  induction turns generalizing p map with
  | zero => omega
  | succ turns ih =>
    rw [parseElements]
    by_cases hp : p + form.headLen ≤ extEnd
    · rw [if_pos hp, readBytes_ok (by omega), Run.ok_bind]
      split_ifs with hends hid hlong
      · exact answers_ok hmap
      · exact answers_thrown _
      · have hskip : ∃ q, skipZeros data extEnd (extEnd + 1)
            (p + form.headLen + form.len ((data.drop p).take form.headLen)) = .ok q ∧
            p + form.headLen + form.len ((data.drop p).take form.headLen) ≤ q :=
          skipZeros_ok hend (by omega) (by omega)
        obtain ⟨q, hq, hle⟩ := hskip
        rw [hq, Run.ok_bind]
        apply ih (by omega) (by omega) (by omega)
        intro e he
        rcases OrderedMap.mem_assign.mp he with rfl | ⟨he, -⟩
        · refine ⟨hlow, ?_, rfl⟩
          show p + elementLen form data p ≤ extEnd
          rw [elementLen]
          omega
        · exact hmap e he
      · have hskip : ∃ q, skipZeros data extEnd (extEnd + 1) (p + 1) = .ok q ∧ p + 1 ≤ q :=
          skipZeros_ok hend (by omega) (by omega)
        obtain ⟨q, hq, hle⟩ := hskip
        rw [hq, Run.ok_bind]
        exact ih (by omega) (by omega) (by omega) hmap
    · rw [if_neg hp]
      exact answers_ok hmap

/-- The length field of an extension that fits into a packet is not cut. -/
theorem getExtLength_ok {data : Bytes} {ext : Nat} (hsize : data.length ≤ RTP_PACKET_MAX_SIZE)
    (hfits : ext + EXT_HEAD_LEN + 4 * (read2bytes (data.drop (ext + 2))).toNat ≤ data.length) :
    ∃ length, getExtLength data ext = .ok length ∧
      length.toNat = 4 * (read2bytes (data.drop (ext + 2))).toNat := by
  rw [EXT_HEAD_LEN] at hfits
  rw [RTP_PACKET_MAX_SIZE] at hsize
  refine ⟨read2bytes (data.drop (ext + 2)) * 4, ?_, ?_⟩
  · rw [getExtLength, readField_ok (by omega), Run.ok_bind]
    rfl
  · have hfour : (4 : UInt16).toNat = 4 := rfl
    rw [UInt16.toNat_mul, hfour]
    omega

theorem parseForm_answers {form : ExtForm} {data : Bytes} {ext : Nat}
    (hhead : 0 < form.headLen) (hsize : data.length ≤ RTP_PACKET_MAX_SIZE)
    (hfits : ext + EXT_HEAD_LEN + 4 * (read2bytes (data.drop (ext + 2))).toNat ≤ data.length) :
    Answers (parseForm form data ext) fun map => ∀ e ∈ map.entries,
      ElementIn form data (ext + EXT_HEAD_LEN)
        (ext + EXT_HEAD_LEN + 4 * (read2bytes (data.drop (ext + 2))).toNat) e := by
  obtain ⟨length, hlength, hvalue⟩ := getExtLength_ok hsize hfits
  rw [parseForm, hlength, Run.ok_bind, ← hvalue]
  apply parseElements_answers hhead (by omega) (by omega) (by omega) (Nat.le_refl _)
  intro e he
  cases he

/-! ## The parts of a packet -/

/-- The header of `data` ends at `payload`, with the extension `ext`. -/
structure HeaderOf (data : Bytes) (ext : Option Nat) (payload : Nat) : Prop where
  inside : payload < data.length
  parts : hasExtension data = false ∧ ext = none ∧
        payload = HEADER_LEN + 4 * (csrcCount data).toNat ∨
    hasExtension data = true ∧ ∃ e, ext = some e ∧ e = HEADER_LEN + 4 * (csrcCount data).toNat ∧
      payload = e + EXT_HEAD_LEN + 4 * (read2bytes (data.drop (e + 2))).toNat

/-- The payload and the padding fill `data` from `payload` on. -/
structure PaddingOf (data : Bytes) (payload payloadLen : Nat) (padLen : UInt8) : Prop where
  positive : 1 ≤ payloadLen
  total : payload + payloadLen + padLen.toNat = data.length
  padLen : padLen = if hasPadding data then data.getD (data.length - 1) 0 else 0

theorem parseHeader_answers {data : Bytes} (hlen : HEADER_LEN ≤ data.length) :
    Answers (parseHeader data) fun r => HeaderOf data r.1 r.2 := by
  have hlen' : 12 ≤ data.length := hlen
  rw [parseHeader, readByte_ok (by omega), Run.ok_bind]
  apply Answers.bind (P := fun r : Option Nat × Nat => r.2 < data.length → HeaderOf data r.1 r.2)
  · rw [passExtension]
    split_ifs with hext hsmall
    · exact answers_thrown _
    · rw [readField_ok (by omega), Run.ok_bind]
      dsimp only
      split_ifs
      · exact answers_thrown _
      · refine answers_ok fun hinside => ⟨hinside, Or.inr ⟨hext, _, rfl, rfl, ?_⟩⟩
        show _ + 4 + _ * 4 = _ + 4 + 4 * _
        omega
    · rw [Bool.not_eq_true] at hext
      exact answers_ok fun hinside => ⟨hinside, Or.inl ⟨hext, rfl, rfl⟩⟩
  · intro r hr
    show Answers (if data.length ≤ r.2 then _ else _) _
    split_ifs with hpayload
    · exact answers_thrown _
    · exact answers_ok (hr (by omega))

theorem parseHeader_of_headerOf {data : Bytes} {ext : Option Nat} {payload : Nat}
    (hlen : HEADER_LEN ≤ data.length) (h : HeaderOf data ext payload) :
    parseHeader data = .ok (ext, payload) := by
  have hlen' : 12 ≤ data.length := hlen
  have hinside := h.inside
  have hpayload : ¬ data.length ≤ payload := by omega
  rw [parseHeader, readByte_ok (by omega), Run.ok_bind]
  rcases h.parts with ⟨hext, rfl, hend⟩ | ⟨hext, e, rfl, he, hend⟩
  · have hpass : passExtension data payload = .ok (none, payload) := by
      rw [passExtension, hext]
      rfl
    rw [← hend, hpass, Run.ok_bind]
    exact if_neg hpayload
  · rw [EXT_HEAD_LEN] at hend
    have hsame : e + 4 + (read2bytes (data.drop (e + 2))).toNat * 4 = payload := by omega
    have hpass : passExtension data e = .ok (some e, payload) := by
      rw [passExtension, if_pos hext, if_neg (by omega), readField_ok (by omega), Run.ok_bind]
      dsimp only
      rw [hsame]
      exact if_neg (by omega)
    rw [← he, hpass, Run.ok_bind]
    exact if_neg hpayload

theorem parsePadding_answers {data : Bytes} {payload : Nat} (h : payload < data.length) :
    Answers (parsePadding data payload) fun r => PaddingOf data payload r.1 r.2 := by
  rw [parsePadding]
  by_cases hpad : hasPadding data
  · simp only [hpad, if_true]
    rw [readByte_ok (by omega), Run.ok_bind]
    split_ifs with hzero hlong
    · exact answers_thrown _
    · refine answers_ok ⟨?_, ?_, ?_⟩
      · show 1 ≤ data.length - payload - _
        omega
      · show payload + (data.length - payload - (data.getD (data.length - 1) 0).toNat) +
          (data.getD (data.length - 1) 0).toNat = data.length
        omega
      · rw [if_pos hpad]
    · have hnone : data.getD (data.length - 1) 0 = 0 := by
        rw [gt_iff_lt, UInt8.lt_iff_toNat_lt, UInt8.toNat_zero, Nat.not_lt,
          Nat.le_zero] at hzero
        exact UInt8.toNat_inj.mp hzero
      rw [hnone]
      refine answers_ok ⟨?_, ?_, ?_⟩
      · show 1 ≤ data.length - payload
        omega
      · show payload + (data.length - payload) + 0 = data.length
        omega
      · rw [if_pos hpad, hnone]
  · simp only [hpad]
    refine answers_ok ⟨?_, ?_, ?_⟩
    · show 1 ≤ data.length - payload
      omega
    · show payload + (data.length - payload) + 0 = data.length
      omega
    · rw [if_neg hpad]

theorem parsePadding_of_paddingOf {data : Bytes} {payload payloadLen : Nat} {padLen : UInt8}
    (h : PaddingOf data payload payloadLen padLen) :
    parsePadding data payload = .ok (payloadLen, padLen) := by
  obtain ⟨hpositive, htotal, hpadLen⟩ := h
  rw [parsePadding]
  by_cases hpad : hasPadding data
  · rw [if_pos hpad] at hpadLen
    simp only [hpad, if_true]
    rw [readByte_ok (by omega), Run.ok_bind, ← hpadLen]
    have hlen : data.length - payload - padLen.toNat = payloadLen := by omega
    split_ifs with hzero hlong
    · omega
    · rw [hlen]
      rfl
    · rw [gt_iff_lt, UInt8.lt_iff_toNat_lt, UInt8.toNat_zero, Nat.not_lt, Nat.le_zero] at hzero
      have hlen' : data.length - payload = payloadLen := by omega
      rw [hlen']
      rfl
  · rw [if_neg hpad] at hpadLen
    subst hpadLen
    rw [UInt8.toNat_zero] at htotal
    have hlen : data.length - payload = payloadLen := by omega
    simp only [hpad, hlen]
    rfl

/-! ## Packets -/

/-- The elements of one form lie in the extension, which ends at `payload`. -/
def InExtension (form : ExtForm) (data : Bytes) (ext : Option Nat) (payload : Nat)
    (map : ExtMap) : Prop :=
  ∀ e ∈ map.entries, ∃ x, ext = some x ∧ ElementIn form data (x + EXT_HEAD_LEN) payload e

theorem inExtension_empty (form : ExtForm) (data : Bytes) (ext : Option Nat) (payload : Nat) :
    InExtension form data ext payload OrderedMap.empty := by
  intro e he
  cases he

theorem parseExt_answers {data : Bytes} {ext : Option Nat} {payload : Nat}
    (hsize : data.length ≤ RTP_PACKET_MAX_SIZE) (h : HeaderOf data ext payload) :
    Answers (parseExt data ext) fun maps =>
      InExtension onebyteExtension data ext payload maps.1 ∧
        InExtension twobytesExtension data ext payload maps.2 := by
  have hinside := h.inside
  rcases h.parts with ⟨-, rfl, -⟩ | ⟨hext, x, rfl, -, hend⟩
  · exact answers_ok ⟨inExtension_empty _ _ _ _, inExtension_empty _ _ _ _⟩
  have hform : ∀ form : ExtForm, 0 < form.headLen → Answers (parseForm form data x) fun map =>
      InExtension form data (some x) payload map := by
    intro form hhead
    apply (parseForm_answers hhead hsize (by omega)).mono
    intro map hmap e he
    refine ⟨x, rfl, ?_⟩
    rw [hend]
    exact hmap e he
  have hid : x + 2 ≤ data.length := by
    rw [EXT_HEAD_LEN] at hend
    omega
  rw [parseExt]
  simp only [hext, Bool.not_true, Bool.false_eq_true, if_false]
  rw [getExtId, readField_ok hid, Run.ok_bind]
  split_ifs
  · apply (hform onebyteExtension (by decide)).bind
    intro map hmap
    exact answers_ok ⟨hmap, inExtension_empty _ _ _ _⟩
  · apply (hform twobytesExtension (by decide)).bind
    intro map hmap
    exact answers_ok ⟨inExtension_empty _ _ _ _, hmap⟩
  · exact answers_thrown _

/-- What `parse` makes of `data`: the parts of the packet lie one behind the other and fill
it, and the elements lie in the extension. -/
structure Exact (data : Bytes) (p : Packet) : Prop where
  buffer : p.buffer = data
  dataLen : p.dataLen = data.length
  size : data.length ≤ RTP_PACKET_MAX_SIZE
  header : HeaderOf data p.ext p.payload
  padding : PaddingOf data p.payload p.payloadLen p.padLen
  onebyte : InExtension onebyteExtension data p.ext p.payload p.onebyteExtMap
  twobytes : InExtension twobytesExtension data p.ext p.payload p.twobytesExtMap

theorem parse_answers (nowMs : Int) {data : Bytes} (hlen : HEADER_LEN ≤ data.length) :
    Answers (parse nowMs data) (Exact data) := by
  rw [parse]
  split_ifs with hlarge
  · exact answers_thrown _
  have hsize : data.length ≤ RTP_PACKET_MAX_SIZE := Nat.not_lt.mp hlarge
  apply (parseHeader_answers hlen).bind
  intro header hheader
  apply (parsePadding_answers hheader.inside).bind
  intro padding hpadding
  show Answers (create nowMs data header.1 header.2 padding.1 padding.2 data.length) _
  rw [create, if_neg hlarge]
  apply (parseExt_answers hsize hheader).bind
  intro maps hmaps
  exact answers_ok ⟨rfl, rfl, hsize, hheader, hpadding, hmaps.1, hmaps.2⟩

/-- The packet that comes out, part by part. -/
theorem parse_ok_iff {nowMs : Int} {data : Bytes} {p : Packet} (hlen : HEADER_LEN ≤ data.length) :
    parse nowMs data = .ok p ↔
      data.length ≤ RTP_PACKET_MAX_SIZE ∧ HeaderOf data p.ext p.payload ∧
        PaddingOf data p.payload p.payloadLen p.padLen ∧
        parseExt data p.ext = .ok (p.onebyteExtMap, p.twobytesExtMap) ∧ p.buffer = data ∧
        p.dataLen = data.length ∧ p.localMs = nowMs ∧ p.isClone = false := by
  constructor
  · intro h
    have hexact : Exact data p := by
      rcases parse_answers nowMs hlen with ⟨e, he⟩ | ⟨q, hq, hexact⟩
      · rw [h] at he
        cases he
      · rw [h, Except.ok.injEq] at hq
        rw [hq]
        exact hexact
    refine ⟨hexact.size, hexact.header, hexact.padding, ?_⟩
    rw [parse, if_neg (Nat.not_lt.mpr hexact.size)] at h
    obtain ⟨header, hheader, h⟩ := Run.exists_of_bind_ok h
    obtain ⟨padding, hpadding, h⟩ := Run.exists_of_bind_ok h
    replace h : create nowMs data header.1 header.2 padding.1 padding.2 data.length = .ok p := h
    rw [create, if_neg (Nat.not_lt.mpr hexact.size)] at h
    obtain ⟨maps, hmaps, h⟩ := Run.exists_of_bind_ok h
    cases h
    exact ⟨hmaps, rfl, rfl, rfl, rfl⟩
  · rintro ⟨hsize, hheader, hpadding, hext, hbuffer, hdataLen, hms, hclone⟩
    rw [parse, if_neg (Nat.not_lt.mpr hsize), parseHeader_of_headerOf hlen hheader, Run.ok_bind]
    show (parsePadding data p.payload >>= _) = _
    rw [parsePadding_of_paddingOf hpadding, Run.ok_bind]
    show create nowMs data p.ext p.payload p.payloadLen p.padLen data.length = _
    rw [create, if_neg (Nat.not_lt.mpr hsize), hext, Run.ok_bind]
    cases p
    dsimp only at hbuffer hdataLen hms hclone
    subst hbuffer
    subst hdataLen
    subst hms
    subst hclone
    rfl

theorem exact_of_parse {nowMs : Int} {data : Bytes} {p : Packet}
    (hlen : HEADER_LEN ≤ data.length) (h : parse nowMs data = .ok p) : Exact data p := by
  rcases parse_answers nowMs hlen with ⟨e, he⟩ | ⟨q, hq, hexact⟩
  · rw [h] at he
    cases he
  · rw [h, Except.ok.injEq] at hq
    rw [hq]
    exact hexact

theorem le_of_passExtension {data : Bytes} {p : Nat} {r : Option Nat × Nat}
    (h : passExtension data p = .ok r) : p ≤ r.2 := by
  rw [passExtension] at h
  split_ifs at h
  · obtain ⟨field, -, h⟩ := Run.exists_of_bind_ok h
    dsimp only at h
    split_ifs at h
    cases h
    show p ≤ p + 4 + field.toNat * 4
    omega
  · cases h
    exact Nat.le_refl p

/-- A packet that is parsed has its header. -/
theorem length_of_parse {nowMs : Int} {data : Bytes} {p : Packet} (h : parse nowMs data = .ok p) :
    HEADER_LEN ≤ data.length := by
  rw [parse] at h
  split_ifs at h
  obtain ⟨header, hheader, -⟩ := Run.exists_of_bind_ok h
  rw [parseHeader] at hheader
  obtain ⟨-, -, hheader⟩ := Run.exists_of_bind_ok hheader
  obtain ⟨⟨ext, payload⟩, hpass, hheader⟩ := Run.exists_of_bind_ok hheader
  have hle : HEADER_LEN + 4 * (csrcCount data).toNat ≤ payload := le_of_passExtension hpass
  dsimp only at hheader
  split_ifs at hheader with hlong
  omega

theorem length_of_isRtp {data : Bytes} (h : isRtp data = true) : HEADER_LEN ≤ data.length := by
  rw [isRtp, Bool.and_eq_true, decide_eq_true_eq] at h
  exact h.1

/-- The packet is made of the same bytes when it is parsed again. -/
theorem clone_of_parse {nowMs cloneMs : Int} {data : Bytes} {p : Packet}
    (hlen : HEADER_LEN ≤ data.length) (h : parse nowMs data = .ok p) :
    p.clone cloneMs = .ok { p with localMs := cloneMs, isClone := true } := by
  obtain ⟨hsize, hheader, hpadding, hext, hbuffer, hdataLen, -, hclone⟩ := (parse_ok_iff hlen).mp h
  have hdata : p.getData = data := by
    rw [Packet.getData, hbuffer, hdataLen, List.take_length]
  have hagain : parse cloneMs data = .ok { p with localMs := cloneMs } :=
    (parse_ok_iff hlen).mpr ⟨hsize, hheader, hpadding, hext, hbuffer, hdataLen, rfl, hclone⟩
  rw [Packet.clone, hdata, hagain]
  rfl

/-- **Parsing.**  `parse` of a datagram that `is_rtp` accepts ends, reads nothing outside of
it, and throws or gives a packet: the header with the CSRCs and the extension, a payload
and the padding fill the datagram, and the elements lie in the extension with their data.
`clone` of the packet gives the same packet, at another time. -/
theorem rtp_parse_exact (nowMs : Int) {data : Bytes} (h : isRtp data = true) :
    (∃ e, parse nowMs data = .error (.thrown e)) ∨
      ∃ p, parse nowMs data = .ok p ∧ Exact data p ∧
        ∀ cloneMs, p.clone cloneMs = .ok { p with localMs := cloneMs, isClone := true } := by
  have hlen := length_of_isRtp h
  rcases parse_answers nowMs hlen with hthrown | ⟨p, hp, hexact⟩
  · exact Or.inl hthrown
  · exact Or.inr ⟨p, hp, hexact, fun cloneMs => clone_of_parse hlen hp⟩

/-- A packet with one CSRC, an element of one byte in the extension, two bytes of payload
and two of padding. -/
def paddedPacket : Bytes :=
  [0xb1, 96, 0, 7, 0, 0, 0, 9, 0, 0, 0, 5, 1, 2, 3, 4, 0xbe, 0xde, 0, 1, 0x10, 0xaa, 0, 0, 8, 9, 0,
    2]

theorem rtp_parse_exact_padded :
    ∃ p, parse 0 paddedPacket = .ok p ∧ Exact paddedPacket p ∧
      p.clone 5 = .ok { p with localMs := 5, isClone := true } := by
  have hrtp : isRtp paddedPacket = true := by decide
  rcases rtp_parse_exact 0 hrtp with ⟨e, he⟩ | ⟨p, hp, hexact, hclone⟩
  · cases he
  · exact ⟨p, hp, hexact, hclone 5⟩

end Rtp

end MediaServer
