import Mathlib.Tactic.Common
import MediaServer.Rtprtcp.RtpParsing
import MediaServer.Webrtc.RtpSendStream

/-!
# Packets that come out of a retransmission

`on_handle_rtx_packet` calls `rtx_demux`, which writes the packet that was lost over the
one that carries it, and the subscribers make a `clone` of the result, which parses it.

* `parseExt_congr`: the elements of an extension depend on the header only.  A packet that
  has the same header and another payload has the same elements.
* `rtxDemux_ok`: the bytes of the packet that comes out.
* `rtx_unwraps_iff`: the copy is the packet that was lost exactly when it has a payload.
  `rtx_demux` accepts the two bytes of the sequence number without a payload behind
  them, and `parse` does not.
-/

namespace MediaServer

namespace Rtp

/-! ## The same header -/

/-- The CSRCs and the extension: the bytes up to `payload` behind the fixed header. -/
def middle (payload : Nat) (data : Bytes) : Bytes := (data.take payload).drop HEADER_LEN

section SameHeader

variable {data data' : Bytes} {payload : Nat}

theorem take_drop_eq_middle {p n : Nat} (hlow : HEADER_LEN ≤ p) (hhigh : p + n ≤ payload) :
    (data.drop p).take n = ((middle payload data).drop (p - HEADER_LEN)).take n := by
  apply List.ext_getElem?
  intro i
  rw [middle, List.drop_drop, List.getElem?_take, List.getElem?_take, List.getElem?_drop,
    List.getElem?_drop, List.getElem?_take]
  have hsum : HEADER_LEN + (p - HEADER_LEN) + i = p + i := by omega
  rw [hsum]
  by_cases hi : i < n
  · rw [if_pos hi, if_pos hi, if_pos (by omega)]
  · rw [if_neg hi, if_neg hi]

theorem take_drop_congr (hsame : middle payload data = middle payload data') {p n : Nat}
    (hlow : HEADER_LEN ≤ p) (hhigh : p + n ≤ payload) :
    (data.drop p).take n = (data'.drop p).take n := by
  rw [take_drop_eq_middle hlow hhigh, take_drop_eq_middle hlow hhigh, hsame]

variable (hsame : middle payload data = middle payload data') (hin : payload ≤ data.length)
  (hin' : payload ≤ data'.length)

include hsame in
theorem read2bytes_congr {p : Nat} (hlow : HEADER_LEN ≤ p) (hhigh : p + 2 ≤ payload) :
    read2bytes (data.drop p) = read2bytes (data'.drop p) := by
  rw [read2bytes, read2bytes, take_drop_congr hsame hlow hhigh]

include hsame hin hin'

theorem readBytes_congr {p n : Nat} (hlow : HEADER_LEN ≤ p) (hhigh : p + n ≤ payload) :
    readBytes data p n = readBytes data' p n := by
  rw [readBytes_ok (by omega), readBytes_ok (by omega), take_drop_congr hsame hlow hhigh]

theorem skipZeros_congr {extEnd turns p : Nat} (hend : extEnd ≤ payload)
    (hlow : HEADER_LEN ≤ p) :
    skipZeros data extEnd turns p = skipZeros data' extEnd turns p := by
  induction turns generalizing p with
  | zero => rfl
  | succ turns ih =>
    rw [skipZeros, skipZeros]
    by_cases hp : p < extEnd
    · rw [if_pos hp, if_pos hp, readByte, readByte,
        readBytes_congr hsame hin hin' hlow (by omega), ih (by omega)]
    · rw [if_neg hp, if_neg hp]

theorem parseElements_congr {form : ExtForm} {length : UInt16} {extEnd turns p : Nat}
    {map : ExtMap} (hend : extEnd ≤ payload) (hlow : HEADER_LEN ≤ p) :
    parseElements form length data extEnd turns p map =
      parseElements form length data' extEnd turns p map := by
  induction turns generalizing p map with
  | zero => rfl
  | succ turns ih =>
    rw [parseElements, parseElements]
    by_cases hp : p + form.headLen ≤ extEnd
    · have hhead := readBytes_congr hsame hin hin' hlow (show p + form.headLen ≤ payload by omega)
      have hread := readBytes_ok (show p + form.headLen ≤ data'.length by omega)
      rw [if_pos hp, if_pos hp, hhead, hread, Run.ok_bind, Run.ok_bind]
      split_ifs
      · rfl
      · rfl
      · rw [skipZeros_congr hsame hin hin' hend (by omega)]
        obtain ⟨q, hq, hle⟩ := skipZeros_ok (show extEnd ≤ data'.length by omega)
          (show 0 < extEnd + 1 by omega) (show extEnd < p + form.headLen +
            form.len ((data'.drop p).take form.headLen) + (extEnd + 1) by omega)
        rw [hq, Run.ok_bind, Run.ok_bind]
        exact ih (by omega)
      · rw [skipZeros_congr hsame hin hin' hend (by omega)]
        obtain ⟨q, hq, hle⟩ := skipZeros_ok (show extEnd ≤ data'.length by omega)
          (show 0 < extEnd + 1 by omega) (show extEnd < p + 1 + (extEnd + 1) by omega)
        rw [hq, Run.ok_bind, Run.ok_bind]
        exact ih (by omega)
    · rw [if_neg hp, if_neg hp]

theorem parseForm_congr {form : ExtForm} {ext : Nat} (hsize : data'.length ≤ RTP_PACKET_MAX_SIZE)
    (hlow : HEADER_LEN ≤ ext)
    (hend : payload = ext + EXT_HEAD_LEN + 4 * (read2bytes (data'.drop (ext + 2))).toNat) :
    parseForm form data ext = parseForm form data' ext := by
  have hhead : ext + 2 + 2 ≤ payload := by
    rw [EXT_HEAD_LEN] at hend
    omega
  obtain ⟨length, hlength, hvalue⟩ := getExtLength_ok hsize (hend ▸ hin')
  have hlength' : getExtLength data ext = .ok length := by
    rw [← hlength, getExtLength, getExtLength, readField, readField,
      readBytes_congr hsame hin hin' (by omega) hhead]
  rw [parseForm, parseForm, hlength, hlength', Run.ok_bind, Run.ok_bind]
  exact parseElements_congr hsame hin hin' (by omega) (by omega)

/-- Two packets with the same header have the same elements. -/
theorem parseExt_congr {ext : Option Nat} (hsize : data'.length ≤ RTP_PACKET_MAX_SIZE)
    (hext : hasExtension data = hasExtension data') (h : HeaderOf data' ext payload) :
    parseExt data ext = parseExt data' ext := by
  rcases h.parts with ⟨-, rfl, -⟩ | ⟨-, x, rfl, hx, hend⟩
  · rfl
  have hlow : HEADER_LEN ≤ x := by omega
  have hid : x + 2 ≤ payload := by
    rw [EXT_HEAD_LEN] at hend
    omega
  rw [parseExt, parseExt, hext, getExtId, getExtId, readField, readField,
    readBytes_congr hsame hin hin' hlow hid, parseOnebyteExt, parseOnebyteExt, parseTwobytesExt,
    parseTwobytesExt, parseForm_congr hsame hin hin' hsize hlow hend,
    parseForm_congr hsame hin hin' hsize hlow hend]

end SameHeader

/-! ## The bytes that come out -/

/-- A fixed header with its fields. -/
def headerBytes (first second : UInt8) (seq timestamp ssrc : Bytes) : Bytes :=
  first :: second :: (seq ++ (timestamp ++ ssrc))

theorem exists_headerBytes {data : Bytes} {payload : Nat} (hlow : HEADER_LEN ≤ payload)
    (hhigh : payload ≤ data.length) :
    ∃ first second seq timestamp ssrc, seq.length = 2 ∧ timestamp.length = 4 ∧
      ssrc.length = 4 ∧ data = headerBytes first second seq timestamp ssrc ++
        (middle payload data ++ data.drop payload) := by
  rw [HEADER_LEN] at hlow
  rcases data with _ | ⟨first, _ | ⟨second, rest⟩⟩
  · simp at hhigh
    omega
  · simp at hhigh
    omega
  simp only [List.length_cons] at hhigh
  refine ⟨first, second, rest.take 2, (rest.drop 2).take 4, (rest.drop 6).take 4,
    by simp; omega, by simp; omega, by simp; omega, ?_⟩
  obtain ⟨n, rfl⟩ : ∃ n, payload = n + 12 := ⟨payload - 12, by omega⟩
  have hmiddle : middle (n + 12) (first :: second :: rest) = (rest.drop 10).take n := by
    rw [middle, HEADER_LEN, List.drop_take]
    rfl
  have hrest : (first :: second :: rest).drop (n + 12) = (rest.drop 10).drop n := by
    rw [List.drop_drop, Nat.add_comm 10 n]
    rfl
  have hsix : rest.drop 6 = (rest.drop 2).drop 4 := by rw [List.drop_drop]
  have hten : rest.drop 10 = ((rest.drop 2).drop 4).drop 4 := by
    rw [List.drop_drop, List.drop_drop]
  rw [hmiddle, hrest, List.take_append_drop, headerBytes, hsix, hten]
  simp only [List.cons_append, List.append_assoc, List.take_append_drop]

section Bytes

variable {first second : UInt8} {seq timestamp ssrc body : Bytes}

@[simp] theorem headerBytes_length (hseq : seq.length = 2) (htimestamp : timestamp.length = 4)
    (hssrc : ssrc.length = 4) :
    (headerBytes first second seq timestamp ssrc).length = 12 := by
  simp [headerBytes, hseq, htimestamp, hssrc]

theorem setPayloadType_headerBytes (type : UInt8) :
    setPayloadType type (headerBytes first second seq timestamp ssrc ++ body) =
      headerBytes first ((second &&& 0x80) ||| (type &&& 0x7f)) seq timestamp ssrc ++ body :=
  rfl

theorem setSeq_headerBytes (hseq : seq.length = 2) (v : UInt16) :
    setSeq v (headerBytes first second seq timestamp ssrc ++ body) =
      headerBytes first second (write2bytes v) timestamp ssrc ++ body := by
  simp [setSeq, writeAt, headerBytes, hseq]

theorem setSsrc_headerBytes (hseq : seq.length = 2) (htimestamp : timestamp.length = 4)
    (hssrc : ssrc.length = 4) (v : UInt32) :
    setSsrc v (headerBytes first second seq timestamp ssrc ++ body) =
      headerBytes first second seq timestamp (write4bytes v) ++ body := by
  have htake : seq.take 6 = seq := List.take_of_length_le (by omega)
  have hdrop : seq.drop 10 = [] := List.drop_of_length_le (by omega)
  have hdrop' : timestamp.drop 8 = [] := List.drop_of_length_le (by omega)
  simp [setSsrc, writeAt, headerBytes, List.drop_append, List.take_append, hseq, htimestamp,
    hssrc, htake, hdrop, hdrop']

/-- The three edits of the header. -/
theorem edited_headerBytes (hseq : seq.length = 2) (htimestamp : timestamp.length = 4)
    (hssrc : ssrc.length = 4) (replaceSeq : UInt16) (v : UInt32) (type : UInt8) :
    setSsrc v (setSeq replaceSeq (setPayloadType type
        (headerBytes first second seq timestamp ssrc ++ body))) =
      headerBytes first ((second &&& 0x80) ||| (type &&& 0x7f)) (write2bytes replaceSeq) timestamp
        (write4bytes v) ++ body := by
  rw [setPayloadType_headerBytes, setSeq_headerBytes hseq,
    setSsrc_headerBytes (write2bytes_length _) htimestamp hssrc]

theorem getSeq_headerBytes (v : UInt16) :
    getSeq (headerBytes first second (write2bytes v) timestamp ssrc ++ body) = v := by
  show read2bytes ((write2bytes v ++ (timestamp ++ ssrc)) ++ body) = v
  rw [List.append_assoc, read2bytes_write2bytes]

theorem getTimestamp_headerBytes (hseq : seq.length = 2) (htimestamp : timestamp.length = 4) :
    getTimestamp (headerBytes first second seq timestamp ssrc ++ body) = read4bytes timestamp := by
  show read4bytes (((seq ++ (timestamp ++ ssrc)) ++ body).drop 2) = _
  rw [List.append_assoc, List.drop_left' hseq, read4bytes, read4bytes, List.append_assoc,
    List.take_left' htimestamp, List.take_of_length_le (by omega)]

theorem getSsrc_headerBytes (hseq : seq.length = 2) (htimestamp : timestamp.length = 4)
    (v : UInt32) :
    getSsrc (headerBytes first second seq timestamp (write4bytes v) ++ body) = v := by
  show read4bytes (((seq ++ (timestamp ++ write4bytes v)) ++ body).drop 6) = v
  have hlen : (seq ++ timestamp).length = 6 := by
    rw [List.length_append, hseq, htimestamp]
  rw [← List.append_assoc seq, List.append_assoc (seq ++ timestamp), List.drop_left' hlen,
    read4bytes_write4bytes]

end Bytes

/-- A statement about a byte is one about 256 of them. -/
theorem forall_byte {P : UInt8 → Prop} (h : ∀ n : Fin 256, P (UInt8.ofNat n)) (b : UInt8) :
    P b := by
  have hb := h ⟨b.toNat, b.toNat_lt⟩
  rw [UInt8.ofNat_toNat] at hb
  exact hb

theorem clearPadding_eq {b : UInt8} (h : ¬ (b >>> 5) &&& 1 = 1) : (b &&& 0xdf) ||| 0 = b := by
  revert h b
  apply forall_byte
  decide +kernel

theorem clearPadding_hasPadding (b : UInt8) : ¬ (((b &&& 0xdf) ||| 0) >>> 5) &&& 1 = 1 := by
  revert b
  apply forall_byte
  decide +kernel

theorem clearPadding_hasExtension (b : UInt8) :
    (((b &&& 0xdf) ||| 0) >>> 4) &&& (1 : UInt8) = (b >>> 4) &&& 1 := by
  revert b
  apply forall_byte
  decide +kernel

theorem clearPadding_csrcCount (b : UInt8) : ((b &&& 0xdf) ||| 0) &&& 0x0f = b &&& 0x0f := by
  revert b
  apply forall_byte
  decide +kernel

theorem setType_getMarker (b type : UInt8) :
    ((b &&& 0x80) ||| (type &&& 0x7f)) >>> 7 = b >>> 7 := by
  have hmask : ∀ t : UInt8, (t &&& 0x7f) >>> 7 = 0 := by
    apply forall_byte
    decide +kernel
  have hbit : ∀ b : UInt8, (b &&& 0x80) >>> 7 = b >>> 7 := by
    apply forall_byte
    decide +kernel
  rw [UInt8.shiftRight_or, hmask, hbit, UInt8.or_zero]

theorem setType_getPayloadType (b : UInt8) {type : UInt8} (h : type < 128) :
    ((b &&& 0x80) ||| (type &&& 0x7f)) &&& 0x7f = type := by
  have hmask : ∀ t : UInt8, t < 128 → (t &&& 0x7f) &&& 0x7f = t := by
    apply forall_byte
    decide +kernel
  have hbit : ∀ b : UInt8, (b &&& 0x80) &&& 0x7f = 0 := by
    apply forall_byte
    decide +kernel
  have hdistrib : ((b &&& 0x80) ||| (type &&& 0x7f)) &&& 0x7f =
      ((b &&& 0x80) &&& 0x7f) ||| ((type &&& 0x7f) &&& 0x7f) := by
    rw [← UInt8.toNat_inj]
    simp only [UInt8.toNat_and, UInt8.toNat_or, Nat.and_or_distrib_right]
  rw [hdistrib, hbit, hmask type h, UInt8.zero_or]

section Moves

variable {front middle rest : Bytes} {payload : Nat}

theorem readBytes_behind (hpayload : front.length + middle.length = payload) {n : Nat}
    (hfits : 2 + n ≤ rest.length) :
    readBytes (front ++ (middle ++ rest)) (payload + 2) n = .ok ((rest.drop 2).take n) := by
  have hlen : (front ++ middle).length = payload := by rw [List.length_append, hpayload]
  rw [readBytes_ok (by simp only [List.length_append]; omega), ← List.append_assoc,
    ← List.drop_drop, List.drop_left' hlen]

/-- The rest of the payload goes over its first bytes. -/
theorem take_writeAt (hpayload : front.length + middle.length = payload) {moved : Bytes} {n : Nat}
    (hmoved : moved.length = n) :
    (writeAt payload moved (front ++ (middle ++ rest))).take (payload + n) =
      front ++ (middle ++ moved) := by
  have hlen : (front ++ middle).length = payload := by rw [List.length_append, hpayload]
  have hlen' : ((front ++ middle) ++ moved).length = payload + n := by
    rw [List.length_append, hlen, hmoved]
  rw [writeAt, ← List.append_assoc, List.take_left' hlen, List.take_left' hlen', List.append_assoc]

theorem writeAt_cons {offset : Nat} (h : 0 < offset) (b : UInt8) (bytes data : Bytes) :
    writeAt offset bytes (b :: data) = b :: writeAt (offset - 1) bytes data := by
  obtain ⟨n, rfl⟩ : ∃ n, offset = n + 1 := ⟨offset - 1, by omega⟩
  rw [writeAt, writeAt, List.take_succ_cons, Nat.add_right_comm n 1, List.drop_succ_cons,
    Nat.add_sub_cancel]
  rfl

end Moves

theorem HeaderOf.le_payload {data : Bytes} {ext : Option Nat} {payload : Nat}
    (h : HeaderOf data ext payload) : HEADER_LEN ≤ payload := by
  rcases h.parts with ⟨-, -, hend⟩ | ⟨-, x, -, hx, hend⟩ <;> omega

theorem HeaderOf.middle_length {data : Bytes} {ext : Option Nat} {payload : Nat}
    (h : HeaderOf data ext payload) : (middle payload data).length = payload - HEADER_LEN := by
  rw [middle, List.length_drop, List.length_take, Nat.min_eq_left (Nat.le_of_lt h.inside)]

/-- The bytes of the packet behind the demultiplexing. -/
theorem rtxDemux_ok {nowMs : Int} {data : Bytes} {p : Packet} (h : parse nowMs data = .ok p)
    (hlen : 2 ≤ p.payloadLen) (ssrc : UInt32) (payloadtype : UInt8) :
    ∃ first second seq timestamp oldSsrc, seq.length = 2 ∧ timestamp.length = 4 ∧
      oldSsrc.length = 4 ∧
      data = headerBytes first second seq timestamp oldSsrc ++
        (middle p.payload data ++ data.drop p.payload) ∧
      ∃ q, p.rtxDemux ssrc payloadtype = .ok q ∧
        q.getData = headerBytes ((first &&& 0xdf) ||| 0)
          ((second &&& 0x80) ||| (payloadtype &&& 0x7f)) (write2bytes (read2bytes p.getPayload))
          timestamp (write4bytes ssrc) ++ (middle p.payload data ++ p.getPayload.drop 2) := by
  have hexact := exact_of_parse (length_of_parse h) h
  have hbuffer := hexact.buffer
  have hinside := hexact.header.inside
  have htotal := hexact.padding.total
  have hlow := hexact.header.le_payload
  obtain ⟨first, second, seq, timestamp, oldSsrc, hseq, htimestamp, hssrc, hdata⟩ :=
    exists_headerBytes hlow (Nat.le_of_lt hinside)
  refine ⟨first, second, seq, timestamp, oldSsrc, hseq, htimestamp, hssrc, hdata, ?_⟩
  -- the sequence number is taken from the payload
  have hreplace : read2bytes p.getPayload = read2bytes (data.drop p.payload) := by
    rw [Packet.getPayload, hbuffer, read2bytes, read2bytes, List.take_take,
      Nat.min_eq_left hlen]
  have hedited : setSsrc ssrc (setSeq (read2bytes (data.drop p.payload))
      (setPayloadType payloadtype data)) =
      headerBytes first ((second &&& 0x80) ||| (payloadtype &&& 0x7f))
        (write2bytes (read2bytes p.getPayload)) timestamp (write4bytes ssrc) ++
        (middle p.payload data ++ data.drop p.payload) := by
    rw [hreplace]
    conv_lhs => arg 2; arg 2; rw [hdata]
    exact edited_headerBytes hseq htimestamp hssrc _ ssrc payloadtype
  have hfirst : hasPadding data = decide ((first >>> 5) &&& 1 = 1) := by
    rw [hdata]
    rfl
  generalize hfront : headerBytes first ((second &&& 0x80) ||| (payloadtype &&& 0x7f))
    (write2bytes (read2bytes p.getPayload)) timestamp (write4bytes ssrc) = front at hedited
  have hfrontLen : front.length + (middle p.payload data).length = p.payload := by
    rw [← hfront, headerBytes_length (write2bytes_length _) htimestamp (write4bytes_length _),
      hexact.header.middle_length]
    rw [HEADER_LEN] at hlow ⊢
    omega
  -- and what is behind it is moved over it
  have hmoved : ((data.drop p.payload).drop 2).take (p.payloadLen - 2) = p.getPayload.drop 2 := by
    rw [Packet.getPayload, hbuffer, List.drop_take]
  have hread : readBytes (front ++ (middle p.payload data ++ data.drop p.payload))
      (p.payload + 2) (p.payloadLen - 2) = .ok (p.getPayload.drop 2) := by
    rw [← hmoved]
    apply readBytes_behind hfrontLen
    rw [List.length_drop]
    omega
  have hlenMoved : (p.getPayload.drop 2).length = p.payloadLen - 2 := by
    rw [← hmoved, List.length_take, List.length_drop, List.length_drop]
    omega
  have hmove : (writeAt p.payload (p.getPayload.drop 2)
      (front ++ (middle p.payload data ++ data.drop p.payload))).take
        (p.payload + (p.payloadLen - 2)) =
      front ++ (middle p.payload data ++ p.getPayload.drop 2) :=
    take_writeAt hfrontLen hlenMoved
  -- the first byte changes last
  obtain ⟨tail, htail⟩ : ∃ tail, writeAt p.payload (p.getPayload.drop 2)
      (front ++ (middle p.payload data ++ data.drop p.payload)) = first :: tail := by
    rw [← hfront]
    exact ⟨_, writeAt_cons (by rw [HEADER_LEN] at hlow; omega) _ _ _⟩
  obtain ⟨n, hn⟩ : ∃ n, p.payload + (p.payloadLen - 2) = n + 1 :=
    ⟨p.payload + (p.payloadLen - 2) - 1, by rw [HEADER_LEN] at hlow; omega⟩
  rw [htail, hn, List.take_succ_cons, ← hfront, headerBytes, List.cons_append,
    List.cons.injEq] at hmove
  rw [Packet.rtxDemux, if_neg (by omega), hbuffer, readField_ok (by omega), Run.ok_bind, hedited]
  simp only [hread, Run.ok_bind, htail]
  have hdataLen := hexact.dataLen
  have hpadding := hexact.padding.padLen
  by_cases hpad : (first >>> 5) &&& 1 = 1
  · have hpad' : hasPadding (first :: tail) = true := decide_eq_true hpad
    rw [if_pos hpad']
    refine ⟨_, rfl, ?_⟩
    have hlength : p.dataLen - 2 - p.padLen.toNat = n + 1 := by omega
    show (((first &&& 0xdf) ||| 0) :: tail).take (p.dataLen - 2 - p.padLen.toNat) = _
    rw [hlength, List.take_succ_cons, hmove.2]
    rfl
  · have hpad' : ¬ hasPadding (first :: tail) = true := by
      rw [hasPadding, decide_eq_true_eq]
      exact hpad
    rw [if_neg hpad']
    refine ⟨_, rfl, ?_⟩
    rw [hfirst, decide_eq_false hpad, if_neg Bool.false_ne_true] at hpadding
    rw [hpadding, UInt8.toNat_zero] at htotal
    have hlength : p.dataLen - 2 = n + 1 := by omega
    show (first :: tail).take (p.dataLen - 2) = _
    rw [hlength, List.take_succ_cons, hmove.2, clearPadding_eq hpad]
    rfl

/-! ## The copy -/

/-- `r` is the packet that `p` carries: the sequence number stands before its payload, the
CSRCs and the extension are those of `p`, and it has no padding. -/
structure Unwraps (p : Packet) (ssrc : UInt32) (payloadtype : UInt8) (r : Packet) : Prop where
  seq : getSeq r.getData = read2bytes p.getPayload
  ssrc : getSsrc r.getData = ssrc
  payloadtype : getPayloadType r.getData = payloadtype
  timestamp : getTimestamp r.getData = getTimestamp p.getData
  marker : getMarker r.getData = getMarker p.getData
  headerEnd : r.payload = p.payload
  middle : middle r.payload r.getData = middle p.payload p.getData
  ext : r.ext = p.ext
  onebyte : r.onebyteExtMap = p.onebyteExtMap
  twobytes : r.twobytesExtMap = p.twobytesExtMap
  payload : r.getPayload = p.getPayload.drop 2
  padding : hasPadding r.getData = false
  padLen : r.padLen = 0

theorem getData_of_parse {nowMs : Int} {data : Bytes} {p : Packet} (h : parse nowMs data = .ok p) :
    p.getData = data := by
  have hexact := exact_of_parse (length_of_parse h) h
  rw [Packet.getData, hexact.buffer, hexact.dataLen, List.take_length]

theorem length_getPayload {nowMs : Int} {data : Bytes} {p : Packet} (h : parse nowMs data = .ok p) :
    p.getPayload.length = p.payloadLen := by
  have hexact := exact_of_parse (length_of_parse h) h
  have htotal := hexact.padding.total
  rw [Packet.getPayload, hexact.buffer, List.length_take, List.length_drop]
  omega

/-- `out` is `data` with another fixed header, with `body` for its payload, and without
padding. -/
structure Edited (data : Bytes) (payload : Nat) (out body : Bytes) : Prop where
  length : out.length = payload + body.length
  middle : middle payload out = middle payload data
  body : out.drop payload = body
  ext : hasExtension out = hasExtension data
  csrc : csrcCount out = csrcCount data
  padding : hasPadding out = false

theorem edited_of_bytes {data body : Bytes} {ext : Option Nat} {payload : Nat}
    {first second second' : UInt8} {seq timestamp ssrc seq' timestamp' ssrc' rest : Bytes}
    (h : HeaderOf data ext payload)
    (hdata : data = headerBytes first second seq timestamp ssrc ++ rest)
    (hseq : seq'.length = 2) (htimestamp : timestamp'.length = 4) (hssrc : ssrc'.length = 4) :
    Edited data payload
      (headerBytes ((first &&& 0xdf) ||| 0) second' seq' timestamp' ssrc' ++
        (middle payload data ++ body)) body := by
  have hlow := h.le_payload
  have hfrontLen : (headerBytes ((first &&& 0xdf) ||| 0) second' seq' timestamp' ssrc').length =
      HEADER_LEN := headerBytes_length hseq htimestamp hssrc
  have hlength : (headerBytes ((first &&& 0xdf) ||| 0) second' seq' timestamp' ssrc' ++
      middle payload data).length = payload := by
    rw [List.length_append, hfrontLen, h.middle_length]
    omega
  have hext : hasExtension data = decide ((first >>> 4) &&& (1 : UInt8) = 1) := by
    rw [hdata]
    rfl
  have hcsrc : csrcCount data = first &&& 0x0f := by
    rw [hdata]
    rfl
  rw [← List.append_assoc]
  constructor
  · rw [List.length_append, hlength]
  · conv_lhs => rw [middle]
    rw [List.take_left' hlength, List.drop_left' hfrontLen]
  · rw [List.drop_left' hlength]
  · rw [hext, ← clearPadding_hasExtension]
    rfl
  · rw [hcsrc, ← clearPadding_csrcCount]
    rfl
  · exact decide_eq_false (clearPadding_hasPadding first)

/-- The CSRCs and the extension are read again as they were. -/
theorem Edited.parse {nowMs cloneMs : Int} {data out body : Bytes} {p : Packet}
    (he : Edited data p.payload out body) (h : parse nowMs data = .ok p) (hpos : 1 ≤ body.length)
    (hbody : body.length ≤ p.payloadLen) :
    parse cloneMs out = .ok
      { buffer := out, ext := p.ext, payload := p.payload, payloadLen := body.length
        padLen := 0, dataLen := out.length, localMs := cloneMs
        onebyteExtMap := p.onebyteExtMap, twobytesExtMap := p.twobytesExtMap } := by
  have hheader := length_of_parse h
  have hexact := exact_of_parse hheader h
  have hinside := hexact.header.inside
  have hlow := hexact.header.le_payload
  have hsize := hexact.size
  have htotal := hexact.padding.total
  have hlength := he.length
  have hheaderOf : HeaderOf out p.ext p.payload := by
    refine ⟨by omega, ?_⟩
    rw [he.ext, he.csrc]
    apply hexact.header.parts.imp_right
    rintro ⟨hext, x, hx, hstart, hend⟩
    rw [EXT_HEAD_LEN] at hend
    refine ⟨hext, x, hx, hstart, ?_⟩
    rw [read2bytes_congr he.middle (by omega) (by omega)]
    exact hend
  have hpaddingOf : PaddingOf out p.payload body.length 0 := by
    refine ⟨hpos, ?_, ?_⟩
    · rw [hlength]
      rfl
    · rw [he.padding, if_neg Bool.false_ne_true]
  have helements : parseExt out p.ext = .ok (p.onebyteExtMap, p.twobytesExtMap) := by
    rw [parseExt_congr he.middle (by omega) (Nat.le_of_lt hinside) hsize he.ext hexact.header]
    exact ((parse_ok_iff hheader).mp h).2.2.2.1
  exact (parse_ok_iff (by omega)).mpr
    ⟨by omega, hheaderOf, hpaddingOf, helements, rfl, rfl, rfl, rfl⟩

/-- The packet that comes out can be parsed when it has a payload. -/
theorem clone_rtxDemux {nowMs cloneMs : Int} {data : Bytes} {p : Packet}
    (h : parse nowMs data = .ok p) (hlen : 3 ≤ p.payloadLen) (ssrc : UInt32)
    {payloadtype : UInt8} (htype : payloadtype < 128) :
    ∃ q r, p.rtxDemux ssrc payloadtype = .ok q ∧ q.clone cloneMs = .ok r ∧
      Unwraps p ssrc payloadtype r := by
  obtain ⟨first, second, seq, timestamp, oldSsrc, hseq, htimestamp, hssrc, hdata, q, hq, hbytes⟩ :=
    rtxDemux_ok h (by omega) ssrc payloadtype
  have hexact := exact_of_parse (length_of_parse h) h
  have hedited : Edited data p.payload q.getData (p.getPayload.drop 2) := by
    rw [hbytes]
    exact edited_of_bytes hexact.header hdata (write2bytes_length _) htimestamp
      (write4bytes_length _)
  have hbodyLen : (p.getPayload.drop 2).length = p.payloadLen - 2 := by
    rw [List.length_drop, length_getPayload h]
  have hagain := @Edited.parse nowMs cloneMs _ _ _ _ hedited h (by omega) (by omega)
  have hclone : q.clone cloneMs = .ok
      { buffer := q.getData, ext := p.ext, payload := p.payload
        payloadLen := (p.getPayload.drop 2).length
        padLen := 0, dataLen := q.getData.length, localMs := cloneMs, isClone := true
        onebyteExtMap := p.onebyteExtMap, twobytesExtMap := p.twobytesExtMap } := by
    rw [Packet.clone, hagain]
    rfl
  refine ⟨q, _, hq, hclone, ?_⟩
  have hnew : q.getData.take q.getData.length = q.getData := List.take_length
  have hold : p.getData = data := getData_of_parse h
  constructor
  · rw [Packet.getData, hnew, hbytes, getSeq_headerBytes]
  · rw [Packet.getData, hnew, hbytes, getSsrc_headerBytes (write2bytes_length _) htimestamp]
  · rw [Packet.getData, hnew, hbytes]
    exact setType_getPayloadType second htype
  · rw [Packet.getData, hnew, hbytes, getTimestamp_headerBytes (write2bytes_length _) htimestamp,
      hold]
    conv_rhs => rw [hdata, getTimestamp_headerBytes hseq htimestamp]
  · rw [Packet.getData, hnew, hbytes, hold]
    conv_rhs => rw [hdata]
    exact setType_getMarker second payloadtype
  · rfl
  · show middle p.payload (q.getData.take q.getData.length) = middle p.payload p.getData
    rw [hnew, hold]
    exact hedited.middle
  · rfl
  · rfl
  · rfl
  · show (q.getData.drop p.payload).take (p.getPayload.drop 2).length = _
    rw [hedited.body, List.take_length]
  · rw [Packet.getData, hnew]
    exact hedited.padding
  · rfl

/-- **Unwrapping.**  A packet that carries a sequence number gives a packet that can be
copied, and the copy is the one that was lost, exactly when there is a payload behind the
sequence number. -/
theorem rtx_unwraps_iff {nowMs : Int} (cloneMs : Int) {data : Bytes} {p : Packet}
    (h : parse nowMs data = .ok p) (hlen : 2 ≤ p.payloadLen) (ssrc : UInt32)
    {payloadtype : UInt8} (htype : payloadtype < 128) :
    (∃ q r, p.rtxDemux ssrc payloadtype = .ok q ∧ q.clone cloneMs = .ok r ∧
      Unwraps p ssrc payloadtype r) ↔ 3 ≤ p.payloadLen := by
  constructor
  · rintro ⟨q, r, -, hclone, hunwraps⟩
    obtain ⟨r₀, hparse, hr⟩ := Run.exists_of_bind_ok hclone
    cases hr
    have hexact := exact_of_parse (length_of_parse hparse) hparse
    -- the copy has a payload
    have hpayload : r₀.getPayload = p.getPayload.drop 2 := hunwraps.payload
    have hlength := length_getPayload hparse
    rw [hpayload, List.length_drop, length_getPayload h] at hlength
    have hpositive := hexact.padding.positive
    omega
  · intro hlen
    exact clone_rtxDemux h hlen ssrc htype

/-- Three bytes behind the header, of which one is payload of the packet that was lost. -/
def oneByteLeft : Bytes := [0x80, 97, 0, 1, 0, 0, 0, 9, 0, 0, 0, 5, 0x12, 0x34, 0xab]

theorem rtx_unwraps_iff_one :
    ∃ p, parse 0 oneByteLeft = .ok p ∧ 3 ≤ p.payloadLen ∧
      ((∃ q r, p.rtxDemux 77 96 = .ok q ∧ q.clone 5 = .ok r ∧ Unwraps p 77 96 r) ↔
        3 ≤ p.payloadLen) := by
  refine ⟨_, rfl, by decide, ?_⟩
  exact rtx_unwraps_iff 5 (show parse 0 oneByteLeft = .ok _ from rfl) (by decide) 77 (by decide)

/-- The sequence number and nothing behind it: the packet comes out, and its copy throws. -/
theorem not_unwraps_empty :
    ∃ p q, parse 0 [0x80, 97, 0, 1, 0, 0, 0, 9, 0, 0, 0, 5, 0x12, 0x34] = .ok p ∧
      p.payloadLen = 2 ∧ p.rtxDemux 77 96 = .ok q ∧
      q.clone 5 = .error (.thrown (.noPayload 12)) := by
  refine ⟨_, _, rfl, rfl, rfl, rfl⟩

/-! ## Packets of a sender -/

/-- The packet as a sender keeps it. -/
def Packet.toRtpPacket (p : Packet) : RtpPacket := { data := p.getData, localMs := p.localMs }

/-- A copy that can be made is the one that a sender keeps. -/
theorem toRtpPacket_clone {nowMs : Int} {p q : Packet} (h : p.clone nowMs = .ok q) :
    q.toRtpPacket = p.toRtpPacket.clone nowMs := by
  obtain ⟨q₀, hparse, hq⟩ := Run.exists_of_bind_ok h
  cases hq
  have hdata : q₀.getData = p.getData := getData_of_parse hparse
  have hms := ((parse_ok_iff (length_of_parse hparse)).mp hparse).2.2.2.2.2.2.1
  show RtpPacket.mk q₀.getData q₀.localMs = RtpPacket.mk p.getData nowMs
  rw [hdata, hms]

end Rtp

end MediaServer
