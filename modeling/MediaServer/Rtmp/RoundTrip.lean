import Mathlib.Data.List.Dedup
import MediaServer.Rtmp.Segmentation

/-!
# Messages written as chunks come back as messages

`write_data_by_chunk_stream` splits a message into chunks, and several messages
may travel at once: their chunks are interleaved on the wire, each message in
its own order, with at most one unfinished message on a chunk stream id.

`Interleaving` says which schedules of chunks are meant, `wire` is the byte
stream of a schedule.  `Receiving` is the invariant of the reading session
between two chunks: every chunk stream is between messages, or holds exactly
the part of its unfinished message that was sent.  `receiveTurn_chunk` is the
step and `consume_wire` the run.  The result, `chunk_round_trip`, is for every
way of cutting the byte stream into reads.
-/

namespace MediaServer

open Incremental (Turn Consumer)

/-! ## The chunks of a message -/

/-- The messages the round trip is about: a one-byte basic header, a timestamp
below the extended range, and a payload whose length fits its 24-bit field. -/
structure Message.Sendable (m : Message) : Prop where
  csid_ge : 2 ≤ m.csid
  csid_lt : m.csid < 64
  timestamp_lt : m.timestamp < 0xffffff
  payload_pos : 1 ≤ m.payload.length
  payload_le : m.payload.length ≤ 2 ^ 24 - 1

/-- What `write_data_by_chunk_stream` sends for `m` with chunk size `c`. -/
def Message.chunks (m : Message) (c : UInt32) : List Bytes :=
  match writeDataByChunkStream m.csid m.timestamp m.typeId m.msgStreamId c m.payload with
  | .ok chunks => chunks
  | .error _ => []

/-- A message has a chunk `i` exactly when its first `i` chunks do not hold all
of it. -/
theorem lt_chunkCount_iff {len c i : Nat} (hc : 0 < c) :
    i < chunkCount len c ↔ i * c < len := by
  unfold chunkCount
  have hdiv := Nat.div_add_mod len c
  have hmod := Nat.mod_lt len hc
  constructor
  · intro h
    split at h
    · have : i * c ≤ (len / c) * c := Nat.mul_le_mul_right c (by omega)
      rw [Nat.mul_comm (len / c)] at this
      omega
    · have : (i + 1) * c ≤ (len / c) * c := Nat.mul_le_mul_right c (by omega)
      rw [Nat.mul_comm (len / c), Nat.add_mul] at this
      omega
  · intro h
    have hle : i ≤ len / c := (Nat.le_div_iff_mul_le hc).mpr (by omega)
    split
    · omega
    · rcases Nat.lt_or_eq_of_le hle with hlt | rfl
      · exact hlt
      · rw [Nat.mul_comm] at h
        omega

/-- Chunk `i` holds what is left, up to the chunk size. -/
theorem chunkLen_eq {len c i : Nat} (hc : 0 < c) (hi : i < chunkCount len c) :
    chunkLen len c (chunkCount len c) i = min c (len - i * c) := by
  have hdiv := Nat.div_add_mod len c
  have hm := Nat.mod_lt len hc
  unfold chunkLen
  split_ifs with hlast hmod
  · have hcount : chunkCount len c = len / c + 1 := by simp [chunkCount, hmod]
    have hi' : i = len / c := by omega
    rw [hi', Nat.mul_comm (len / c)]
    omega
  · have hcount : chunkCount len c = len / c := by simp [chunkCount, hmod]
    have hi' : i + 1 = len / c := by omega
    have hlen : (i + 1) * c = len := by
      rw [hi', Nat.mul_comm]
      omega
    rw [Nat.add_mul] at hlen
    omega
  · have hnext : i + 1 < chunkCount len c := by omega
    have hlt := (lt_chunkCount_iff hc).mp hnext
    rw [Nat.add_mul] at hlt
    omega

/-- The one byte in front of a chunk of format `fmt`. -/
def basicByte (fmt : UInt8) (csid : UInt16) : UInt8 := (fmt <<< 6) ||| (csid &&& 0x3f).toUInt8

/-- The header of the first chunk of a message. -/
def Message.header (m : Message) : Bytes :=
  write3bytes m.timestamp ++ write3bytes (UInt32.ofNat m.payload.length) ++ [m.typeId] ++
    write4bytes m.msgStreamId

/-- The part of the payload that chunk `i` carries. -/
def Message.part (m : Message) (c : UInt32) (i : Nat) : Bytes :=
  (m.payload.drop (i * c.toNat)).take (min c.toNat (m.payload.length - i * c.toNat))

theorem toNat_pos_of_one_le {c : UInt32} (hc : 1 ≤ c) : 0 < c.toNat := by
  have h : 1 ≤ c.toNat := by simpa [UInt32.le_iff_toNat_le] using hc
  omega

theorem Message.chunks_eq (m : Message) {c : UInt32} (hc : 1 ≤ c) :
    m.chunks c = (List.range (chunkCount m.payload.length c.toNat)).map
      (writeChunk m.csid m.timestamp m.typeId m.msgStreamId c m.payload) := by
  have hne : c ≠ 0 := by
    rintro rfl
    exact absurd hc (by decide)
  simp [Message.chunks, writeDataByChunkStream, hne]

theorem Message.chunks_length (m : Message) {c : UInt32} (hc : 1 ≤ c) :
    (m.chunks c).length = chunkCount m.payload.length c.toNat := by
  simp [m.chunks_eq hc]

/-- The bytes of chunk `i`: format 0 with a header for the first, format 3 with
none for the others. -/
theorem Message.getD_chunks {m : Message} (hcsid : m.csid < 64) {c : UInt32} (hc : 1 ≤ c)
    {i : Nat} (hi : i < (m.chunks c).length) :
    (m.chunks c).getD i [] =
      if i = 0 then basicByte 0 m.csid :: (m.header ++ m.part c 0)
      else basicByte 3 m.csid :: m.part c i := by
  rw [m.chunks_length hc] at hi
  have hlen := chunkLen_eq (toNat_pos_of_one_le hc) hi
  rw [m.chunks_eq hc, List.getD_eq_getElem?_getD, List.getElem?_map,
    List.getElem?_range hi, Option.map_some, Option.getD_some]
  unfold writeChunk
  simp only [hlen, ChunkStream.genData, ChunkStream.genBasicHeader, ChunkStream.new,
    hcsid, if_true]
  split_ifs with h0
  · subst h0
    simp [basicByte, ChunkStream.genMessageHeader, DataBuffer.appendData, Message.header,
      Message.part]
  · simp [basicByte, ChunkStream.genMessageHeader, DataBuffer.appendData, Message.part]

/-! ## Reading one chunk -/

/-- `cs` is between two chunks and holds the first `n` chunks of `m`. -/
structure ChunkStream.Holds (c : UInt32) (m : Message) (n : Nat) (cs : ChunkStream) : Prop where
  phase : cs.phase = .header
  chunkSize : cs.chunkSize = c
  extTsFlag : cs.extTsFlag = false
  csid : cs.csid = m.csid
  timestamp : cs.timestamp32 = m.timestamp
  typeId : cs.typeId = m.typeId
  msgStreamId : cs.msgStreamId = m.msgStreamId
  chunkData : cs.chunkData = m.payload.take (n * c.toNat)
  remain : cs.remain = m.payload.length - n * c.toNat
  chunkReady : cs.chunkReady = decide (m.payload.length ≤ n * c.toNat)

/-- `cs` is between two messages. -/
structure ChunkStream.Idle (c : UInt32) (cs : ChunkStream) : Prop where
  phase : cs.phase = .header
  chunkSize : cs.chunkSize = c
  extTsFlag : cs.extTsFlag = false
  chunkData : cs.chunkData = []
  chunkReady : cs.chunkReady = false

theorem ChunkStream.idle_new (fmt : UInt8) (csid : UInt16) (c : UInt32) :
    (ChunkStream.new fmt csid c).Idle c :=
  ⟨rfl, rfl, rfl, rfl, rfl⟩

/-- A complete message that is handed over leaves an idle stream. -/
theorem ChunkStream.Holds.idle_reset {c : UInt32} {m : Message} {n : Nat} {cs : ChunkStream}
    (h : cs.Holds c m n) : cs.reset.Idle c :=
  ⟨rfl, h.chunkSize, h.extTsFlag, rfl, rfl⟩

theorem Message.part_length (m : Message) (c : UInt32) (n : Nat) :
    (m.part c n).length = min c.toNat (m.payload.length - n * c.toNat) := by
  simp [Message.part]

/-- The first `n + 1` parts are the first `n` parts and part `n`. -/
theorem Message.take_part (m : Message) (c : UInt32) (n : Nat) :
    m.payload.take (n * c.toNat) ++ m.part c n = m.payload.take ((n + 1) * c.toNat) := by
  rw [Message.part, ← List.length_drop, ← List.take_eq_take_min, Nat.add_mul, Nat.one_mul,
    List.take_add]

/-- The payload of chunk `n` takes a stream in the payload phase from `n`
chunks to `n + 1`. -/
theorem ChunkStream.readMessagePayload_part {c : UInt32} {m : Message} {n : Nat}
    {cs : ChunkStream} (h : ({ cs with phase := .header } : ChunkStream).Holds c m n)
    (hphase : cs.phase = .payload) (hlt : n * c.toNat < m.payload.length) (e : Bytes) :
    ∃ cs', cs.readMessagePayload (m.part c n ++ e) = (.ok, cs', e) ∧
      cs'.Holds c m (n + 1) := by
  have hchunk : cs.chunkSize = c := h.chunkSize
  have hremain : cs.remain = m.payload.length - n * c.toNat := h.remain
  have hdata : cs.chunkData = m.payload.take (n * c.toNat) := h.chunkData
  have hready : cs.chunkReady = false := by
    have := h.chunkReady
    simpa [Nat.not_le.mpr hlt] using this
  have hpl : cs.payloadLen = (m.part c n).length := by
    rw [Message.part_length, ChunkStream.payloadLen, hchunk, hremain]
    split <;> omega
  have hmul : (n + 1) * c.toNat = n * c.toNat + c.toNat := by rw [Nat.add_mul, Nat.one_mul]
  rw [ChunkStream.readMessagePayload_eq hphase, if_neg (by rw [hpl]; simp), hpl,
    List.take_left, List.drop_left]
  refine ⟨_, rfl, ?_⟩
  have hleft : cs.remain - (m.part c n).length = m.payload.length - (n + 1) * c.toNat := by
    rw [hremain, Message.part_length, hmul]
    omega
  exact
    { phase := rfl
      chunkSize := hchunk
      extTsFlag := h.extTsFlag
      csid := h.csid
      timestamp := h.timestamp
      typeId := h.typeId
      msgStreamId := h.msgStreamId
      chunkData := by
        show cs.chunkData ++ m.part c n = _
        rw [hdata, Message.take_part]
      remain := hleft
      chunkReady := by
        show (if cs.remain - (m.part c n).length = 0 then true else cs.chunkReady) = _
        rw [hleft, hready]
        by_cases hle : m.payload.length ≤ (n + 1) * c.toNat
        · rw [if_pos (by omega), decide_eq_true hle]
        · rw [if_neg (by omega), decide_eq_false hle] }

/-- The header of the first chunk, read by an idle stream. -/
theorem ChunkStream.readMessageHeader_first {c : UInt32} {m : Message} (hm : m.Sendable)
    {cs : ChunkStream} (h : cs.Idle c) (e : Bytes) :
    ∃ cs', cs.readMessageHeader (m.header ++ e) 0 m.csid = (.ok, cs', e) ∧
      cs'.phase = .payload ∧ ({ cs' with phase := .header } : ChunkStream).Holds c m 0 := by
  have hts : m.timestamp.toNat < 2 ^ 24 - 1 := by
    simpa using UInt32.lt_iff_toNat_lt.mp hm.timestamp_lt
  have hpl := hm.payload_le
  have hlen : (UInt32.ofNat m.payload.length).toNat = m.payload.length :=
    UInt32.toNat_ofNat_of_lt' (Nat.lt_of_le_of_lt hpl (by decide))
  have hhead : m.header.length = FORMAT0_HEADER_LEN := by
    simp [Message.header, FORMAT0_HEADER_LEN]
  have hread : read3bytes m.header = m.timestamp := by
    simp only [Message.header, List.append_assoc]
    exact read3bytes_write3bytes (by omega) _
  have hmsg : read3bytes (m.header.drop 3) = UInt32.ofNat m.payload.length := by
    simp only [Message.header, List.append_assoc]
    rw [List.drop_left' (by simp), read3bytes_write3bytes (by omega)]
  have htype : (m.header.drop 6).headD 0 = m.typeId := by
    rw [Message.header, List.append_assoc, List.drop_left' (by simp)]
    rfl
  have hstream : read4bytes (m.header.drop 7) = m.msgStreamId := by
    rw [Message.header, List.drop_left' (by simp), ← List.append_nil (write4bytes _),
      read4bytes_write4bytes]
  have hnot : ¬ m.timestamp ≥ 0xffffff := UInt32.not_le.mpr hm.timestamp_lt
  rw [readMessageHeader, if_neg (by simp [h.phase]), readMsgHeader, if_pos rfl, readMsgFormat0,
    readMsgFormat_eq, if_neg (by simp [hhead]), List.take_left' hhead, hread, if_neg hnot,
    List.drop_left' hhead]
  refine ⟨_, rfl, rfl, ?_⟩
  exact
    { phase := rfl
      chunkSize := h.chunkSize
      extTsFlag := h.extTsFlag
      csid := rfl
      timestamp := rfl
      typeId := htype
      msgStreamId := hstream
      chunkData := by simpa using h.chunkData
      remain := by
        show (read3bytes (m.header.drop 3)).toNat = _
        rw [hmsg, hlen]
        simp
      chunkReady := by
        have hpos := hm.payload_pos
        rw [show _ = cs.chunkReady from rfl, h.chunkReady]
        simp only [Nat.zero_mul]
        exact (decide_eq_false (by omega)).symm }

/-- A continuation has no header fields. -/
theorem ChunkStream.readMessageHeader_next {c : UInt32} {m : Message} {n : Nat}
    {cs : ChunkStream} (h : cs.Holds c m n) (hlt : n * c.toNat < m.payload.length) (b : Bytes) :
    ∃ cs', cs.readMessageHeader b 3 m.csid = (.ok, cs', b) ∧
      cs'.phase = .payload ∧ ({ cs' with phase := .header } : ChunkStream).Holds c m n := by
  have hremain := h.remain
  rw [readMessageHeader, if_neg (by simp [h.phase]), readMsgHeader, if_neg (by decide),
    if_neg (by decide), if_neg (by decide), if_pos rfl, readMsgFormat3,
    if_neg (by omega), skipTimestamp, if_neg (by simp [h.extTsFlag])]
  refine ⟨_, rfl, rfl, ?_⟩
  exact { h with phase := rfl, csid := rfl }

/-- What a stream has to be for chunk `n` of `m` to arrive on it. -/
def ChunkStream.Awaits (c : UInt32) (m : Message) (n : Nat) (cs : ChunkStream) : Prop :=
  if n = 0 then cs.Idle c else cs.Holds c m n

/-- The bytes of chunk `n` behind its basic header take a stream from `n`
chunks of `m` to `n + 1`. -/
theorem ChunkStream.readMessage_chunk {c : UInt32} {m : Message} (hm : m.Sendable) {n : Nat}
    {cs : ChunkStream} (h : cs.Awaits c m n) (hlt : n * c.toNat < m.payload.length) :
    ∃ cs', SessionBase.readMessage (if n = 0 then 0 else 3) m.csid cs
        (if n = 0 then m.header ++ m.part c 0 else m.part c n) = (.ok, cs', []) ∧
      cs'.Holds c m (n + 1) := by
  have hread : ∃ cs', cs.readMessageHeader
      (if n = 0 then m.header ++ m.part c 0 else m.part c n) (if n = 0 then 0 else 3) m.csid =
        (.ok, cs', m.part c n) ∧
      cs'.phase = .payload ∧ ({ cs' with phase := .header } : ChunkStream).Holds c m n := by
    unfold ChunkStream.Awaits at h
    split_ifs at h ⊢ with h0
    · subst h0
      exact ChunkStream.readMessageHeader_first hm h (m.part c 0)
    · exact ChunkStream.readMessageHeader_next h hlt (m.part c n)
  obtain ⟨cs₁, hhead, hphase, hholds⟩ := hread
  obtain ⟨cs', hpay, hholds'⟩ := ChunkStream.readMessagePayload_part hholds hphase hlt []
  rw [List.append_nil] at hpay
  refine ⟨cs', ?_, hholds'⟩
  rw [SessionBase.readMessage, hhead]
  exact hpay

/-- A stream that holds all of `m` hands over `m`. -/
theorem ChunkStream.Holds.message_eq {c : UInt32} {m : Message} {n : Nat} {cs : ChunkStream}
    (h : cs.Holds c m n) (hle : m.payload.length ≤ n * c.toNat) : cs.message = m := by
  simp only [ChunkStream.message, h.csid, h.timestamp, h.typeId, h.msgStreamId, h.chunkData,
    List.take_of_length_le hle]

/-- A format has two bits. -/
theorem mem_of_fmt_lt {fmt : UInt8} (h : fmt < 4) : fmt ∈ [(0 : UInt8), 1, 2, 3] := by
  have hlt : fmt.toNat < 4 := UInt8.lt_iff_toNat_lt.mp h
  simp only [List.mem_cons, List.not_mem_nil, or_false, ← UInt8.toNat_inj, UInt8.reduceToNat]
  omega

/-- One byte carries the format and a chunk stream id from 2 to 63. -/
theorem basicByte_decode {fmt : UInt8} (hf : fmt < 4) {csid : UInt16} (hlt : csid < 64) :
    (basicByte fmt csid >>> 6) &&& 0x3 = fmt ∧ (basicByte fmt csid &&& 0x3f).toUInt16 = csid := by
  have key : ∀ n : Fin 64, ∀ f ∈ [(0 : UInt8), 1, 2, 3],
      (basicByte f (UInt16.ofNat n.val) >>> 6) &&& 0x3 = f ∧
        (basicByte f (UInt16.ofNat n.val) &&& 0x3f).toUInt16 = UInt16.ofNat n.val := by
    decide +kernel
  have hn : csid.toNat < 64 := by simpa using UInt16.lt_iff_toNat_lt.mp hlt
  have h := key ⟨csid.toNat, hn⟩ fmt (mem_of_fmt_lt hf)
  simpa using h

namespace SessionBase

/-- A session that has read a whole number of chunks and nothing else. -/
structure AtBoundary (c : UInt32) (s : SessionBase) : Prop where
  recvBuffer : s.recvBuffer = []
  fmtReady : s.fmtReady = false
  chunkSize : s.chunkSize = c

/-- With no further byte such a session has nothing to do. -/
theorem AtBoundary.consume_push_nil {onMessage : Message → UInt32 → UInt32} {c : UInt32}
    {s : SessionBase} (hs : s.AtBoundary c) :
    (chunkConsumer onMessage).consume (s.push []) = (s, []) := by
  rw [push_nil]
  exact Consumer.consume_of_wait _ (receiveTurn_empty _ hs.fmtReady hs.recvBuffer)

/-- The session after the basic header of a chunk of `m`, with the rest of the
chunk still to be read. -/
def withBasic (s : SessionBase) (fmt : UInt8) (csid : UInt16) (rest : Bytes) : SessionBase :=
  { s with fmt := fmt, csid := csid, recvBuffer := rest, fmtReady := true }

theorem readBasicHeader_oneByte {c : UInt32} {s : SessionBase} (hs : s.AtBoundary c)
    {fmt : UInt8} (hf : fmt < 4) {csid : UInt16} (hge : 2 ≤ csid) (hlt : csid < 64)
    (rest : Bytes) :
    (s.push (basicByte fmt csid :: rest)).readBasicHeader = (.ok, s.withBasic fmt csid rest) := by
  obtain ⟨hfmt, hcsid⟩ := basicByte_decode hf hlt
  have h0 : csid ≠ 0 := by
    rintro rfl
    exact absurd hge (by decide)
  have h1 : csid ≠ 1 := by
    rintro rfl
    exact absurd hge (by decide)
  simp [readBasicHeader, readFmtCsid, push, DataBuffer.appendData, hs.recvBuffer, hs.fmtReady,
    hfmt, hcsid, h0, h1, withBasic]

/-- **Step.**  Chunk `n` of `m`, on a stream that awaits it, is read in one turn
to its end.  The message is delivered with its last chunk. -/
theorem receiveTurn_chunk {c : UInt32} (hc : 1 ≤ c) {s : SessionBase} (hs : s.AtBoundary c)
    {m : Message} (hm : m.Sendable) {n : Nat} (hn : n < (m.chunks c).length)
    (hcs : ((s.csMap (mapKey m.csid)).getD (ChunkStream.new 0 m.csid c)).Awaits c m n)
    (hnew : s.csMap (mapKey m.csid) = none → n = 0) :
    ∃ s' cs', (s.push ((m.chunks c).getD n [])).receiveTurn keepChunkSize =
        .step s' (if n + 1 = (m.chunks c).length then [m] else []) ∧
      s'.AtBoundary c ∧ s'.csid = m.csid ∧
      s'.csMap = Function.update s.csMap (mapKey m.csid) (some cs') ∧
      if n + 1 = (m.chunks c).length then cs'.Idle c else cs'.Holds c m (n + 1) := by
  have hpos := toNat_pos_of_one_le hc
  have hlt : n * c.toNat < m.payload.length := by
    rwa [m.chunks_length hc, lt_chunkCount_iff hpos] at hn
  have hlast : n + 1 = (m.chunks c).length ↔ m.payload.length ≤ (n + 1) * c.toNat := by
    have hiff : n + 1 < chunkCount m.payload.length c.toNat ↔ _ := lt_chunkCount_iff hpos
    rw [m.chunks_length hc] at hn ⊢
    omega
  have hbytes : (m.chunks c).getD n [] = basicByte (if n = 0 then 0 else 3) m.csid ::
      (if n = 0 then m.header ++ m.part c 0 else m.part c n) := by
    rw [Message.getD_chunks hm.csid_lt hc hn]
    split <;> rfl
  obtain ⟨cs₁, hread, hholds⟩ := ChunkStream.readMessage_chunk hm hcs hlt
  -- the stream that the session looks up is the one that awaits the chunk
  have hcur : ∀ rest, (s.withBasic (if n = 0 then 0 else 3) m.csid rest).currentStream =
      (s.csMap (mapKey m.csid)).getD (ChunkStream.new 0 m.csid c) := by
    intro rest
    simp only [currentStream, withBasic, hs.chunkSize]
    cases hk : s.csMap (mapKey m.csid) with
    | none => simp [hnew hk]
    | some cs => rfl
  have hchunk : (s.push ((m.chunks c).getD n [])).readChunkStream =
      (.ok, { s with
        fmt := if n = 0 then 0 else 3
        csid := m.csid
        csMap := Function.update s.csMap (mapKey m.csid) (some cs₁) }) := by
    rw [readChunkStream, hbytes,
      readBasicHeader_oneByte hs (by split <;> decide) hm.csid_ge hm.csid_lt]
    show readCurrentStream _ = _
    rw [readCurrentStream, hcur]
    show fileStream _ (readMessage (if n = 0 then 0 else 3) m.csid _
      (if n = 0 then m.header ++ m.part c 0 else m.part c n)) = _
    rw [hread]
    simp [fileStream, withBasic, hs.recvBuffer, hs.fmtReady]
  have hready : cs₁.chunkReady = decide (n + 1 = (m.chunks c).length) := by
    rw [hholds.chunkReady]
    exact decide_eq_decide.mpr hlast.symm
  rw [receiveTurn, hchunk]
  simp only [deliver, currentStream, Function.update_self, Option.getD_some,
    ChunkStream.isReady, hready, decide_eq_true_eq]
  by_cases hfin : n + 1 = (m.chunks c).length
  · simp only [if_pos hfin, hholds.message_eq (hlast.mp hfin), Function.update_idem]
    exact ⟨_, cs₁.reset, rfl, ⟨hs.recvBuffer, hs.fmtReady, hs.chunkSize⟩, rfl, rfl,
      hholds.idle_reset⟩
  · simp only [if_neg hfin]
    exact ⟨_, cs₁, rfl, ⟨hs.recvBuffer, hs.fmtReady, hs.chunkSize⟩, rfl, rfl, hholds⟩

end SessionBase

/-! ## Schedules -/

section Schedule

variable {ι : Type} [DecidableEq ι]

/-- The chunks of a schedule, one after another.  Each occurrence of `i` stands
for the next chunk of message `i`, of which `sent i` chunks have been sent. -/
def wire (c : UInt32) (msgs : ι → Message) (sent : ι → Nat) : List ι → Bytes
  | [] => []
  | i :: rest =>
    ((msgs i).chunks c).getD (sent i) [] ++
      wire c msgs (Function.update sent i (sent i + 1)) rest

/-- Message `i` is begun and not finished. -/
def Unfinished (c : UInt32) (msgs : ι → Message) (sent : ι → Nat) (i : ι) : Prop :=
  0 < sent i ∧ sent i < ((msgs i).chunks c).length

/-- No message but `i` is unfinished on the chunk stream id of `i`. -/
def Exclusive (c : UInt32) (msgs : ι → Message) (sent : ι → Nat) (i : ι) : Prop :=
  ∀ j, Unfinished c msgs sent j → (msgs j).csid = (msgs i).csid → j = i

/-- A schedule that sends every chunk of every message.  A chunk is sent only
while no other message is unfinished on its chunk stream id. -/
structure Interleaving (c : UInt32) (msgs : ι → Message) (sched : List ι) : Prop where
  complete : ∀ i, sched.count i = ((msgs i).chunks c).length
  exclusive : ∀ front i back, sched = front ++ i :: back →
    Exclusive c msgs (fun j => front.count j) i

/-- A schedule that finishes what `sent` has begun. -/
structure Finishes (c : UInt32) (msgs : ι → Message) (sent : ι → Nat) (sched : List ι) :
    Prop where
  complete : ∀ i, sent i + sched.count i = ((msgs i).chunks c).length
  exclusive : ∀ front i back, sched = front ++ i :: back →
    Exclusive c msgs (fun j => sent j + front.count j) i

theorem Interleaving.finishes {c : UInt32} {msgs : ι → Message} {sched : List ι}
    (h : Interleaving c msgs sched) : Finishes c msgs (fun _ => 0) sched where
  complete := by simpa using h.complete
  exclusive := by simpa using h.exclusive

theorem update_add_count {sent : ι → Nat} {i : ι} (front : List ι) :
    (fun j => Function.update sent i (sent i + 1) j + front.count j) =
      fun j => sent j + (i :: front).count j := by
  funext j
  by_cases hj : j = i
  · subst hj
    simp only [Function.update_self, List.count_cons_self]
    omega
  · rw [Function.update_of_ne hj, List.count_cons_of_ne (Ne.symm hj)]

theorem Finishes.tail {c : UInt32} {msgs : ι → Message} {sent : ι → Nat} {i : ι}
    {rest : List ι} (h : Finishes c msgs sent (i :: rest)) :
    Finishes c msgs (Function.update sent i (sent i + 1)) rest where
  complete j := by
    rw [show _ + rest.count j = sent j + (i :: rest).count j from
      congrFun (update_add_count rest) j]
    exact h.complete j
  exclusive front j back hsplit := by
    rw [update_add_count]
    exact h.exclusive (i :: front) j back (by rw [hsplit]; rfl)

theorem Finishes.head_exclusive {c : UInt32} {msgs : ι → Message} {sent : ι → Nat} {i : ι}
    {rest : List ι} (h : Finishes c msgs sent (i :: rest)) : Exclusive c msgs sent i := by
  simpa using h.exclusive [] i rest rfl

theorem Finishes.head_lt {c : UInt32} {msgs : ι → Message} {sent : ι → Nat} {i : ι}
    {rest : List ι} (h : Finishes c msgs sent (i :: rest)) :
    sent i < ((msgs i).chunks c).length := by
  have hi := h.complete i
  rw [List.count_cons_self] at hi
  omega

/-- The messages that a schedule completes, in the order of their last chunks:
`dedup` keeps the last occurrence of each index. -/
theorem Finishes.dedup_cons {c : UInt32} {msgs : ι → Message} {sent : ι → Nat} {i : ι}
    {rest : List ι} (h : Finishes c msgs sent (i :: rest)) :
    (i :: rest).dedup =
      (if sent i + 1 = ((msgs i).chunks c).length then [i] else []) ++ rest.dedup := by
  have hi := h.complete i
  rw [List.count_cons_self] at hi
  by_cases hmem : i ∈ rest
  · have hpos := List.count_pos_iff.mpr hmem
    rw [List.dedup_cons_of_mem hmem, if_neg (by omega), List.nil_append]
  · have hzero := List.count_eq_zero.mpr hmem
    rw [List.dedup_cons_of_notMem hmem, if_pos (by omega)]
    rfl

/-- Every message has a chunk, so a schedule completes each of them once. -/
theorem Interleaving.perm {c : UInt32} {msgs : List Message}
    {sched : List (Fin msgs.length)} (h : Interleaving c msgs.get sched) (hc : 1 ≤ c)
    (hm : ∀ i, (msgs.get i).Sendable) : (sched.dedup.map msgs.get).Perm msgs := by
  have hmem : ∀ i, i ∈ sched := by
    intro i
    have hpos : 0 * c.toNat < (msgs.get i).payload.length := by
      have := (hm i).payload_pos
      omega
    rw [← List.count_pos_iff, h.complete i, Message.chunks_length _ hc,
      lt_chunkCount_iff (toNat_pos_of_one_le hc)]
    exact hpos
  have hall : sched.dedup.Perm (List.finRange msgs.length) := by
    rw [List.perm_ext_iff_of_nodup (List.nodup_dedup _) (List.nodup_finRange _)]
    intro i
    simp [hmem i]
  have hmap := hall.map msgs.get
  rwa [List.map_get_finRange] at hmap

end Schedule

/-! ## Reading a schedule -/

namespace SessionBase

section Run

variable {ι : Type} {c : UInt32} {msgs : ι → Message}

/-- The session between two chunks of a schedule: a stream with an unfinished
message holds the chunks of it that were sent, and every other stream is
between messages. -/
structure Receiving (c : UInt32) (msgs : ι → Message) (sent : ι → Nat) (s : SessionBase) :
    Prop where
  boundary : s.AtBoundary c
  holds : ∀ i, Unfinished c msgs sent i →
    ∃ cs, s.csMap (mapKey (msgs i).csid) = some cs ∧ cs.Holds c (msgs i) (sent i)
  idle : ∀ k cs, s.csMap k = some cs →
    (∀ i, Unfinished c msgs sent i → mapKey (msgs i).csid ≠ k) → cs.Idle c

/-- One-byte ids have keys of their own. -/
theorem mapKey_inj {a b : UInt16} (ha : a < 64) (hb : b < 64) (h : mapKey a = mapKey b) :
    a = b := by
  have ha' : a.toNat < 64 := by simpa using UInt16.lt_iff_toNat_lt.mp ha
  have hb' : b.toNat < 64 := by simpa using UInt16.lt_iff_toNat_lt.mp hb
  have hn := congrArg UInt8.toNat h
  simp only [mapKey, UInt16.toNat_toUInt8] at hn
  apply UInt16.toNat_inj.mp
  omega

/-- A message that is unfinished on the key of `i` is `i`. -/
theorem eq_of_mapKey_eq {sent : ι → Nat} (hm : ∀ i, (msgs i).Sendable) {i j : ι}
    (hex : Exclusive c msgs sent i) (hj : Unfinished c msgs sent j)
    (hk : mapKey (msgs j).csid = mapKey (msgs i).csid) : j = i :=
  hex j hj (mapKey_inj (hm j).csid_lt (hm i).csid_lt hk)

/-- The stream on which the next chunk of message `i` arrives awaits it. -/
theorem Receiving.awaits {sent : ι → Nat} {s : SessionBase} (h : s.Receiving c msgs sent)
    (hm : ∀ i, (msgs i).Sendable) {i : ι} (hi : sent i < ((msgs i).chunks c).length)
    (hex : Exclusive c msgs sent i) :
    ((s.csMap (mapKey (msgs i).csid)).getD (ChunkStream.new 0 (msgs i).csid c)).Awaits c
      (msgs i) (sent i) ∧
      (s.csMap (mapKey (msgs i).csid) = none → sent i = 0) := by
  by_cases h0 : sent i = 0
  · refine ⟨?_, fun _ => h0⟩
    rw [ChunkStream.Awaits, if_pos h0]
    cases hk : s.csMap (mapKey (msgs i).csid) with
    | none => exact ChunkStream.idle_new _ _ _
    | some cs =>
      refine h.idle _ cs hk ?_
      intro j hj hkey
      obtain rfl := eq_of_mapKey_eq hm hex hj hkey
      exact absurd hj.1 (by omega)
  · obtain ⟨cs, hcs, hholds⟩ := h.holds i ⟨by omega, hi⟩
    rw [hcs, ChunkStream.Awaits, if_neg h0]
    exact ⟨hholds, fun hnone => absurd hnone (by simp)⟩

variable [DecidableEq ι]

/-- **Step.**  The next chunk of message `i` is read in one turn, and the
session is between two chunks again. -/
theorem Receiving.turn {sent : ι → Nat} {s : SessionBase} (h : s.Receiving c msgs sent)
    (hc : 1 ≤ c) (hm : ∀ i, (msgs i).Sendable) {i : ι}
    (hi : sent i < ((msgs i).chunks c).length) (hex : Exclusive c msgs sent i) :
    ∃ s', (s.push (((msgs i).chunks c).getD (sent i) [])).receiveTurn keepChunkSize =
        .step s' (if sent i + 1 = ((msgs i).chunks c).length then [msgs i] else []) ∧
      s'.csid = (msgs i).csid ∧
      s'.Receiving c msgs (Function.update sent i (sent i + 1)) := by
  obtain ⟨hawaits, hnew⟩ := h.awaits hm hi hex
  obtain ⟨s', cs', hturn, hbound, hcsid, hmap, hstream⟩ :=
    receiveTurn_chunk hc h.boundary (hm i) hi hawaits hnew
  refine ⟨s', hturn, hcsid, hbound, ?_, ?_⟩
  · intro j hj
    by_cases hji : j = i
    · subst hji
      have hlast : ¬ sent j + 1 = ((msgs j).chunks c).length := by
        have := hj.2
        rw [Function.update_self] at this
        omega
      rw [if_neg hlast] at hstream
      exact ⟨cs', by rw [hmap, Function.update_self], by rwa [Function.update_self]⟩
    · have hj' : Unfinished c msgs sent j := by
        simpa [Unfinished, Function.update_of_ne hji] using hj
      have hkey : mapKey (msgs j).csid ≠ mapKey (msgs i).csid :=
        fun hk => hji (eq_of_mapKey_eq hm hex hj' hk)
      rw [hmap, Function.update_of_ne hkey, Function.update_of_ne hji]
      exact h.holds j hj'
  · intro k cs hk hfree
    by_cases hki : k = mapKey (msgs i).csid
    · subst hki
      rw [hmap, Function.update_self, Option.some.injEq] at hk
      have hlast : sent i + 1 = ((msgs i).chunks c).length := by
        by_contra hne
        exact hfree i ⟨by simp, by rw [Function.update_self]; omega⟩ rfl
      rw [if_pos hlast, hk] at hstream
      exact hstream
    · rw [hmap, Function.update_of_ne hki] at hk
      refine h.idle k cs hk ?_
      intro j hj hkey
      have hji : j ≠ i := by
        rintro rfl
        exact hki hkey.symm
      refine hfree j ?_ hkey
      simpa [Unfinished, Function.update_of_ne hji] using hj

/-- **Run.**  The chunks of a schedule are read to the last byte, and the
messages come out in the order of their last chunks. -/
theorem Receiving.consume_wire {sched : List ι} {sent : ι → Nat} {s : SessionBase}
    (h : s.Receiving c msgs sent) (hc : 1 ≤ c) (hm : ∀ i, (msgs i).Sendable)
    (hf : Finishes c msgs sent sched) :
    ((chunkConsumer keepChunkSize).consume (s.push (wire c msgs sent sched))).1.recvBuffer = [] ∧
      ((chunkConsumer keepChunkSize).consume (s.push (wire c msgs sent sched))).2 =
        sched.dedup.map msgs := by
  induction sched generalizing sent s with
  | nil =>
    rw [wire, h.boundary.consume_push_nil]
    exact ⟨h.boundary.recvBuffer, rfl⟩
  | cons i rest ih =>
    obtain ⟨s', hturn, -, hrecv⟩ := h.turn hc hm hf.head_lt hf.head_exclusive
    obtain ⟨hbuf, hout⟩ := ih hrecv hf.tail
    rw [wire, ← push_push, consume_push_of_step _ hturn, hf.dedup_cons]
    refine ⟨hbuf, ?_⟩
    rw [List.map_append, ← hout]
    split <;> rfl

/-- A session that waits inside a chunk with a one-byte basic header has read
that header. -/
theorem not_mid_of_oneByte {s s' : SessionBase} (hs : s.AtBoundary c) {fmt : UInt8}
    (hf : fmt < 4) {m : Message} (hm : m.Sendable) {rest : Bytes}
    (h : (s.push (basicByte fmt m.csid :: rest)).receiveTurn keepChunkSize = .wait s') :
    s'.midBasicHeader = false := by
  rw [receiveTurn, readChunkStream, readBasicHeader_oneByte hs hf hm.csid_ge hm.csid_lt] at h
  rcases hr : (s.withBasic fmt m.csid rest).readCurrentStream with ⟨r, s₁⟩
  simp only [hr] at h
  have hready : r ≠ .ok → s₁.fmtReady = true := readCurrentStream_wait hr
  cases r with
  | ok => cases h
  | needReadMore => cases h; simp [midBasicHeader, hready]
  | error => cases h; simp [midBasicHeader, hready]

/-- A read that ends anywhere in the chunks of a schedule does not end inside a
longer basic header. -/
theorem Receiving.not_mid_of_prefix {sched : List ι} {sent : ι → Nat} {s : SessionBase}
    (h : s.Receiving c msgs sent) (hc : 1 ≤ c) (hm : ∀ i, (msgs i).Sendable)
    (hf : Finishes c msgs sent sched) {front back : Bytes}
    (hsplit : wire c msgs sent sched = front ++ back) (hne : front ≠ []) :
    ((chunkConsumer keepChunkSize).consume (s.push front)).1.midBasicHeader = false := by
  induction sched generalizing sent s front with
  | nil =>
    rw [wire, eq_comm, List.append_eq_nil_iff] at hsplit
    exact absurd hsplit.1 hne
  | cons i rest ih =>
    obtain ⟨s', hturn, hcsid, hrecv⟩ := h.turn hc hm hf.head_lt hf.head_exclusive
    -- the whole chunk was read, and perhaps a part of the following ones
    have hwhole : ∀ more, front = ((msgs i).chunks c).getD (sent i) [] ++ more →
        wire c msgs (Function.update sent i (sent i + 1)) rest = more ++ back →
        ((chunkConsumer keepChunkSize).consume (s.push front)).1.midBasicHeader = false := by
      intro more hfront hmore
      rw [hfront, ← push_push, consume_push_of_step _ hturn]
      by_cases hnil : more = []
      · have hge := (hm i).csid_ge
        rw [hnil, hrecv.boundary.consume_push_nil]
        simpa [midBasicHeader, hcsid] using fun _ => hge
      · exact ih hrecv hf.tail hmore hnil
    rw [wire, List.append_eq_append_iff] at hsplit
    rcases hsplit with ⟨more, hfront, hmore⟩ | ⟨cut, hchunk, hback⟩
    · exact hwhole more hfront hmore
    by_cases hcut : cut = []
    · rw [hcut, List.append_nil] at hchunk
      exact hwhole [] (by rw [hchunk, List.append_nil]) (by rw [hback, hcut]; rfl)
    -- the read ends inside this chunk
    rcases hcons : (chunkConsumer keepChunkSize).turn (s.push front) with s₁ | ⟨s₁, out⟩
    · rw [Consumer.consume_of_wait _ hcons]
      obtain ⟨p, q, rfl⟩ := List.exists_cons_of_ne_nil hne
      rw [Message.getD_chunks (hm i).csid_lt hc hf.head_lt] at hchunk
      split_ifs at hchunk with h0
      · rw [List.cons_append, List.cons.injEq] at hchunk
        rw [← hchunk.1] at hcons
        exact not_mid_of_oneByte h.boundary (by decide) (hm i) hcons
      · rw [List.cons_append, List.cons.injEq] at hchunk
        rw [← hchunk.1] at hcons
        exact not_mid_of_oneByte h.boundary (by decide) (hm i) hcons
    · -- a chunk without its last bytes is not read, since its turn uses up all of it
      have hstep : receiveTurn keepChunkSize (s.push (front ++ cut)) = .step (s₁.push cut) out := by
        rw [← push_push]
        exact (chunkConsumer keepChunkSize).turn_push cut hcons
      rw [← hchunk, hturn, Turn.step.injEq] at hstep
      have hbuf : s₁.recvBuffer ++ cut = [] := by
        rw [← hrecv.boundary.recvBuffer, hstep.1]
        rfl
      exact absurd (List.append_eq_nil_iff.mp hbuf).2 hcut

/-- The chunks of a schedule, read in any pieces. -/
theorem Receiving.receiveAll_wire {sched : List ι} {sent : ι → Nat} {s : SessionBase}
    (h : s.Receiving c msgs sent) (hc : 1 ≤ c) (hm : ∀ i, (msgs i).Sendable)
    (hf : Finishes c msgs sent sched) {reads : List Bytes} (hne : ∀ data ∈ reads, data ≠ [])
    (hwire : reads.flatten = wire c msgs sent sched) :
    (s.receiveAll keepChunkSize reads).1.recvBuffer = [] ∧
      (s.receiveAll keepChunkSize reads).2 = sched.dedup.map msgs := by
  have hread : s.receiveAll keepChunkSize reads =
      (chunkConsumer keepChunkSize).consume (s.push (wire c msgs sent sched)) := by
    by_cases hnil : reads = []
    · rw [← hwire, hnil, List.flatten_nil, h.boundary.consume_push_nil]
      rfl
    · rw [← hwire, ← receive_eq_consume]
      apply receiveAll_eq_receive _ _ hnil
      apply cutsOutsideBasicHeaders_of_prefix _ hne
      intro front back hsplit hfront
      rw [receive_eq_consume]
      exact h.not_mid_of_prefix hc hm hf (hwire ▸ hsplit) hfront
  rw [hread]
  exact h.consume_wire hc hm hf

end Run

/-- **Round trip.**  Messages that `write_data_by_chunk_stream` splits into
chunks of size `c`, sent in any interleaving and read in any pieces by a
session with chunk size `c`, are delivered once each, in the order of their
last chunks, and no byte is left. -/
theorem chunk_round_trip (c : UInt32) (hc : 1 ≤ c) (msgs : List Message)
    (hm : ∀ m ∈ msgs, m.Sendable) (sched : List (Fin msgs.length))
    (hsched : Interleaving c msgs.get sched) (reads : List Bytes)
    (hne : ∀ data ∈ reads, data ≠ [])
    (hwire : reads.flatten = wire c msgs.get (fun _ => 0) sched) (s : SessionBase)
    (hs : s.AtBoundary c) (hmap : ∀ k, s.csMap k = none) :
    (s.receiveAll keepChunkSize reads).2 = sched.dedup.map msgs.get ∧
      (s.receiveAll keepChunkSize reads).2.Perm msgs ∧
      (s.receiveAll keepChunkSize reads).1.recvBuffer = [] := by
  have hm' : ∀ i, (msgs.get i).Sendable := fun i => hm _ (List.get_mem msgs i)
  have hrecv : s.Receiving c msgs.get (fun _ => 0) :=
    ⟨hs, fun i hi => absurd hi.1 (by simp), fun k cs hk => absurd hk (by simp [hmap k])⟩
  obtain ⟨hbuf, hout⟩ := hrecv.receiveAll_wire hc hm' hsched.finishes hne hwire
  rw [hout]
  exact ⟨rfl, hsched.perm hc hm', hbuf⟩

/-- Two messages on two streams, their chunks of three bytes interleaved and
read in two pieces. -/
theorem chunk_round_trip_two :
    (receiveAll keepChunkSize { chunkSize := 3 }
      [[4, 0, 0, 40, 0, 0, 4, 8, 0, 0, 0, 1, 1, 2, 3, 5, 0], [0, 23, 0, 0, 1, 9, 0, 0, 0, 1, 7,
        0xc4, 4]]).2 =
      [⟨5, 23, 9, 1, [7]⟩, ⟨4, 40, 8, 1, [1, 2, 3, 4]⟩] := by
  refine (chunk_round_trip 3 (by decide)
    [⟨4, 40, 8, 1, [1, 2, 3, 4]⟩, ⟨5, 23, 9, 1, [7]⟩] ?_ [0, 1, 0] ⟨?_, ?_⟩ _ ?_ ?_ _
    ⟨rfl, rfl, rfl⟩ fun _ => rfl).1
  · intro m hm
    simp only [List.mem_cons, List.not_mem_nil, or_false] at hm
    rcases hm with rfl | rfl
    · exact ⟨by decide, by decide, by decide, by decide, by decide⟩
    · exact ⟨by decide, by decide, by decide, by decide, by decide⟩
  · decide
  · intro front i back hsplit j _ hcsid
    revert hcsid
    exact (by decide : ∀ i j : Fin 2,
      (List.get [(⟨4, 40, 8, 1, [1, 2, 3, 4]⟩ : Message), ⟨5, 23, 9, 1, [7]⟩] j).csid =
        (List.get [(⟨4, 40, 8, 1, [1, 2, 3, 4]⟩ : Message), ⟨5, 23, 9, 1, [7]⟩] i).csid →
        j = i) i j
  · decide
  · decide

end SessionBase

end MediaServer
