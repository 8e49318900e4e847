import MediaServer.Rtmp.ChunkHeaders
import MediaServer.Rtmp.Isolation

/-!
# Timestamp deltas

A header of type 1 or 2 carries the difference of its timestamp to the last
one, and a header of type 3 that starts a message stands for the same
difference again.  `read_msg_format3` adds the difference when the last header
was of type 1 or 2, and then writes its own type over it, also when it only
goes on with a message.  So the difference is added once more if the message of
type 1 or 2 had one chunk, and never after that.

The payload of a message is cut into the parts of its chunks (`Cut`), and
`Reads` is what one chunk stream does with its chunks.  `Carries` puts them
between the chunks of other streams.  `SessionBase.delta_rule_iff` says when the
timestamps are those of the rule.
-/

namespace MediaServer

open Incremental (Turn)

/-- A payload in the parts that its chunks carry: each as long as a chunk can be, and
the last one what is left.  An empty payload has one part. -/
inductive Cut (c : Nat) : Bytes → List Bytes → Prop
  | last {p : Bytes} : p.length ≤ c → Cut c p [p]
  | more {p : Bytes} {parts : List Bytes} :
    c < p.length → Cut c (p.drop c) parts → Cut c p (p.take c :: parts)

/-- The payload of a message of `len` bytes on a chunk stream with chunk size `c`. -/
structure Body (c len : Nat) where
  payload : Bytes
  parts : List Bytes
  length_eq : payload.length = len
  cut : Cut c payload parts

namespace ChunkStream

/-- The stream is between two messages.  The last one had the timestamp `ts`, and no
header had an extended one. -/
structure Rests (ts : UInt32) (cs : ChunkStream) : Prop where
  phase : cs.phase = .header
  extTsFlag : cs.extTsFlag = false
  chunkReady : cs.chunkReady = false
  chunkData : cs.chunkData = []
  remain : cs.remain = 0
  timestamp : cs.timestamp32 = ts

/-- What a header of type 3 finds of the headers before it. -/
structure Repeats (ts delta : UInt32) (c len : Nat) (cs : ChunkStream) : Prop extends Rests ts cs where
  timestampDelta : cs.timestampDelta = delta
  chunkSize : cs.chunkSize.toNat = c
  msgLen : cs.msgLen.toNat = len

/-- A message header was read, and `p` is what is missing of the message. -/
structure Expects (ts delta : UInt32) (c len : Nat) (x : UInt16) (p : Bytes) (cs : ChunkStream) :
    Prop where
  phase : cs.phase = .payload
  extTsFlag : cs.extTsFlag = false
  chunkReady : cs.chunkReady = false
  remain : cs.remain = p.length
  timestamp : cs.timestamp32 = ts
  timestampDelta : cs.timestampDelta = delta
  chunkSize : cs.chunkSize.toNat = c
  msgLen : cs.msgLen.toNat = len
  csid : cs.csid = x

/-- No header completes a message. -/
theorem readMsgHeader_chunkReady {cs cs' : ChunkStream} {buffer buffer' : DataBuffer} {fmt : UInt8}
    {csid : UInt16} {ret : RtmpRet} (h : cs.chunkReady = false)
    (hr : cs.readMsgHeader buffer fmt csid = (ret, cs', buffer')) : cs'.chunkReady = false := by
  cases readMsgHeader_case hr with
  | waits => exact h
  | awaitsTimestamp => exact h
  | starts _ _ fields hfields =>
    rw [hfields.chunkReady]
    exact h
  | startsAgain => rfl
  | goesOn => exact h

end ChunkStream

namespace SessionBase

/-! ## One chunk stream -/

/-- A stream that hands over a message rests at the timestamp of the message. -/
theorem rests_of_isReady {fmt : UInt8} {csid : UInt16} {cs cs' : ChunkStream}
    {buffer buffer' : DataBuffer} {ret : RtmpRet} (h : cs.chunkReady = false)
    (hr : readMessage fmt csid cs buffer = (ret, cs', buffer')) (hready : cs'.isReady = true)
    (hflag : cs'.extTsFlag = false) : (keepStream cs').Rests cs'.message.timestamp := by
  have hremain : cs'.remain = 0 := by
    rcases readMessage_cases hr with ⟨hp, hr⟩ | ⟨-, cs₁, buffer₁, hh, hr⟩ | ⟨-, -, hh⟩
    · obtain ⟨hzero, -⟩ := ChunkStream.readMessagePayload_ready hp h hr hready
      exact hzero
    · have hwait := ChunkStream.readMsgHeader_chunkReady h hh
      obtain ⟨hzero, -⟩ := ChunkStream.readMessagePayload_ready rfl (by exact hwait) hr hready
      exact hzero
    · rw [ChunkStream.isReady, ChunkStream.readMsgHeader_chunkReady h hh] at hready
      cases hready
  rw [keepStream, if_pos hready]
  exact
    { phase := rfl
      extTsFlag := hflag
      chunkReady := rfl
      chunkData := rfl
      remain := hremain
      timestamp := rfl }

/-- The chunks of one stream, each with its type and the bytes behind its basic header,
are read one after another to their ends. -/
inductive Reads (x : UInt16) : ChunkStream → List (UInt8 × Bytes) → ChunkStream → List Message → Prop
  | nil (cs : ChunkStream) : Reads x cs [] cs []
  | cons {cs cs₁ cs' : ChunkStream} {fmt : UInt8} {bytes : Bytes} {rest : List (UInt8 × Bytes)}
      {out : List Message} : readMessage fmt x cs bytes = (.ok, cs₁, []) →
      Reads x (keepStream cs₁) rest cs' out →
      Reads x cs ((fmt, bytes) :: rest) cs' (handOver cs₁ ++ out)

theorem Reads.append {x : UInt16} {cs cs₁ cs₂ : ChunkStream} {as bs : List (UInt8 × Bytes)}
    {out₁ out₂ : List Message} (h₁ : Reads x cs as cs₁ out₁) (h₂ : Reads x cs₁ bs cs₂ out₂) :
    Reads x cs (as ++ bs) cs₂ (out₁ ++ out₂) := by
  induction h₁ with
  | nil cs => exact h₂
  | cons hread hrest ih =>
    rw [List.append_assoc]
    exact Reads.cons hread (ih h₂)

/-- The chunks of a message that starts with a header of type `fmt`. -/
def messageChunks (fmt : UInt8) (header : Bytes) : List Bytes → List (UInt8 × Bytes)
  | [] => []
  | part :: parts => (fmt, header ++ part) :: parts.map (3, ·)

theorem messageChunks_three (parts : List Bytes) :
    messageChunks 3 [] parts = parts.map (3, ·) := by
  cases parts with
  | nil => rfl
  | cons part parts => rfl

/-- The stream after a part of its message. -/
def afterPart (cs : ChunkStream) (part : Bytes) : ChunkStream :=
  ChunkStream.acceptPayload { cs with requireLen := part.length } part

/-- A part is read to its end. -/
theorem readMessagePayload_exact {cs : ChunkStream} (hphase : cs.phase = .payload) {part : Bytes}
    (hlen : cs.payloadLen = part.length) :
    cs.readMessagePayload part = (.ok, afterPart cs part, []) := by
  rw [ChunkStream.readMessagePayload_eq hphase, hlen, if_neg (Nat.lt_irrefl _),
    List.take_of_length_le (Nat.le_refl _), List.drop_of_length_le (Nat.le_refl _)]
  rfl

theorem readMessage_of_header {x : UInt16} {fmt : UInt8} {cs cs₁ : ChunkStream}
    {header part : Bytes} (hh : cs.readMessageHeader (header ++ part) fmt x = (.ok, cs₁, part))
    (hphase : cs₁.phase = .payload) (hlen : cs₁.payloadLen = part.length) :
    readMessage fmt x cs (header ++ part) = (.ok, afterPart cs₁ part, []) := by
  rw [readMessage, hh]
  exact readMessagePayload_exact hphase hlen

variable {ts delta : UInt32} {c len : Nat} {x : UInt16}

/-- A header of type 3 inside a message. -/
theorem continueHeader {cs : ChunkStream} (hphase : cs.phase = .header)
    (hflag : cs.extTsFlag = false) (hremain : cs.remain ≠ 0) (part : Bytes) :
    cs.readMessageHeader ([] ++ part) 3 x =
      (.ok, { cs with fmt := 3, csid := x, phase := .payload }, part) := by
  rw [ChunkStream.readMessageHeader, if_neg (by simp [hphase]), ChunkStream.readMsgHeader,
    if_neg (by decide), if_neg (by decide), if_neg (by decide), if_pos rfl,
    ChunkStream.readMsgFormat3, if_neg hremain, ChunkStream.skipTimestamp,
    if_neg (by simp [hflag])]
  rfl

/-- The last part completes the message. -/
theorem lastPart {cs : ChunkStream} {p : Bytes} (h : cs.Expects ts delta c len x p)
    (hle : p.length ≤ c) :
    cs.payloadLen = p.length ∧ (afterPart cs p).isReady = true ∧
      (afterPart cs p).reset.Repeats ts delta c len := by
  have hzero : cs.remain - p.length = 0 := by
    rw [h.remain, Nat.sub_self]
  refine ⟨?_, ?_, ?_⟩
  · rw [ChunkStream.payloadLen, h.remain, h.chunkSize, if_neg (by omega)]
  · show (if cs.remain - p.length = 0 then true else cs.chunkReady) = true
    rw [if_pos hzero]
  · exact
      { phase := rfl
        extTsFlag := h.extTsFlag
        chunkReady := rfl
        chunkData := rfl
        remain := hzero
        timestamp := h.timestamp
        timestampDelta := h.timestampDelta
        chunkSize := h.chunkSize
        msgLen := h.msgLen }

/-- After another part, a header of type 3 goes on with the message. -/
theorem innerPart {cs : ChunkStream} {p : Bytes} (h : cs.Expects ts delta c len x p)
    (hlt : c < p.length) :
    cs.payloadLen = (p.take c).length ∧ (afterPart cs (p.take c)).isReady = false ∧
      (afterPart cs (p.take c)).remain ≠ 0 ∧
      ({ afterPart cs (p.take c) with fmt := 3, csid := x, phase := .payload } :
        ChunkStream).Expects ts delta c len x (p.drop c) := by
  have hpart : (p.take c).length = c := by
    rw [List.length_take]
    omega
  have hremain : cs.remain - (p.take c).length = (p.drop c).length := by
    rw [h.remain, hpart, List.length_drop]
  have hne : cs.remain - (p.take c).length ≠ 0 := by
    rw [hremain, List.length_drop]
    omega
  have hready : (if cs.remain - (p.take c).length = 0 then true else cs.chunkReady) = false := by
    rw [if_neg hne, h.chunkReady]
  refine ⟨?_, hready, hne, ?_⟩
  · rw [ChunkStream.payloadLen, h.remain, h.chunkSize, if_pos hlt, hpart]
  · exact
      { phase := rfl
        extTsFlag := h.extTsFlag
        chunkReady := hready
        remain := hremain
        timestamp := h.timestamp
        timestampDelta := h.timestampDelta
        chunkSize := h.chunkSize
        msgLen := h.msgLen
        csid := rfl }

/-- **A message.**  From the header on, the chunks of a message hand it over with the
timestamp that the header has set.  The type of its last chunk is what the stream
remembers. -/
theorem reads_message {p : Bytes} {parts : List Bytes} (hcut : Cut c p parts)
    {cs cs₁ : ChunkStream} {fmt : UInt8} {header : Bytes}
    (hheader : ∀ part, cs.readMessageHeader (header ++ part) fmt x = (.ok, cs₁, part))
    (h : cs₁.Expects ts delta c len x p) :
    ∃ cs' m, Reads x cs (messageChunks fmt header parts) cs' [m] ∧ cs'.Repeats ts delta c len ∧
      cs'.fmt = (if p.length ≤ c then cs₁.fmt else 3) ∧
      m.csid = x ∧ m.timestamp = ts ∧ m.payload = cs₁.chunkData ++ p := by
  induction hcut generalizing cs cs₁ fmt header with
  | @last p hle =>
    obtain ⟨hlen, hready, hrepeats⟩ := lastPart h hle
    have hread := readMessage_of_header (hheader p) h.phase hlen
    have hkeep : keepStream (afterPart cs₁ p) = (afterPart cs₁ p).reset := if_pos hready
    have hover : handOver (afterPart cs₁ p) = [(afterPart cs₁ p).message] := if_pos hready
    refine ⟨(afterPart cs₁ p).reset, (afterPart cs₁ p).message, ?_, hrepeats, ?_, h.csid,
      h.timestamp, rfl⟩
    · have hreads := Reads.cons hread (Reads.nil (keepStream (afterPart cs₁ p)))
      rw [hover, hkeep] at hreads
      exact hreads
    · rw [if_pos hle]
      rfl
  | @more p parts hlt hcut ih =>
    obtain ⟨hlen, hready, hne, hexpects⟩ := innerPart h hlt
    have hread := readMessage_of_header (hheader (p.take c)) h.phase hlen
    have hkeep : keepStream (afterPart cs₁ (p.take c)) = afterPart cs₁ (p.take c) := by
      simp [keepStream, hready]
    have hover : handOver (afterPart cs₁ (p.take c)) = [] := by
      simp [handOver, hready]
    have hphase : (afterPart cs₁ (p.take c)).phase = .header := rfl
    have hflag : (afterPart cs₁ (p.take c)).extTsFlag = false := h.extTsFlag
    -- the rest of the message is a message whose header says nothing
    obtain ⟨cs', m, hreads, hrepeats, hfmt, hcsid, hts, hpayload⟩ :=
      ih (continueHeader hphase hflag hne) hexpects
    refine ⟨cs', m, ?_, hrepeats, ?_, hcsid, hts, ?_⟩
    · rw [messageChunks_three, ← hkeep] at hreads
      have hall := Reads.cons hread hreads
      rw [hover] at hall
      exact hall
    · rw [hfmt, if_neg (Nat.not_le.mpr hlt)]
      split_ifs
      · rfl
      · rfl
    · rw [hpayload]
      show cs₁.chunkData ++ p.take c ++ p.drop c = cs₁.chunkData ++ p
      rw [List.append_assoc, List.take_append_drop]

/-! ## The headers of the rule -/

/-- A header of type 1 or 2: the difference, and with type 1 the length and the type of
the message. -/
def deltaHeader (fmt : UInt8) (d : UInt32) (len : Nat) (typeId : UInt8) : Bytes :=
  write3bytes d ++ if fmt = 1 then write3bytes (UInt32.ofNat len) ++ [typeId] else []

/-- The length that a header of type `fmt` announces: with type 1 one that fits in its
field, with type 2 the one of the message before. -/
def Announces (fmt : UInt8) (len : Nat) (cs : ChunkStream) : Prop :=
  (fmt = 1 ∧ len < 2 ^ 24) ∨ (fmt = 2 ∧ len = cs.msgLen.toNat)

/-- A stream reads a header to its end, and then `p` is missing. -/
def ReadsHeader (cs : ChunkStream) (fmt : UInt8) (header : Bytes) (ts delta : UInt32) (c len : Nat)
    (x : UInt16) (p : Bytes) : Prop :=
  ∃ cs₁, (∀ part, cs.readMessageHeader (header ++ part) fmt x = (.ok, cs₁, part)) ∧
    cs₁.Expects ts delta c len x p ∧ cs₁.fmt = fmt ∧ cs₁.chunkData = []

theorem read3bytes_delta {d : UInt32} (hd : d < 0xffffff) (rest : Bytes) :
    read3bytes (write3bytes d ++ rest) = d := by
  apply read3bytes_write3bytes
  have hlt := UInt32.lt_iff_toNat_lt.mp hd
  simp at hlt
  omega

theorem deltaHeader_read_one {cs : ChunkStream} {t d : UInt32} (h : cs.Rests t) (hd : d < 0xffffff)
    (hlen : len < 2 ^ 24) (typeId : UInt8) {p : Bytes} (hp : p.length = len) :
    ReadsHeader cs 1 (deltaHeader 1 d len typeId) (t + d) d cs.chunkSize.toNat len x p := by
  have hnat : (UInt32.ofNat len).toNat = len := UInt32.toNat_ofNat_of_lt' (by
    show len < 2 ^ 32
    omega)
  have hhead : (deltaHeader 1 d len typeId).length = 7 := by simp [deltaHeader]
  have hts : read3bytes (deltaHeader 1 d len typeId) = d := read3bytes_delta hd _
  have hfield : read3bytes ((deltaHeader 1 d len typeId).drop 3) = UInt32.ofNat len := by
    rw [deltaHeader, if_pos rfl, List.drop_left' (by simp), read3bytes_write3bytes (by omega)]
  refine ⟨{ cs with
    fmt := 1, csid := x, timestampDelta := d, timestamp32 := cs.timestamp32 + d
    msgLen := UInt32.ofNat len, typeId := ((deltaHeader 1 d len typeId).drop 6).headD 0
    remain := (UInt32.ofNat len).toNat, phase := .payload }, ?_, ?_, rfl, h.chunkData⟩
  · intro part
    rw [ChunkStream.readMessageHeader, if_neg (by simp [h.phase]), ChunkStream.readMsgHeader,
      if_neg (by decide), if_pos rfl, ChunkStream.readMsgFormat1, ChunkStream.readMsgFormat_eq,
      ChunkStream.FORMAT1_HEADER_LEN, if_neg (by simp [hhead]), List.take_left' hhead, hts,
      if_neg (UInt32.not_le.mpr hd), List.drop_left' hhead]
    simp only [hfield]
  · exact
      { phase := rfl
        extTsFlag := h.extTsFlag
        chunkReady := h.chunkReady
        remain := by rw [hp, hnat]
        timestamp := by rw [h.timestamp]
        timestampDelta := rfl
        chunkSize := rfl
        msgLen := hnat
        csid := rfl }

theorem deltaHeader_read_two {cs : ChunkStream} {t d : UInt32} (h : cs.Rests t) (hd : d < 0xffffff)
    (hlen : len = cs.msgLen.toNat) (typeId : UInt8) {p : Bytes} (hp : p.length = len) :
    ReadsHeader cs 2 (deltaHeader 2 d len typeId) (t + d) d cs.chunkSize.toNat len x p := by
  have hhead : (deltaHeader 2 d len typeId).length = 3 := by simp [deltaHeader]
  have hts : read3bytes (deltaHeader 2 d len typeId) = d := read3bytes_delta hd _
  refine ⟨{ cs with
    fmt := 2, csid := x, timestampDelta := d, timestamp32 := cs.timestamp32 + d
    remain := cs.msgLen.toNat, phase := .payload }, ?_, ?_, rfl, h.chunkData⟩
  · intro part
    rw [ChunkStream.readMessageHeader, if_neg (by simp [h.phase]), ChunkStream.readMsgHeader,
      if_neg (by decide), if_neg (by decide), if_pos rfl, ChunkStream.readMsgFormat2,
      ChunkStream.readMsgFormat_eq, ChunkStream.FORMAT2_HEADER_LEN, if_neg (by simp [hhead]),
      List.take_left' hhead, hts, if_neg (UInt32.not_le.mpr hd), List.drop_left' hhead]
  · exact
      { phase := rfl
        extTsFlag := h.extTsFlag
        chunkReady := h.chunkReady
        remain := by rw [hp, hlen]
        timestamp := by rw [h.timestamp]
        timestampDelta := rfl
        chunkSize := rfl
        msgLen := hlen.symm
        csid := rfl }

theorem deltaHeader_read {cs : ChunkStream} {t d : UInt32} (h : cs.Rests t) (hd : d < 0xffffff)
    {fmt : UInt8} (hfmt : Announces fmt len cs) (typeId : UInt8) {p : Bytes}
    (hp : p.length = len) :
    ReadsHeader cs fmt (deltaHeader fmt d len typeId) (t + d) d cs.chunkSize.toNat len x p := by
  rcases hfmt with ⟨rfl, hlen⟩ | ⟨rfl, hlen⟩
  · exact deltaHeader_read_one h hd hlen typeId hp
  · exact deltaHeader_read_two h hd hlen typeId hp

/-- A header of type 3 that starts a message. -/
theorem repeatHeader_read {cs : ChunkStream} (h : cs.Repeats ts delta c len) {p : Bytes}
    (hp : p.length = len) :
    ReadsHeader cs 3 [] (if cs.fmt = 1 ∨ cs.fmt = 2 then ts + delta else ts) delta c len x p := by
  refine ⟨{ cs with
    timestamp32 := if cs.fmt = 1 ∨ cs.fmt = 2 then ts + delta else ts
    chunkAll := [], chunkData := [], remain := cs.msgLen.toNat, chunkReady := false
    fmt := 3, csid := x, phase := .payload }, ?_, ?_, rfl, rfl⟩
  · intro part
    have hnew : cs.readNewTimestamp part =
        some (if cs.fmt = 1 ∨ cs.fmt = 2 then ts + delta else ts, part) := by
      simp only [ChunkStream.readNewTimestamp, h.extTsFlag, h.timestamp, h.timestampDelta,
        Bool.false_eq_true, if_false]
      by_cases h0 : cs.fmt = 0
      · simp [h0]
      · rw [if_neg h0]
        split_ifs
        · rfl
        · rfl
    rw [ChunkStream.readMessageHeader, if_neg (by simp [h.phase]), ChunkStream.readMsgHeader,
      if_neg (by decide), if_neg (by decide), if_neg (by decide), if_pos rfl,
      ChunkStream.readMsgFormat3, if_pos h.remain, List.nil_append, hnew]
  · exact
      { phase := rfl
        extTsFlag := h.extTsFlag
        chunkReady := rfl
        remain := by rw [hp, ← h.msgLen]
        timestamp := rfl
        timestampDelta := h.timestampDelta
        chunkSize := h.chunkSize
        msgLen := h.msgLen
        csid := rfl }

/-- Messages that start with headers of type 3 behind a chunk of type 3 have the
timestamp of the message before them. -/
theorem reads_repeated (bodies : List (Body c len)) {cs : ChunkStream}
    (h : cs.Repeats ts delta c len) (hfmt : cs.fmt = 3) :
    ∃ cs' msgs, Reads x cs (bodies.flatMap fun b => messageChunks 3 [] b.parts) cs' msgs ∧
      msgs.map (·.timestamp) = List.replicate bodies.length ts ∧
      msgs.map (·.payload) = bodies.map (·.payload) := by
  induction bodies generalizing cs with
  | nil => exact ⟨cs, [], Reads.nil cs, rfl, rfl⟩
  | cons b bodies ih =>
    obtain ⟨cs₁, hheader, hexpects, hfmt₁, hdata⟩ := repeatHeader_read h b.length_eq
    have hno : ¬ (cs.fmt = 1 ∨ cs.fmt = 2) := by
      rw [hfmt]
      decide
    rw [if_neg hno] at hexpects
    obtain ⟨cs₂, m, hreads, hrepeats, hfmt₂, -, hts, hpayload⟩ := reads_message b.cut hheader hexpects
    rw [hfmt₁, ite_self] at hfmt₂
    obtain ⟨cs', msgs, hrest, htimes, hpayloads⟩ := ih hrepeats hfmt₂
    refine ⟨cs', [m] ++ msgs, hreads.append hrest, ?_, ?_⟩
    · rw [List.singleton_append, List.map_cons, htimes, hts]
      rfl
    · rw [List.singleton_append, List.map_cons, hpayloads, hpayload, hdata]
      rfl

/-- The chunks of the rule: a message with a header of type 1 or 2, and then messages
with headers of type 3. -/
def ruleChunks (fmt : UInt8) (d : UInt32) (typeId : UInt8) (first : Body c len)
    (others : List (Body c len)) : List (UInt8 × Bytes) :=
  messageChunks fmt (deltaHeader fmt d len typeId) first.parts ++
    others.flatMap fun b => messageChunks 3 [] b.parts

/-- **The timestamps that the code gives.**  The difference is added once, and once more
if the first message has one chunk. -/
theorem reads_rule {cs : ChunkStream} {t d : UInt32} (h : cs.Rests t) (hd : d < 0xffffff)
    {fmt : UInt8} (hfmt : Announces fmt len cs) (typeId : UInt8)
    (first : Body cs.chunkSize.toNat len) (others : List (Body cs.chunkSize.toNat len)) :
    ∃ cs' msgs, Reads x cs (ruleChunks fmt d typeId first others) cs' msgs ∧
      msgs.map (·.timestamp) = (t + d) :: List.replicate others.length
        (if len ≤ cs.chunkSize.toNat then t + d + d else t + d) ∧
      msgs.map (·.payload) = first.payload :: others.map (·.payload) := by
  obtain ⟨cs₁, hheader, hexpects, hfmt₁, hdata₁⟩ := deltaHeader_read h hd hfmt typeId first.length_eq
  obtain ⟨cs₂, m, hreads, hrepeats, hfmt₂, -, hts, hpayload⟩ :=
    reads_message first.cut hheader hexpects
  rw [hdata₁, List.nil_append] at hpayload
  rw [first.length_eq, hfmt₁] at hfmt₂
  have hdelta : fmt = 1 ∨ fmt = 2 := by
    rcases hfmt with ⟨hfmt, -⟩ | ⟨hfmt, -⟩
    · exact Or.inl hfmt
    · exact Or.inr hfmt
  cases others with
  | nil =>
    refine ⟨cs₂, [m], ?_, ?_, ?_⟩
    · have hall := hreads.append (Reads.nil cs₂)
      exact hall
    · rw [List.map_singleton, hts]
      rfl
    · rw [List.map_singleton, hpayload]
      rfl
  | cons b others =>
    obtain ⟨cs₃, hheader₃, hexpects₃, hfmt₃, hdata₃⟩ := repeatHeader_read hrepeats b.length_eq
    obtain ⟨cs₄, m₁, hreads₁, hrepeats₁, hfmt₄, -, hts₁, hpayload₁⟩ :=
      reads_message b.cut hheader₃ hexpects₃
    rw [hfmt₃, ite_self] at hfmt₄
    rw [hdata₃, List.nil_append] at hpayload₁
    obtain ⟨cs', msgs, hrest, htimes, hpayloads⟩ := reads_repeated others hrepeats₁ hfmt₄
    -- the first of these messages still finds the type of the message before it, or not
    have hadd : (if cs₂.fmt = 1 ∨ cs₂.fmt = 2 then t + d + d else t + d) =
        if len ≤ cs.chunkSize.toNat then t + d + d else t + d := by
      by_cases hone : len ≤ cs.chunkSize.toNat
      · rw [hfmt₂, if_pos hone, if_pos hdelta, if_pos hone]
      · have hno : ¬ ((3 : UInt8) = 1 ∨ (3 : UInt8) = 2) := by decide
        rw [hfmt₂, if_neg hone, if_neg hno, if_neg hone]
    refine ⟨cs', [m] ++ ([m₁] ++ msgs), hreads.append (hreads₁.append hrest), ?_, ?_⟩
    · simp only [List.singleton_append, List.map_cons, htimes, hts, hts₁, hadd]
      rfl
    · simp only [List.singleton_append, List.map_cons, hpayloads, hpayload, hpayload₁]

/-! ## The session -/

variable {onMessage : Message → UInt32 → UInt32} {s : SessionBase}

/-- `b` is a basic header of type `fmt` for the id `x`, in any of its forms. -/
def BasicHeader (fmt : UInt8) (x : UInt16) (b : Bytes) : Prop :=
  ∃ s, readFmtCsid { recvBuffer := b } = (.ok, s) ∧ s.fmt = fmt ∧ s.csid = x ∧ s.recvBuffer = []

theorem BasicHeader.read {fmt : UInt8} {b : Bytes} (h : BasicHeader fmt x b) {c : UInt32}
    (hs : s.AtBoundary c) (rest : Bytes) :
    (s.push (b ++ rest)).readBasicHeader = (.ok, s.withBasic fmt x rest) := by
  obtain ⟨s₁, hread, rfl, rfl, hbuf⟩ := h
  have hpush := readFmtCsid_push hread rest
  have hsame : (s.push (b ++ rest)).recvBuffer =
      (({ recvBuffer := b } : SessionBase).push rest).recvBuffer := by
    simp [push, hs.recvBuffer, DataBuffer.appendData]
  rw [readBasicHeader, if_neg (by simp [push, hs.fmtReady]), readFmtCsid_congr hpush hsame]
  simp [push, withBasic, hbuf, DataBuffer.appendData]

/-- The chunks that a session receives are those of stream `x`, in their order, and
chunks of streams with other keys, each of which is read to its end. -/
inductive Carries (onMessage : Message → UInt32 → UInt32) (x : UInt16) :
    SessionBase → List Bytes → List (UInt8 × Bytes) → Prop
  | done (s : SessionBase) : Carries onMessage x s [] []
  | own {s : SessionBase} {fmt : UInt8} {b bytes : Bytes} {rest : List Bytes}
      {chunks : List (UInt8 × Bytes)} : BasicHeader fmt x b →
      (∀ s' out, (s.push (b ++ bytes)).receiveTurn onMessage = .step s' out →
        Carries onMessage x s' rest chunks) →
      Carries onMessage x s ((b ++ bytes) :: rest) ((fmt, bytes) :: chunks)
  | other {s s' : SessionBase} {ch : Bytes} {rest : List Bytes} {chunks : List (UInt8 × Bytes)}
      {out : List Message} : (s.push ch).receiveTurn onMessage = .step s' out →
      s'.recvBuffer = [] → mapKey s'.csid ≠ mapKey x → Carries onMessage x s' rest chunks →
      Carries onMessage x s (ch :: rest) chunks

/-- What a turn leaves when it has read a chunk of stream `csid`. -/
theorem Between.turn {c size : UInt32} (hs : s.Between c) (fmt : UInt8) (csid : UInt16)
    {cs : ChunkStream} (hcs : cs.phase = .header) :
    ({ s.afterChunk fmt csid (keepStream cs) with chunkSize := size } : SessionBase).Between
      size := by
  have hafter : (s.afterChunk fmt csid (keepStream cs)).Between c :=
    hs.afterChunk (keepStream_phase hcs)
  exact ⟨⟨hs.recvBuffer, hs.fmtReady, rfl⟩, hafter.headers⟩

theorem messagesOn_handOver {cs : ChunkStream} (h : cs.csid = x) (out : List Message) :
    messagesOn x (handOver cs ++ out) = handOver cs ++ messagesOn x out := by
  have hall : messagesOn x (handOver cs) = handOver cs := by
    apply List.filter_eq_self.mpr
    intro m hm
    rw [csid_of_mem_handOver hm]
    simpa using h
  rw [messagesOn, List.filter_append]
  exact congrArg (· ++ _) hall

theorem messagesOn_handOver_of_ne {cs : ChunkStream} (h : cs.csid ≠ x) (out : List Message) :
    messagesOn x (handOver cs ++ out) = messagesOn x out := by
  have hnone : messagesOn x (handOver cs) = [] := by
    apply List.filter_eq_nil_iff.mpr
    intro m hm
    rw [csid_of_mem_handOver hm]
    simpa using h
  rw [messagesOn, List.filter_append]
  exact congrArg (· ++ _) hnone

/-- **Run.**  A session delivers on stream `x` what the stream makes of its chunks. -/
theorem Carries.messagesOn_eq {chunks : List Bytes} {own : List (UInt8 × Bytes)}
    (h : Carries onMessage x s chunks own) {c : UInt32} (hs : s.Between c) {cs cs' : ChunkStream}
    (hcs : s.csMap (mapKey x) = some cs) {msgs : List Message} (hreads : Reads x cs own cs' msgs) :
    messagesOn x ((chunkConsumer onMessage).consume (s.push chunks.flatten)).2 = msgs := by
  induction h generalizing c cs msgs with
  | done s =>
    cases hreads
    rw [List.flatten_nil, hs.toAtBoundary.consume_push_nil]
    rfl
  | @own s fmt b bytes rest chunks hb hrest ih =>
    cases hreads with
    | @cons _ cs₁ _ _ _ _ out hread hreads =>
      have hturn := receiveTurn_chunkRead onMessage hs.toAtBoundary (hb.read hs.toAtBoundary bytes)
        (by rw [hcs]; exact hread)
      obtain ⟨hid, hphase⟩ := readMessage_ok (hs.headers _ cs hcs) hread
      have hnext := ih _ _ hturn (hs.turn fmt x hphase) (by simp [afterChunk]) hreads
      rw [List.flatten_cons, ← push_push, consume_push_of_step onMessage hturn]
      simp only [messagesOn_handOver hid, hnext]
  | @other s s' ch rest chunks out hturn hbuf hkey hrest ih =>
    obtain ⟨fmt, bytes, cs₁, hbasic, hread, hid, hphase⟩ := exists_of_turn_chunk hs hturn hbuf
    have hexact := receiveTurn_chunkRead onMessage hs.toAtBoundary (hbasic s hs.toAtBoundary) hread
    have hself := hturn.symm.trans hexact
    rw [Turn.step.injEq] at hself
    have hne : cs₁.csid ≠ x := by
      intro heq
      rw [← hid, heq] at hkey
      exact hkey rfl
    have hbetween : s'.Between s'.chunkSize := by
      rw [hself.1]
      exact hs.turn fmt _ hphase
    have hcs' : s'.csMap (mapKey x) = some cs := by
      rw [hself.1]
      show Function.update s.csMap (mapKey s'.csid) (some (keepStream cs₁)) (mapKey x) = some cs
      rw [Function.update_of_ne (Ne.symm hkey), hcs]
    have hnext := ih hbetween hcs' hreads
    rw [List.flatten_cons, ← push_push, consume_push_of_step onMessage hturn, hself.2]
    simp only [messagesOn_handOver_of_ne hne, hnext]

/-! ## The rule -/

/-- A list that repeats one value against the values of a function. -/
theorem cons_replicate_eq_iff {α : Type} (f : Nat → α) (v : α) (k : Nat) :
    f 0 :: List.replicate k v = (List.range (k + 1)).map f ↔ ∀ j < k, v = f (j + 1) := by
  rw [List.range_succ_eq_map, List.map_cons, List.map_map, List.cons.injEq]
  constructor
  · rintro ⟨-, h⟩ j hj
    have hget := congrArg (·[j]?) h
    simpa [List.getElem?_replicate, hj] using hget
  · intro h
    refine ⟨rfl, (List.eq_replicate_iff.mpr ⟨by simp, ?_⟩).symm⟩
    intro v' hv'
    obtain ⟨j, hj, rfl⟩ := List.mem_map.mp hv'
    exact (h j (List.mem_range.mp hj)).symm

/-- The timestamps of the code against those of the rule. -/
theorem rule_times_iff {t d : UInt32} (hd : d < 0xffffff) {k : Nat} (hk : 0 < k) (fits : Prop)
    [Decidable fits] :
    (t + d) :: List.replicate k (if fits then t + d + d else t + d) =
        (List.range (k + 1)).map (fun j => t + UInt32.ofNat (j + 1) * d) ↔
      d = 0 ∨ (k = 1 ∧ fits) := by
  have hlt : d.toNat < 0xffffff := UInt32.lt_iff_toNat_lt.mp hd
  have ht := t.toNat_lt
  have hone : t + d = t + UInt32.ofNat (0 + 1) * d := by simp
  have hiff := cons_replicate_eq_iff (fun j => t + UInt32.ofNat (j + 1) * d)
    (if fits then t + d + d else t + d) k
  simp only [← hone] at hiff
  rw [hiff]
  -- the second and the third multiple
  have hsecond : (t + UInt32.ofNat (0 + 1 + 1) * d).toNat = (t.toNat + 2 * d.toNat) % 2 ^ 32 := by
    simp only [UInt32.toNat_add, UInt32.toNat_mul, UInt32.toNat_ofNat']
    omega
  have hthird : (t + UInt32.ofNat (1 + 1 + 1) * d).toNat = (t.toNat + 3 * d.toNat) % 2 ^ 32 := by
    simp only [UInt32.toNat_add, UInt32.toNat_mul, UInt32.toNat_ofNat']
    omega
  have hzero : d.toNat = 0 → d = 0 := fun h => UInt32.toNat_inj.mp h
  constructor
  · intro h
    by_cases hfits : fits
    · by_cases hk1 : k = 1
      · exact Or.inr ⟨hk1, hfits⟩
      · left
        have hnext := congrArg UInt32.toNat (h 1 (by omega))
        rw [if_pos hfits, hthird, UInt32.toNat_add, UInt32.toNat_add] at hnext
        apply hzero
        omega
    · left
      have hnext := congrArg UInt32.toNat (h 0 hk)
      rw [if_neg hfits, hsecond, UInt32.toNat_add] at hnext
      apply hzero
      omega
  · rintro (rfl | ⟨rfl, hfits⟩) j hj
    · simp
    · have hj0 : j = 0 := by omega
      rw [hj0, if_pos hfits]
      apply UInt32.toNat_inj.mp
      rw [hsecond, UInt32.toNat_add, UInt32.toNat_add]
      omega

/-- **The rule of the differences.**  A message with timestamp `t` is followed on its
chunk stream by a message with a header of type 1 or 2 and the difference `d`, and then
by messages with headers of type 3.  Their timestamps are those of the rule if and only
if the difference is zero, or there is one such message and the message before it has
one chunk. -/
theorem delta_rule_iff (hs : s.Between s.chunkSize) {cs : ChunkStream}
    (hcs : s.csMap (mapKey x) = some cs) {t d : UInt32} (hrests : cs.Rests t) (hd : d < 0xffffff)
    {fmt : UInt8} (hfmt : Announces fmt len cs) (typeId : UInt8)
    (first : Body cs.chunkSize.toNat len) {others : List (Body cs.chunkSize.toNat len)}
    (hne : others ≠ []) {chunks : List Bytes}
    (hcarries : Carries onMessage x s chunks (ruleChunks fmt d typeId first others)) :
    (messagesOn x (s.receive onMessage chunks.flatten).2).map (·.payload) =
        first.payload :: others.map (·.payload) ∧
      ((messagesOn x (s.receive onMessage chunks.flatten).2).map (·.timestamp) =
          (List.range (others.length + 1)).map (fun j => t + UInt32.ofNat (j + 1) * d) ↔
        d = 0 ∨ (others.length = 1 ∧ len ≤ cs.chunkSize.toNat)) := by
  obtain ⟨cs', msgs, hreads, htimes, hpayloads⟩ := reads_rule hrests hd hfmt typeId first others
  rw [receive_eq_consume, hcarries.messagesOn_eq hs hcs hreads]
  refine ⟨hpayloads, ?_⟩
  rw [htimes]
  exact rule_times_iff hd (List.length_pos_iff.mpr hne) _

/-- The chunks of one stream alone. -/
theorem carries_own {head : UInt8 → Bytes} {own : List (UInt8 × Bytes)}
    (h : ∀ ch ∈ own, BasicHeader ch.1 x (head ch.1)) (s : SessionBase) :
    Carries onMessage x s (own.map fun ch => head ch.1 ++ ch.2) own := by
  induction own generalizing s with
  | nil => exact Carries.done s
  | cons ch own ih =>
    refine Carries.own (h ch List.mem_cons_self) ?_
    intro s' out _
    exact ih (fun ch' hch' => h ch' (List.mem_cons_of_mem _ hch')) s'

/-- What chunk stream 4 keeps of a message of two bytes with timestamp 1000. -/
def restingStream : ChunkStream :=
  { ChunkStream.new 0 4 128 with timestamp32 := 1000, msgLen := 2, typeId := 8, msgCount := 1 }

/-- The two bytes of such a message, in one piece. -/
def twoBytes : Body restingStream.chunkSize.toNat 2 where
  payload := [1, 2]
  parts := [[1, 2]]
  length_eq := rfl
  cut := Cut.last (by decide)

/-- A message with the difference 20, and one with a header of type 3. -/
theorem delta_rule_iff_two :
    (messagesOn 4 ((({} : SessionBase).afterChunk 0 4 restingStream).receive keepChunkSize
      [[0x44, 0, 0, 20, 0, 0, 2, 8, 1, 2], [0xc4, 1, 2]].flatten).2).map (·.timestamp) =
        (List.range 2).map fun j => 1000 + UInt32.ofNat (j + 1) * 20 := by
  have hstart : ({} : SessionBase).Between 128 := ⟨⟨rfl, rfl, rfl⟩, fun k cs hk => by cases hk⟩
  have hbetween : (({} : SessionBase).afterChunk 0 4 restingStream).Between 128 :=
    hstart.afterChunk rfl
  have hheaders : ∀ ch ∈ ruleChunks 1 20 8 twoBytes [twoBytes],
      BasicHeader ch.1 4 (basicHeader ch.1 4) := by
    intro ch hch
    simp only [ruleChunks, messageChunks, twoBytes, List.flatMap_cons, List.flatMap_nil,
      List.map_nil, List.append_nil, List.singleton_append, List.mem_cons, List.not_mem_nil,
      or_false] at hch
    rcases hch with rfl | rfl
    · exact ⟨_, rfl, rfl, rfl, rfl⟩
    · exact ⟨_, rfl, rfl, rfl, rfl⟩
  have hstream : (({} : SessionBase).afterChunk 0 4 restingStream).csMap (mapKey 4) =
      some restingStream := rfl
  have hcarries := @carries_own 4 keepChunkSize (fun fmt => basicHeader fmt 4) _ hheaders
    (({} : SessionBase).afterChunk 0 4 restingStream)
  have hrule := delta_rule_iff hbetween hstream (t := 1000) (d := 20)
    ⟨rfl, rfl, rfl, rfl, rfl, rfl⟩ (by decide) (Or.inl ⟨rfl, by decide⟩) 8 twoBytes
    (List.cons_ne_nil twoBytes []) hcarries
  exact hrule.2.mpr (Or.inr ⟨rfl, by decide⟩)

/-- After a message with timestamp 1000, one with the difference 20 and two with headers
of type 3.  The last one repeats the timestamp of the one before it. -/
theorem delta_rule_fails :
    ∃ msgs, messagesOn 4 (({} : SessionBase).receive keepChunkSize
        ([0x04, 0, 3, 232, 0, 0, 1, 8, 0, 0, 0, 0, 9] ++ [0x44, 0, 0, 20, 0, 0, 1, 8, 9] ++
          [0xc4, 9] ++ [0xc4, 9])).2 = msgs ∧
      msgs.map (·.timestamp) = [1000, 1020, 1040, 1040] ∧
      msgs.map (·.timestamp) ≠
        1000 :: (List.range 3).map fun j => 1000 + UInt32.ofNat (j + 1) * 20 := by
  refine ⟨_, rfl, ?_, ?_⟩
  · decide +kernel
  · decide +kernel

end SessionBase

end MediaServer
