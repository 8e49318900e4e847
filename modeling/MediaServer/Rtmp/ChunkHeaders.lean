import MediaServer.Rtmp.SessionRuns

/-!
# What a message header leaves in its chunk stream

`read_msg_format0`, `1` and `2` start a message, and each of them keeps
something of what was there before.

* None of them clears `chunk_data_ptr_`, which `read_msg_format3` and `reset`
  do.  A header that arrives when part of a message is there puts the new
  payload behind the old one.  `Session.length_respected_iff` says that a
  message has the length of its header exactly when none of its headers arrived
  like that, and `Session.length_of_uninterrupted` that all messages of a run
  have it in which no such header is read.
* None of them clears `ext_ts_flag_`.  `Session.flag_follows_iff` says that the
  flag tells the last header in all states of a run if and only if no header
  without an extended timestamp arrives where the flag is set.
-/

namespace MediaServer

namespace ChunkStream

/-! ## The header formats -/

/-- The header of this type has fields of its own. -/
def isFull (fmt : UInt8) : Bool := fmt = 0 || fmt = 1 || fmt = 2

/-- The length of a header of type 0, 1 or 2 without an extended timestamp. -/
def fullHeaderLen (fmt : UInt8) : Nat :=
  if fmt = 0 then FORMAT0_HEADER_LEN
  else if fmt = 1 then FORMAT1_HEADER_LEN
  else FORMAT2_HEADER_LEN

/-- All of a header of type 0, 1 or 2 is there, its extended timestamp included. -/
def headerThere (fmt : UInt8) (buffer : DataBuffer) : Bool :=
  fullHeaderLen fmt + (if read3bytes buffer = 0xffffff then EXT_TS_LEN else 0) ≤ buffer.length

/-- What the fields of a header leave alone, and the length that they set. -/
structure Starts (fields : Bytes → UInt32 → ChunkStream → ChunkStream) : Prop where
  chunkData : ∀ p ts cs, (fields p ts cs).chunkData = cs.chunkData
  chunkReady : ∀ p ts cs, (fields p ts cs).chunkReady = cs.chunkReady
  extTsFlag : ∀ p ts cs, (fields p ts cs).extTsFlag = cs.extTsFlag
  remain : ∀ p ts cs, (fields p ts cs).remain = (fields p ts cs).msgLen.toNat

/-- The three formats with fields are one reader. -/
theorem readMsgHeader_of_isFull {fmt : UInt8} (hfmt : isFull fmt = true) :
    ∃ fields, Starts fields ∧ ∀ cs buffer csid, readMsgHeader cs buffer fmt csid =
      readMsgFormat (fullHeaderLen fmt) fields cs buffer fmt csid := by
  simp only [isFull, Bool.or_eq_true, decide_eq_true_eq] at hfmt
  rcases hfmt with (rfl | rfl) | rfl
  · refine ⟨_, ?_, fun cs buffer csid => show readMsgFormat0 cs buffer 0 csid = _ from rfl⟩
    constructor <;> intros <;> rfl
  · refine ⟨_, ?_, fun cs buffer csid => show readMsgFormat1 cs buffer 1 csid = _ from rfl⟩
    constructor <;> intros <;> rfl
  · refine ⟨_, ?_, fun cs buffer csid => show readMsgFormat2 cs buffer 2 csid = _ from rfl⟩
    constructor <;> intros <;> rfl

/-- A header of another type is of type 3, or nothing is read at all. -/
theorem readMsgHeader_of_not_isFull {fmt : UInt8} (hfmt : isFull fmt = false) (cs : ChunkStream)
    (buffer : DataBuffer) (csid : UInt16) :
    cs.readMsgHeader buffer fmt csid =
      if fmt = 3 then cs.readMsgFormat3 buffer fmt csid else (.error, cs, buffer) := by
  simp only [isFull, Bool.or_eq_false_iff, decide_eq_false_iff_not] at hfmt
  obtain ⟨⟨h0, h1⟩, h2⟩ := hfmt
  rw [readMsgHeader, if_neg h0, if_neg h1, if_neg h2]

/-- What reading a message header does to its chunk stream. -/
inductive HeaderCase (cs : ChunkStream) (buffer : DataBuffer) (fmt : UInt8) (csid : UInt16) :
    RtmpRet → ChunkStream → Prop
  | waits (ret : RtmpRet) (hret : ret ≠ .ok)
    (hshort : isFull fmt = true → buffer.length < fullHeaderLen fmt) :
    HeaderCase cs buffer fmt csid ret cs
  | awaitsTimestamp (hfull : isFull fmt = true) (hlen : fullHeaderLen fmt ≤ buffer.length)
    (hfield : read3bytes buffer = 0xffffff) (hshort : headerThere fmt buffer = false) :
    HeaderCase cs buffer fmt csid .needReadMore
      { cs with fmt := fmt, csid := csid, extTsFlag := true }
  | starts (hfull : isFull fmt = true) (hthere : headerThere fmt buffer = true)
    (fields : Bytes → UInt32 → ChunkStream → ChunkStream) (hfields : Starts fields) (p : Bytes)
    (ts : UInt32) (flag : Bool) (hflag : flag = (cs.extTsFlag || read3bytes buffer = 0xffffff)) :
    HeaderCase cs buffer fmt csid .ok
      (fields p ts { cs with fmt := fmt, csid := csid, extTsFlag := flag })
  | startsAgain (hfull : isFull fmt = false) (hremain : cs.remain = 0) (ts : UInt32) :
    HeaderCase cs buffer fmt csid .ok
      { cs with
        timestamp32 := ts, chunkAll := [], chunkData := [], remain := cs.msgLen.toNat
        chunkReady := false, fmt := fmt, csid := csid }
  | goesOn (hfull : isFull fmt = false) (hremain : cs.remain ≠ 0) :
    HeaderCase cs buffer fmt csid .ok { cs with fmt := fmt, csid := csid }

/-- The readers of the formats 0, 1 and 2. -/
theorem headerCase_of_isFull {cs cs' : ChunkStream} {buffer buffer' : DataBuffer} {fmt : UInt8}
    {csid : UInt16} {ret : RtmpRet} (hfull : isFull fmt = true)
    (hr : cs.readMsgHeader buffer fmt csid = (ret, cs', buffer')) :
    HeaderCase cs buffer fmt csid ret cs' := by
  obtain ⟨fields, hfields, heq⟩ := readMsgHeader_of_isFull hfull
  have hlen : 3 ≤ fullHeaderLen fmt := by
    unfold fullHeaderLen
    split_ifs <;> decide
  have hfield : read3bytes (buffer.take (fullHeaderLen fmt)) = read3bytes buffer := by
    rw [read3bytes, List.take_take, Nat.min_eq_left hlen, read3bytes]
  have hle := read3bytes_le buffer
  rw [heq, readMsgFormat_eq, hfield] at hr
  split_ifs at hr with hshort hts hext
  · cases hr
    exact HeaderCase.waits _ (by simp) (fun _ => hshort)
  · cases hr
    have hfield : read3bytes buffer = 0xffffff := UInt32.le_antisymm hle hts
    exact HeaderCase.awaitsTimestamp hfull (Nat.le_of_not_lt hshort) hfield
      (by simp [headerThere, hfield, hext])
  · cases hr
    have hthere : headerThere fmt buffer = true := by
      simp [headerThere, UInt32.le_antisymm hle hts, Nat.le_of_not_lt hext]
    apply HeaderCase.starts hfull hthere fields hfields
    rw [UInt32.le_antisymm hle hts]
    simp
  · cases hr
    have hne : read3bytes buffer ≠ 0xffffff := by
      intro heq
      apply hts
      rw [heq]
      exact UInt32.le_refl _
    have hthere : headerThere fmt buffer = true := by
      simp [headerThere, hne, Nat.le_of_not_lt hshort]
    apply HeaderCase.starts hfull hthere fields hfields _ _ cs.extTsFlag
    simp [hne]

/-- The reader of format 3, and none. -/
theorem headerCase_of_not_isFull {cs cs' : ChunkStream} {buffer buffer' : DataBuffer} {fmt : UInt8}
    {csid : UInt16} {ret : RtmpRet} (hfull : isFull fmt = false)
    (hr : cs.readMsgHeader buffer fmt csid = (ret, cs', buffer')) :
    HeaderCase cs buffer fmt csid ret cs' := by
  have hshort : isFull fmt = true → buffer.length < fullHeaderLen fmt := by simp [hfull]
  rw [readMsgHeader_of_not_isFull hfull] at hr
  unfold readMsgFormat3 at hr
  split_ifs at hr with hfmt hremain
  · rcases hts : cs.readNewTimestamp buffer with _ | ⟨ts, rest⟩
    · simp only [hts] at hr
      cases hr
      exact HeaderCase.waits _ (by simp) hshort
    · simp only [hts] at hr
      cases hr
      exact HeaderCase.startsAgain hfull hremain ts
  · rcases hskip : cs.skipTimestamp buffer with _ | rest
    · simp only [hskip] at hr
      cases hr
      exact HeaderCase.waits _ (by simp) hshort
    · simp only [hskip] at hr
      cases hr
      exact HeaderCase.goesOn hfull hremain
  · cases hr
    exact HeaderCase.waits _ (by simp) hshort

theorem readMsgHeader_case {cs cs' : ChunkStream} {buffer buffer' : DataBuffer} {fmt : UInt8}
    {csid : UInt16} {ret : RtmpRet} (hr : cs.readMsgHeader buffer fmt csid = (ret, cs', buffer')) :
    HeaderCase cs buffer fmt csid ret cs' := by
  cases hfull : isFull fmt with
  | true => exact headerCase_of_isFull hfull hr
  | false => exact headerCase_of_not_isFull hfull hr

/-! ## The length of a message -/

/-- What is there of a message and what is missing make up the length of its
header.  Between two messages nothing is there. -/
structure Whole (cs : ChunkStream) : Prop where
  notReady : cs.chunkReady = false
  filled : cs.chunkData.length + cs.remain = cs.msgLen.toNat ∨
    (cs.phase = .header ∧ cs.remain = 0 ∧ cs.chunkData = [])

theorem whole_new (fmt : UInt8) (csid : UInt16) (chunkSize : UInt32) :
    (ChunkStream.new fmt csid chunkSize).Whole :=
  ⟨rfl, Or.inr ⟨rfl, rfl, rfl⟩⟩

/-- The stream of a complete message, when the message was handed over. -/
theorem whole_reset {cs : ChunkStream} (h : cs.remain = 0) : cs.reset.Whole :=
  ⟨rfl, Or.inr ⟨rfl, h, rfl⟩⟩

/-- A header starts a message, or goes on with one, or waits. -/
theorem Whole.readMsgHeader {cs cs' : ChunkStream} {buffer buffer' : DataBuffer} {fmt : UInt8}
    {csid : UInt16} {ret : RtmpRet} (h : cs.Whole)
    (hdata : isFull fmt = true → headerThere fmt buffer = true → cs.chunkData = [])
    (hr : cs.readMsgHeader buffer fmt csid = (ret, cs', buffer')) :
    cs'.Whole ∧ (ret = .ok → cs'.chunkData.length + cs'.remain = cs'.msgLen.toNat) := by
  cases readMsgHeader_case hr with
  | waits _ hret _ => exact ⟨h, fun hok => absurd hok hret⟩
  | awaitsTimestamp => exact ⟨⟨h.notReady, h.filled⟩, by simp⟩
  | starts hfull hthere fields hfields p ts flag =>
    generalize hcs₁ : ({ cs with fmt := fmt, csid := csid, extTsFlag := flag } : ChunkStream) = cs₁
    -- the message starts with no payload and with its whole length missing
    have hsum : (fields p ts cs₁).chunkData.length + (fields p ts cs₁).remain =
        (fields p ts cs₁).msgLen.toNat := by
      rw [hfields.chunkData, ← hcs₁, hdata hfull hthere, hfields.remain, List.length_nil, Nat.zero_add]
    refine ⟨⟨?_, Or.inl hsum⟩, fun _ => hsum⟩
    rw [hfields.chunkReady, ← hcs₁]
    exact h.notReady
  | startsAgain =>
    have hsum : 0 + cs.msgLen.toNat = cs.msgLen.toNat := by omega
    exact ⟨⟨rfl, Or.inl hsum⟩, fun _ => hsum⟩
  | goesOn _ hremain =>
    have hsum : cs.chunkData.length + cs.remain = cs.msgLen.toNat := by
      rcases h.filled with hsum | ⟨-, hzero, -⟩
      · exact hsum
      · exact absurd hzero hremain
    exact ⟨⟨h.notReady, Or.inl hsum⟩, fun _ => hsum⟩

/-- The payload of a chunk moves from what is missing to what is there. -/
theorem readMessagePayload_length {cs cs' : ChunkStream} {buffer buffer' : DataBuffer}
    {ret : RtmpRet} (hphase : cs.phase = .payload)
    (hr : cs.readMessagePayload buffer = (ret, cs', buffer')) :
    cs'.chunkData.length + cs'.remain = cs.chunkData.length + cs.remain ∧
      cs'.msgLen = cs.msgLen ∧ cs.chunkData <+: cs'.chunkData := by
  rw [readMessagePayload_eq hphase] at hr
  split_ifs at hr with hlen
  · cases hr
    exact ⟨rfl, rfl, List.prefix_refl _⟩
  · cases hr
    have hle : cs.payloadLen ≤ cs.remain := by
      unfold payloadLen
      split_ifs <;> omega
    have htake : (buffer.take cs.payloadLen).length = cs.payloadLen := by
      rw [List.length_take]
      omega
    refine ⟨?_, rfl, List.prefix_append _ _⟩
    show (cs.chunkData ++ buffer.take cs.payloadLen).length + (cs.remain - cs.payloadLen) =
      cs.chunkData.length + cs.remain
    rw [List.length_append, htake]
    omega

/-- A message becomes ready with a payload that leaves nothing missing. -/
theorem readMessagePayload_ready {cs cs' : ChunkStream} {buffer buffer' : DataBuffer}
    {ret : RtmpRet} (hphase : cs.phase = .payload) (hready : cs.chunkReady = false)
    (hr : cs.readMessagePayload buffer = (ret, cs', buffer')) (hdone : cs'.chunkReady = true) :
    cs'.remain = 0 ∧ ret = .ok := by
  rw [readMessagePayload_eq hphase] at hr
  split_ifs at hr with hlen
  · cases hr
    rw [hready] at hdone
    cases hdone
  · cases hr
    refine ⟨?_, rfl⟩
    replace hdone : (if cs.remain - cs.payloadLen = 0 then true else cs.chunkReady) = true := hdone
    rw [hready] at hdone
    show cs.remain - cs.payloadLen = 0
    simpa using hdone

/-- A message whose header arrived where payload bytes of another one were: what is
there and what is missing make up more than the length of the header. -/
structure Excess (cs : ChunkStream) : Prop where
  notReady : cs.chunkReady = false
  data : cs.chunkData ≠ []
  tooMuch : cs.msgLen.toNat < cs.chunkData.length + cs.remain
  started : cs.phase = .header → cs.remain ≠ 0

/-- A header that arrives inside a message leaves the payload where it is, and no
later header of the message changes that. -/
theorem excess_readMsgHeader {cs cs' : ChunkStream} {buffer buffer' : DataBuffer} {fmt : UInt8}
    {csid : UInt16} {ret : RtmpRet} (hphase : cs.phase = .header) (hready : cs.chunkReady = false)
    (hdata : cs.chunkData ≠ [])
    (h : cs.Excess ∨ (isFull fmt = true ∧ headerThere fmt buffer = true))
    (hr : cs.readMsgHeader buffer fmt csid = (ret, cs', buffer')) :
    (ret = .ok → ({ cs' with phase := .payload } : ChunkStream).Excess) ∧
      (ret ≠ .ok → cs'.Excess) := by
  cases readMsgHeader_case hr with
  | waits _ hret hshort =>
    refine ⟨fun hok => absurd hok hret, fun _ => ?_⟩
    rcases h with h | ⟨hfull, hthere⟩
    · exact h
    · have hlen := hshort hfull
      simp only [headerThere, decide_eq_true_eq] at hthere
      omega
  | awaitsTimestamp _ _ _ hshort =>
    refine ⟨by simp, fun _ => ?_⟩
    rcases h with h | ⟨-, hthere⟩
    · exact ⟨h.notReady, h.data, h.tooMuch, h.started⟩
    · rw [hshort] at hthere
      cases hthere
  | starts _ _ fields hfields p ts flag =>
    refine ⟨fun _ => ⟨?_, ?_, ?_, by simp⟩, by simp⟩
    · simpa only [hfields.chunkReady] using hready
    · simpa only [hfields.chunkData] using hdata
    · have hpos : 0 < cs.chunkData.length := List.length_pos_iff.mpr hdata
      simp only [hfields.chunkData, hfields.remain]
      omega
  | startsAgain hfull hremain =>
    rcases h with h | ⟨hfull', -⟩
    · exact absurd hremain (h.started hphase)
    · rw [hfull] at hfull'
      cases hfull'
  | goesOn hfull _ =>
    refine ⟨fun _ => ?_, by simp⟩
    rcases h with h | ⟨hfull', -⟩
    · exact ⟨h.notReady, h.data, h.tooMuch, by simp⟩
    · rw [hfull] at hfull'
      cases hfull'

/-- The message is complete with more bytes than its header says, or goes on. -/
theorem Excess.readMessagePayload {cs cs' : ChunkStream} {buffer buffer' : DataBuffer}
    {ret : RtmpRet} (h : cs.Excess) (hphase : cs.phase = .payload)
    (hr : cs.readMessagePayload buffer = (ret, cs', buffer')) :
    (cs'.chunkReady = true →
      cs'.msgLen.toNat < cs'.chunkData.length ∧ cs'.remain = 0 ∧ ret = .ok) ∧
      (cs'.chunkReady = false → cs'.Excess) := by
  obtain ⟨hsum, hmsg, hprefix⟩ := readMessagePayload_length hphase hr
  have hmuch : cs'.msgLen.toNat < cs'.chunkData.length + cs'.remain := by
    rw [hsum, hmsg]
    exact h.tooMuch
  constructor
  · intro hyes
    obtain ⟨hzero, hret⟩ := readMessagePayload_ready hphase h.notReady hr hyes
    exact ⟨by omega, hzero, hret⟩
  · intro hno
    refine ⟨hno, ?_, hmuch, ?_⟩
    · intro hnil
      rw [hnil, List.prefix_nil] at hprefix
      exact h.data hprefix
    · intro hheader hzero
      rw [readMessagePayload_eq hphase] at hr
      split_ifs at hr with hlen
      · cases hr
        rw [show cs.phase = .header from hheader] at hphase
        cases hphase
      · cases hr
        replace hno : (if cs.remain - cs.payloadLen = 0 then true else cs.chunkReady) = false := hno
        replace hzero : cs.remain - cs.payloadLen = 0 := hzero
        rw [if_pos hzero] at hno
        cases hno

end ChunkStream

namespace SessionBase

/-- The header of type 0, 1 or 2 that is next is all there, and belongs to a chunk
stream that holds part of a message. -/
def interrupts (s : SessionBase) : Bool :=
  match s.atMessage with
  | some s₁ =>
    ChunkStream.isFull s₁.fmt && s₁.currentStream.phase = .header &&
      ChunkStream.headerThere s₁.fmt s₁.recvBuffer && s₁.currentStream.chunkData ≠ []
  | none => false

/-- One chunk: a message that is complete has the length of its header. -/
theorem readMessage_whole {fmt : UInt8} {csid : UInt16} {cs cs' : ChunkStream}
    {buffer buffer' : DataBuffer} {ret : RtmpRet} (h : cs.Whole)
    (hdata : ChunkStream.isFull fmt = true → cs.phase = .header →
      ChunkStream.headerThere fmt buffer = true → cs.chunkData = [])
    (hr : readMessage fmt csid cs buffer = (ret, cs', buffer')) :
    (cs'.chunkReady = true →
      cs'.chunkData.length = cs'.msgLen.toNat ∧ cs'.remain = 0 ∧ ret = .ok) ∧
      (cs'.chunkReady = false → cs'.Whole) := by
  -- the payload, once the header is there
  have hpayload : ∀ (cs : ChunkStream) (buffer : DataBuffer), cs.phase = .payload →
      cs.chunkReady = false → cs.chunkData.length + cs.remain = cs.msgLen.toNat →
      cs.readMessagePayload buffer = (ret, cs', buffer') →
      (cs'.chunkReady = true →
        cs'.chunkData.length = cs'.msgLen.toNat ∧ cs'.remain = 0 ∧ ret = .ok) ∧
        (cs'.chunkReady = false → cs'.Whole) := by
    intro cs buffer hphase hready hsum hp
    have hsum' : cs'.chunkData.length + cs'.remain = cs'.msgLen.toNat := by
      obtain ⟨hsame, hmsg, -⟩ := ChunkStream.readMessagePayload_length hphase hp
      rw [hsame, hmsg, hsum]
    refine ⟨?_, fun hno => ⟨hno, Or.inl hsum'⟩⟩
    intro hyes
    obtain ⟨hzero, hret⟩ := ChunkStream.readMessagePayload_ready hphase hready hp hyes
    exact ⟨by omega, hzero, hret⟩
  rcases readMessage_cases hr with ⟨hp, hr⟩ | ⟨hphase, cs₁, buffer₁, hh, hr⟩ | ⟨hphase, -, hh⟩
  · refine hpayload cs buffer hp h.notReady ?_ hr
    rcases h.filled with hsum | ⟨hheader, -⟩
    · exact hsum
    · rw [hp] at hheader
      cases hheader
  · obtain ⟨hwhole, hsum⟩ := h.readMsgHeader (fun hfull => hdata hfull hphase) hh
    exact hpayload { cs₁ with phase := .payload } buffer₁ rfl hwhole.notReady (hsum rfl) hr
  · obtain ⟨hwhole, -⟩ := h.readMsgHeader (fun hfull => hdata hfull hphase) hh
    exact ⟨by simp [hwhole.notReady], fun _ => hwhole⟩

/-- One chunk of a message whose header arrived inside another one. -/
theorem readMessage_excess {fmt : UInt8} {csid : UInt16} {cs cs' : ChunkStream}
    {buffer buffer' : DataBuffer} {ret : RtmpRet} (hready : cs.chunkReady = false)
    (hdata : cs.chunkData ≠ [])
    (h : cs.Excess ∨ (cs.phase = .header ∧ ChunkStream.isFull fmt = true ∧
      ChunkStream.headerThere fmt buffer = true))
    (hr : readMessage fmt csid cs buffer = (ret, cs', buffer')) :
    (cs'.chunkReady = true →
      cs'.msgLen.toNat < cs'.chunkData.length ∧ cs'.remain = 0 ∧ ret = .ok) ∧
      (cs'.chunkReady = false → cs'.Excess) := by
  rcases readMessage_cases hr with ⟨hp, hr⟩ | ⟨hphase, cs₁, buffer₁, hh, hr⟩ | ⟨hphase, hne, hh⟩
  · rcases h with h | ⟨hheader, -⟩
    · exact h.readMessagePayload hp hr
    · rw [hp] at hheader
      cases hheader
  · have hexcess := (ChunkStream.excess_readMsgHeader hphase hready hdata (h.imp_right And.right)
      hh).1 rfl
    exact hexcess.readMessagePayload rfl hr
  · have hexcess := (ChunkStream.excess_readMsgHeader hphase hready hdata (h.imp_right And.right)
      hh).2 hne
    exact ⟨by simp [hexcess.notReady], fun _ => hexcess⟩

/-- The next read completes a message exactly when its chunk makes the stream ready. -/
theorem nextMessage_isNone {s s₁ : SessionBase} (hat : s.atMessage = some s₁) {ret : RtmpRet}
    {cs : ChunkStream} {buffer : DataBuffer}
    (hr : readMessage s₁.fmt s₁.csid s₁.currentStream s₁.recvBuffer = (ret, cs, buffer)) :
    s.nextMessage.isNone = !(decide (ret = .ok) && cs.chunkReady) := by
  rcases hread : s.readChunkStream with ⟨ret', base⟩
  rcases (readChunkStream_cases hread).2 with ⟨hno, -⟩ | ⟨s₂, cs₂, buffer₂, hat₂, hm, -, -, hcur⟩
  · rw [hat] at hno
    cases hno
  · rw [hat, Option.some.injEq] at hat₂
    subst hat₂
    rw [hr, Prod.mk.injEq, Prod.mk.injEq] at hm
    obtain ⟨rfl, rfl, -⟩ := hm
    rw [nextMessage, hread]
    cases ret with
    | ok =>
      simp only [hcur, ChunkStream.isReady]
      rcases cs.chunkReady with _ | _
      · rfl
      · rfl
    | _ => rfl

end SessionBase

namespace Session

/-- The message that the pass completes, if it completes one, has the length of its
header. -/
def lengthRespected : Act → Session → Bool
  | .pass _, s =>
    match s.base.readChunkStream with
    | (.ok, base) =>
      !base.currentStream.isReady ||
        base.currentStream.chunkData.dataLen = base.currentStream.msgLen.toNat
    | _ => true
  | _, _ => true

/-- No header of type 0, 1 or 2 arrives inside a message of its chunk stream. -/
def uninterrupted : Act → Session → Bool
  | .pass _, s => !s.base.interrupts
  | _, _ => true

/-- The chunk streams whose unfinished message has a header that arrived inside
another message. -/
def noteInterrupt : Act → Session → (UInt8 → Bool) → UInt8 → Bool
  | .pass _, s, interrupted =>
    match s.base.atMessage with
    | some s₁ =>
      Function.update interrupted (SessionBase.mapKey s₁.csid)
        ((interrupted (SessionBase.mapKey s₁.csid) || s.base.interrupts) &&
          s.base.nextMessage.isNone)
    | none => interrupted
  | _, _, interrupted => interrupted

/-- No header of the message that the pass completes, if it completes one, arrived
inside another message. -/
def intact : Act → (UInt8 → Bool) × Session → Bool
  | .pass _, t =>
    match t.2.base.atMessage with
    | some s₁ =>
      t.2.base.nextMessage.isNone ||
        !(t.1 (SessionBase.mapKey s₁.csid) || t.2.base.interrupts)
    | none => true
  | _, _ => true

/-- The pass completes no message, or one with the length of its header. -/
theorem lengthRespected_pass {after : Bytes} {s : Session} {s₁ : SessionBase}
    (hat : s.base.atMessage = some s₁) {ret : RtmpRet} {cs : ChunkStream} {buffer : DataBuffer}
    (hr : SessionBase.readMessage s₁.fmt s₁.csid s₁.currentStream s₁.recvBuffer =
      (ret, cs, buffer)) :
    lengthRespected (.pass after) s = true ↔
      s.base.nextMessage.isNone = true ∨ cs.chunkData.length = cs.msgLen.toNat := by
  rw [SessionBase.nextMessage_isNone hat hr, lengthRespected]
  rcases hread : s.base.readChunkStream with ⟨ret', base⟩
  rcases (SessionBase.readChunkStream_cases hread).2 with
    ⟨hno, -⟩ | ⟨s₂, cs₂, buffer₂, hat₂, hm, -, -, hcur⟩
  · rw [hat] at hno
    cases hno
  · rw [hat, Option.some.injEq] at hat₂
    subst hat₂
    rw [hr, Prod.mk.injEq, Prod.mk.injEq] at hm
    obtain ⟨rfl, rfl, -⟩ := hm
    cases ret with
    | ok => simp [hcur, ChunkStream.isReady, DataBuffer.dataLen]
    | _ => simp

theorem lengthRespected_of_atMessage_none {after : Bytes} {s : Session}
    (hat : s.base.atMessage = none) : lengthRespected (.pass after) s = true := by
  rw [lengthRespected]
  rcases hread : s.base.readChunkStream with ⟨ret, base⟩
  rcases (SessionBase.readChunkStream_cases hread).2 with ⟨-, hne, -⟩ | ⟨s₂, -, -, hat₂, -⟩
  · cases ret with
    | ok => exact absurd rfl hne
    | _ => rfl
  · rw [hat] at hat₂
    cases hat₂

/-- Every chunk stream is whole, or its unfinished message was interrupted and has too
much. -/
structure Lengths (t : (UInt8 → Bool) × Session) : Prop where
  whole : ∀ k cs, t.2.base.csMap k = some cs → t.1 k = false → cs.Whole
  excess : ∀ k cs, t.2.base.csMap k = some cs → t.1 k = true → cs.Excess
  known : ∀ k, t.2.base.csMap k = none → t.1 k = false

/-- The chunk stream that a pass reads from, before the pass. -/
theorem Lengths.currentStream {t : (UInt8 → Bool) × Session} (h : Lengths t) {s₁ : SessionBase}
    (hat : t.2.base.atMessage = some s₁) :
    (t.1 (SessionBase.mapKey s₁.csid) = false → s₁.currentStream.Whole) ∧
      (t.1 (SessionBase.mapKey s₁.csid) = true → s₁.currentStream.Excess) := by
  rw [SessionBase.currentStream, (SessionBase.atMessage_frame hat).1]
  rcases hk : t.2.base.csMap (SessionBase.mapKey s₁.csid) with _ | cs
  · refine ⟨fun _ => ChunkStream.whole_new _ _ _, fun hyes => ?_⟩
    rw [h.known _ hk] at hyes
    cases hyes
  · exact ⟨h.whole _ cs hk, h.excess _ cs hk⟩

/-- The chunk of a pass: its message is complete with the length of its header, or with
more when it was interrupted. -/
theorem Lengths.readMessage {t : (UInt8 → Bool) × Session} (h : Lengths t) {s₁ : SessionBase}
    (hat : t.2.base.atMessage = some s₁) {ret : RtmpRet} {cs : ChunkStream} {buffer : DataBuffer}
    (hr : SessionBase.readMessage s₁.fmt s₁.csid s₁.currentStream s₁.recvBuffer =
      (ret, cs, buffer)) :
    (cs.chunkReady = true → cs.remain = 0 ∧ ret = .ok) ∧
      ((t.1 (SessionBase.mapKey s₁.csid) || t.2.base.interrupts) = false →
        (cs.chunkReady = true → cs.chunkData.length = cs.msgLen.toNat) ∧
          (cs.chunkReady = false → cs.Whole)) ∧
      ((t.1 (SessionBase.mapKey s₁.csid) || t.2.base.interrupts) = true →
        (cs.chunkReady = true → cs.msgLen.toNat < cs.chunkData.length) ∧
          (cs.chunkReady = false → cs.Excess)) := by
  obtain ⟨hwhole, hexcess⟩ := h.currentStream hat
  rcases hcond : t.1 (SessionBase.mapKey s₁.csid) || t.2.base.interrupts with _ | _
  · rw [Bool.or_eq_false_iff] at hcond
    have hdata : ChunkStream.isFull s₁.fmt = true → s₁.currentStream.phase = .header →
        ChunkStream.headerThere s₁.fmt s₁.recvBuffer = true → s₁.currentStream.chunkData = [] := by
      intro hfull hphase hthere
      by_contra hne
      simp [SessionBase.interrupts, hat, hfull, hphase, hthere, hne] at hcond
    obtain ⟨hdone, hwait⟩ := SessionBase.readMessage_whole (hwhole hcond.1) hdata hr
    exact ⟨fun hyes => (hdone hyes).2, fun _ => ⟨fun hyes => (hdone hyes).1, hwait⟩, by simp⟩
  · -- the stream has too much already, or the header that is next interrupts its message
    have hread : (cs.chunkReady = true →
        cs.msgLen.toNat < cs.chunkData.length ∧ cs.remain = 0 ∧ ret = .ok) ∧
        (cs.chunkReady = false → cs.Excess) := by
      rcases hold : t.1 (SessionBase.mapKey s₁.csid) with _ | _
      · have hint : t.2.base.interrupts = true := by simpa [hold] using hcond
        simp only [SessionBase.interrupts, hat, Bool.and_eq_true, decide_eq_true_eq] at hint
        obtain ⟨⟨⟨hfull, hphase⟩, hthere⟩, hdata⟩ := hint
        exact SessionBase.readMessage_excess (hwhole hold).notReady hdata
          (Or.inr ⟨hphase, hfull, hthere⟩) hr
      · have hmuch := hexcess hold
        exact SessionBase.readMessage_excess hmuch.notReady hmuch.data (Or.inl hmuch) hr
    exact ⟨fun hyes => (hread.1 hyes).2, by simp,
      fun _ => ⟨fun hyes => (hread.1 hyes).1, hread.2⟩⟩

theorem Lengths.step {a : Act} {t t' : (UInt8 → Bool) × Session} (h : Lengths t)
    (hstep : Run.withGhost noteInterrupt step a t = .ok t') : Lengths t' := by
  obtain ⟨hs', hnote⟩ := Run.withGhost_ok.mp hstep
  rcases step_csMap hs' with ⟨hmap, hwait⟩ | ⟨after, s₁, r, cs, buffer, rfl, hat, hm, hmap⟩
  · have hsame : t'.1 = t.1 := by
      rw [hnote]
      cases a with
      | pass after => simp [noteInterrupt, hwait after rfl]
      | _ => rfl
    exact ⟨by rw [hmap, hsame]; exact h.whole, by rw [hmap, hsame]; exact h.excess,
      by rw [hmap, hsame]; exact h.known⟩
  obtain ⟨hready, hwhole, hexcess⟩ := h.readMessage hat hm
  have hnext := SessionBase.nextMessage_isNone hat hm
  simp only [noteInterrupt, hat] at hnote
  -- the stream that is filed, and what is noted of it
  have hfiled : ∀ cs', t'.2.base.csMap (SessionBase.mapKey s₁.csid) = some cs' →
      (t'.1 (SessionBase.mapKey s₁.csid) = false → cs'.Whole) ∧
        (t'.1 (SessionBase.mapKey s₁.csid) = true → cs'.Excess) := by
    intro cs' hk
    rw [hmap, Function.update_self, Option.some.injEq] at hk
    rw [hnote, Function.update_self, hnext, ← hk]
    rcases hcs : cs.chunkReady with _ | _
    · simp only [ChunkStream.isReady, hcs, Bool.false_eq_true, and_false, if_false,
        Bool.and_false, Bool.not_false, Bool.and_true]
      exact ⟨fun hno => (hwhole hno).2 hcs, fun hyes => (hexcess hyes).2 hcs⟩
    · obtain ⟨hzero, hok⟩ := hready hcs
      simp only [ChunkStream.isReady, hcs, hok, and_self, if_true, decide_true, Bool.and_self,
        Bool.not_true, Bool.and_false, forall_const]
      exact ⟨ChunkStream.whole_reset hzero, by simp⟩
  have hother : ∀ k, k ≠ SessionBase.mapKey s₁.csid →
      t'.2.base.csMap k = t.2.base.csMap k ∧ t'.1 k = t.1 k := by
    intro k hkey
    rw [hmap, hnote, Function.update_of_ne hkey, Function.update_of_ne hkey]
    exact ⟨rfl, rfl⟩
  refine ⟨?_, ?_, ?_⟩
  · intro k cs' hk hno
    by_cases hkey : k = SessionBase.mapKey s₁.csid
    · rw [hkey] at hk hno
      exact (hfiled cs' hk).1 hno
    · rw [(hother k hkey).1] at hk
      rw [(hother k hkey).2] at hno
      exact h.whole k cs' hk hno
  · intro k cs' hk hyes
    by_cases hkey : k = SessionBase.mapKey s₁.csid
    · rw [hkey] at hk hyes
      exact (hfiled cs' hk).2 hyes
    · rw [(hother k hkey).1] at hk
      rw [(hother k hkey).2] at hyes
      exact h.excess k cs' hk hyes
  · intro k hk
    by_cases hkey : k = SessionBase.mapKey s₁.csid
    · rw [hkey, hmap, Function.update_self] at hk
      cases hk
    · rw [(hother k hkey).1] at hk
      rw [(hother k hkey).2]
      exact h.known k hk

/-- A message has the length of its header exactly when it was not interrupted. -/
theorem Lengths.lengthRespected_iff {a : Act} {t : (UInt8 → Bool) × Session} (h : Lengths t) :
    lengthRespected a t.2 = true ↔ intact a t = true := by
  cases a with
  | pass after =>
    rcases hat : t.2.base.atMessage with _ | s₁
    · simp [lengthRespected_of_atMessage_none hat, intact, hat]
    rcases hm : SessionBase.readMessage s₁.fmt s₁.csid s₁.currentStream s₁.recvBuffer with
      ⟨ret, cs, buffer⟩
    obtain ⟨-, hwhole, hexcess⟩ := h.readMessage hat hm
    have hnext := SessionBase.nextMessage_isNone hat hm
    rw [lengthRespected_pass hat hm, intact, hat]
    rcases hcs : cs.chunkReady with _ | _
    · simp [hnext, hcs]
    rcases hcond : t.1 (SessionBase.mapKey s₁.csid) || t.2.base.interrupts with _ | _
    · simp [hcond, (hwhole hcond).1 hcs]
    · have hmuch := (hexcess hcond).1 hcs
      simp [hcond, Nat.ne_of_gt hmuch]
  | _ => exact Iff.rfl

/-- **Which messages have their length.**  In every run the messages that are complete
have the lengths of their headers if and only if none of them had a header of type 0, 1
or 2 that arrived where payload bytes of another message were. -/
theorem length_respected_iff (acts : List Act) :
    Run.Along step (fun a s => lengthRespected a s = true) acts {} ↔
      Run.Along (Run.withGhost noteInterrupt step) (fun a t => intact a t = true) acts
        (fun _ => false, {}) := by
  have hinit : Lengths (fun _ => false, {}) := by
    constructor
    · intro k cs hk
      cases hk
    · intro k cs hk
      cases hk
    · exact fun _ _ => rfl
  rw [← Run.along_withGhost noteInterrupt (fun _ => false)]
  exact Run.along_iff_along (fun _ _ _ h hstep => h.step hstep)
    (fun _ _ h => h.lengthRespected_iff) hinit

/-- Nothing is noted where no header interrupts. -/
theorem noteInterrupt_of_uninterrupted {a : Act} {s : Session} {interrupted : UInt8 → Bool}
    (hnone : ∀ k, interrupted k = false) (h : uninterrupted a s = true) (k : UInt8) :
    noteInterrupt a s interrupted k = false := by
  cases a with
  | pass after =>
    have hint : s.base.interrupts = false := by simpa [uninterrupted] using h
    rcases hat : s.base.atMessage with _ | s₁
    · simpa [noteInterrupt, hat] using hnone k
    · simp only [noteInterrupt, hat, hint, hnone, Bool.or_self, Bool.false_and]
      by_cases hkey : k = SessionBase.mapKey s₁.csid
      · rw [hkey, Function.update_self]
      · rw [Function.update_of_ne hkey]
        exact hnone k
  | _ => exact hnone k

theorem intact_of_uninterrupted {a : Act} {t : (UInt8 → Bool) × Session}
    (hnone : ∀ k, t.1 k = false) (h : uninterrupted a t.2 = true) : intact a t = true := by
  cases a with
  | pass after =>
    have hint : t.2.base.interrupts = false := by simpa [uninterrupted] using h
    rcases hat : t.2.base.atMessage with _ | s₁
    · simp [intact, hat]
    · simp [intact, hat, hint, hnone]
  | _ => rfl

/-- **The length of a message.**  In every run in which no header of type 0, 1 or 2 is
read on a chunk stream that holds part of a message, every message that is complete has
the length of its header. -/
theorem length_of_uninterrupted (acts : List Act)
    (h : Run.Along step (fun a s => uninterrupted a s = true) acts {}) :
    Run.Along step (fun a s => lengthRespected a s = true) acts {} := by
  rw [length_respected_iff]
  rw [← Run.along_withGhost noteInterrupt (fun _ => false)] at h
  refine h.of_invariant (fun t => ∀ k, t.1 k = false) ?_ ?_ (fun _ => rfl)
  · intro a t t' hnone hcond hstep k
    rw [(Run.withGhost_ok.mp hstep).2]
    exact noteInterrupt_of_uninterrupted hnone hcond k
  · exact fun a t hnone hcond => intact_of_uninterrupted hnone hcond

/-- The window of the client, and an audio message of 130 bytes in two chunks. -/
def wholeMessages : List Act :=
  clientReads (plainHeader 4 5 ++ [0, 0x26, 0x25, 0xa0] ++
    plainHeader 130 8 ++ 0xaf :: List.replicate 127 0 ++ 0xc3 :: [0, 0]) ++
    [.pass [], .pass [], .pass []]

theorem length_of_uninterrupted_two :
    (Run.run step wholeMessages {}).toOption.isSome = true ∧
      Run.Along step (fun a s => lengthRespected a s = true) wholeMessages {} :=
  ⟨by decide +kernel, length_of_uninterrupted wholeMessages (by decide +kernel)⟩

/-- Of a message of 130 bytes the first chunk arrives, and then a message of two
bytes with a header of its own.  It is handed over with 130 bytes. -/
theorem length_not_respected :
    ¬ Run.Along step (fun a s => lengthRespected a s = true)
      (clientReads (plainHeader 130 8 ++ 0xaf :: List.replicate 127 0 ++ plainHeader 2 8 ++ [0, 0]) ++
        [.pass [], .pass []]) {} := by
  decide +kernel

end Session

/-! ## The flag of the extended timestamp -/

namespace ChunkStream

/-- A header sets the flag when its timestamp field says so, and never clears it. -/
theorem readMsgHeader_extTsFlag {cs cs' : ChunkStream} {buffer buffer' : DataBuffer} {fmt : UInt8}
    {csid : UInt16} {ret : RtmpRet} (hr : cs.readMsgHeader buffer fmt csid = (ret, cs', buffer')) :
    cs'.extTsFlag = (cs.extTsFlag || (isFull fmt && fullHeaderLen fmt ≤ buffer.length &&
      read3bytes buffer = 0xffffff)) := by
  cases readMsgHeader_case hr with
  | waits _ _ hshort =>
    cases hfull : isFull fmt with
    | true => simp [Nat.not_le.mpr (hshort hfull)]
    | false => simp
  | awaitsTimestamp hfull hlen hfield _ => simp [hfull, hlen, hfield]
  | starts hfull hthere fields hfields p ts flag hflag =>
    have hlen : fullHeaderLen fmt ≤ buffer.length := by
      simp only [headerThere, decide_eq_true_eq] at hthere
      omega
    rw [hfields.extTsFlag, hflag]
    simp [hfull, hlen]
  | startsAgain hfull => simp [hfull]
  | goesOn hfull => simp [hfull]

theorem readMessagePayload_extTsFlag {cs cs' : ChunkStream} {buffer buffer' : DataBuffer}
    {ret : RtmpRet} (hr : cs.readMessagePayload buffer = (ret, cs', buffer')) :
    cs'.extTsFlag = cs.extTsFlag := by
  simp only [readMessagePayload] at hr
  split_ifs at hr
  · cases hr
    rfl
  · cases hr
    rfl
  · cases hr
    rfl

/-- Without the flag a header of type 3 takes no bytes and waits for none. -/
theorem readMsgFormat3_of_not_extTsFlag {cs : ChunkStream} (h : cs.extTsFlag = false)
    (buffer : DataBuffer) (fmt : UInt8) (csid : UInt16) :
    ∃ cs', cs.readMsgFormat3 buffer fmt csid = (.ok, cs', buffer) := by
  unfold readMsgFormat3 readNewTimestamp skipTimestamp
  simp only [h, Bool.false_eq_true, if_false]
  split_ifs <;> exact ⟨_, rfl⟩

end ChunkStream

namespace SessionBase

/-- The timestamp field of the header of type 0, 1 or 2 that is next, with the key of
its chunk stream.  The field counts when the header is there, also when its extended
timestamp is not. -/
def timestampField (s : SessionBase) : Option (UInt8 × UInt32) :=
  match s.atMessage with
  | some s₁ =>
    if ChunkStream.isFull s₁.fmt && s₁.currentStream.phase = .header &&
        ChunkStream.fullHeaderLen s₁.fmt ≤ s₁.recvBuffer.length then
      some (mapKey s₁.csid, read3bytes s₁.recvBuffer)
    else none
  | none => none

/-- The chunk that is next sets the flag of its stream or leaves it. -/
theorem readMessage_extTsFlag {s s₁ : SessionBase} (hat : s.atMessage = some s₁)
    {ret : RtmpRet} {cs : ChunkStream} {buffer : DataBuffer}
    (hr : readMessage s₁.fmt s₁.csid s₁.currentStream s₁.recvBuffer = (ret, cs, buffer)) :
    cs.extTsFlag =
      (s₁.currentStream.extTsFlag || s.timestampField.any (fun field => field.2 = 0xffffff)) := by
  have hfield : s₁.currentStream.phase = .header →
      s.timestampField.any (fun field => field.2 = 0xffffff) =
        (ChunkStream.isFull s₁.fmt && ChunkStream.fullHeaderLen s₁.fmt ≤ s₁.recvBuffer.length &&
          read3bytes s₁.recvBuffer = 0xffffff) := by
    intro hphase
    simp only [timestampField, hat, hphase]
    split_ifs with hthere
    · simp only [decide_true, Bool.and_true] at hthere
      simp [hthere]
    · simp only [decide_true, Bool.and_true, Bool.not_eq_true] at hthere
      simp [hthere]
  rcases readMessage_cases hr with ⟨hp, hr⟩ | ⟨hphase, cs₁, buffer₁, hh, hr⟩ | ⟨hphase, -, hh⟩
  · have hnone : s.timestampField = none := by simp [timestampField, hat, hp]
    rw [hnone, Option.any_none, Bool.or_false]
    exact ChunkStream.readMessagePayload_extTsFlag hr
  · rw [hfield hphase, ← ChunkStream.readMsgHeader_extTsFlag hh]
    have hlast := ChunkStream.readMessagePayload_extTsFlag hr
    exact hlast
  · rw [hfield hphase]
    exact ChunkStream.readMsgHeader_extTsFlag hh

theorem key_of_timestampField {s s₁ : SessionBase} (hat : s.atMessage = some s₁) {k : UInt8}
    {ts : UInt32} (h : s.timestampField = some (k, ts)) : k = mapKey s₁.csid := by
  simp only [timestampField, hat] at h
  split_ifs at h
  cases h
  rfl

end SessionBase

namespace Session

/-- The last header of type 0, 1 or 2 of each chunk stream, by its timestamp field. -/
def noteField : Act → Session → (UInt8 → Option UInt32) → UInt8 → Option UInt32
  | .pass _, s, last =>
    match s.base.timestampField with
    | some (k, ts) => Function.update last k (some ts)
    | none => last
  | _, _, last => last

/-- The flag of a chunk stream tells whether its last header had an extended
timestamp.  After a header without one, a header of type 3 waits for nothing and takes
nothing from the payload. -/
structure FlagFollows (t : (UInt8 → Option UInt32) × Session) : Prop where
  flag : ∀ k cs, t.2.base.csMap k = some cs → (cs.extTsFlag = true ↔ t.1 k = some 0xffffff)
  quiet : ∀ k cs ts, t.2.base.csMap k = some cs → t.1 k = some ts → ts < 0xffffff →
    ∀ buffer csid, ∃ cs', cs.readMsgFormat3 buffer 3 csid = (.ok, cs', buffer)

/-- No header without an extended timestamp arrives on a chunk stream whose flag is
set. -/
def noStaleFlag : Act → Session → Bool
  | .pass _, s =>
    match s.base.timestampField with
    | some (k, ts) => ts = 0xffffff || !(s.base.csMap k).any (·.extTsFlag)
    | none => true
  | _, _ => true

/-- A chunk stream that does not exist has had no header. -/
def KnownStreams (t : (UInt8 → Option UInt32) × Session) : Prop :=
  ∀ k, t.2.base.csMap k = none → t.1 k = none

/-- What the flags say is enough. -/
theorem flagFollows_iff {t : (UInt8 → Option UInt32) × Session} :
    FlagFollows t ↔
      ∀ k cs, t.2.base.csMap k = some cs → (cs.extTsFlag = true ↔ t.1 k = some 0xffffff) := by
  refine ⟨FlagFollows.flag, fun h => ⟨h, ?_⟩⟩
  intro k cs ts hk hlast hts buffer csid
  apply ChunkStream.readMsgFormat3_of_not_extTsFlag
  rw [← Bool.not_eq_true, h k cs hk, hlast, Option.some.injEq]
  intro heq
  rw [heq] at hts
  exact absurd hts (by decide)

/-- A step that leaves the chunk streams alone reads no header. -/
theorem noteField_of_wait {a : Act} {s : Session}
    (h : ∀ after, a = .pass after → s.base.atMessage = none) (last : UInt8 → Option UInt32) :
    noteField a s last = last ∧ noStaleFlag a s = true := by
  cases a with
  | pass after =>
    have hnone : s.base.timestampField = none := by
      rw [SessionBase.timestampField, h after rfl]
    simp [noteField, noStaleFlag, hnone]
  | _ => exact ⟨rfl, rfl⟩

theorem KnownStreams.step {a : Act} {t t' : (UInt8 → Option UInt32) × Session}
    (h : KnownStreams t) (hstep : Run.withGhost noteField step a t = .ok t') : KnownStreams t' := by
  obtain ⟨hs', hlast⟩ := Run.withGhost_ok.mp hstep
  intro k hk
  rcases step_csMap hs' with ⟨hmap, hwait⟩ | ⟨after, s₁, r, cs, buffer, rfl, hat, -, hmap⟩
  · rw [hlast, (noteField_of_wait hwait _).1]
    rw [hmap] at hk
    exact h k hk
  · rw [hmap] at hk
    have hkey : k ≠ SessionBase.mapKey s₁.csid := by
      intro hkey
      rw [hkey, Function.update_self] at hk
      cases hk
    rw [Function.update_of_ne hkey] at hk
    rw [hlast, noteField]
    rcases hf : t.2.base.timestampField with _ | ⟨k', ts⟩
    · exact h k hk
    · have hk' := SessionBase.key_of_timestampField hat hf
      subst hk'
      simp only [Function.update_of_ne hkey]
      exact h k hk

/-- The flag of the chunk stream that a pass reads from, before the pass. -/
theorem extTsFlag_currentStream {s : Session} {s₁ : SessionBase}
    (hat : s.base.atMessage = some s₁) :
    s₁.currentStream.extTsFlag =
      (s.base.csMap (SessionBase.mapKey s₁.csid)).any (·.extTsFlag) := by
  rw [SessionBase.currentStream, (SessionBase.atMessage_frame hat).1]
  rcases s.base.csMap (SessionBase.mapKey s₁.csid) with _ | cs
  · rfl
  · rfl

/-- **One step.**  It keeps the flags in order exactly when it does not read a header
without an extended timestamp where the flag is set. -/
theorem FlagFollows.step_iff {a : Act} {t t' : (UInt8 → Option UInt32) × Session}
    (hknown : KnownStreams t) (h : FlagFollows t)
    (hstep : Run.withGhost noteField step a t = .ok t') :
    FlagFollows t' ↔ noStaleFlag a t.2 = true := by
  obtain ⟨hs', hlast⟩ := Run.withGhost_ok.mp hstep
  rw [flagFollows_iff, hlast]
  rcases step_csMap hs' with ⟨hmap, hwait⟩ | ⟨after, s₁, r, cs, buffer, rfl, hat, hm, hmap⟩
  · obtain ⟨hnote, hcond⟩ := noteField_of_wait hwait t.1
    rw [hmap, hnote, hcond]
    exact ⟨fun _ => rfl, fun _ => h.flag⟩
  · -- the stream that is filed, reset or not, has the flag that the chunk leaves
    have hflag := SessionBase.readMessage_extTsFlag hat hm
    rw [extTsFlag_currentStream hat] at hflag
    generalize hcs' : (if r = .ok ∧ cs.isReady then cs.reset else cs) = cs' at hmap
    have hcs'flag : cs'.extTsFlag = cs.extTsFlag := by
      rw [← hcs']
      split_ifs
      · rfl
      · rfl
    rw [← hcs'flag] at hflag
    rw [hmap]
    rcases hf : t.2.base.timestampField with _ | ⟨k₀, ts⟩
    · -- no header, so neither the flag nor the record changes
      have hold : cs'.extTsFlag = true ↔ t.1 (SessionBase.mapKey s₁.csid) = some 0xffffff := by
        rw [hflag, hf, Option.any_none, Bool.or_false]
        rcases hk : t.2.base.csMap (SessionBase.mapKey s₁.csid) with _ | cs₀
        · simp [hknown _ hk]
        · simpa using h.flag _ cs₀ hk
      simp only [noteField, noStaleFlag, hf, iff_true]
      intro k c hk
      by_cases hkey : k = SessionBase.mapKey s₁.csid
      · rw [hkey, Function.update_self, Option.some.injEq] at hk
        rw [hkey, ← hk]
        exact hold
      · rw [Function.update_of_ne hkey] at hk
        exact h.flag k c hk
    · have hk₀ := SessionBase.key_of_timestampField hat hf
      subst hk₀
      rw [hf, Option.any_some] at hflag
      simp only [noteField, noStaleFlag, hf]
      constructor
      · intro hall
        have hself := hall _ cs' (Function.update_self _ _ _)
        rw [Function.update_self, Option.some.injEq, hflag] at hself
        by_cases hts : ts = 0xffffff
        · simp [hts]
        · simpa [hts] using hself
      · intro hcond k c hk
        by_cases hkey : k = SessionBase.mapKey s₁.csid
        · rw [hkey, Function.update_self, Option.some.injEq] at hk
          rw [hkey, Function.update_self, Option.some.injEq, ← hk, hflag]
          by_cases hts : ts = 0xffffff
          · simp [hts]
          · simpa [hts] using hcond
        · rw [Function.update_of_ne hkey] at hk ⊢
          exact h.flag k c hk

/-- **The flag and the last header.**  In all states of a run the flag of every chunk
stream tells its last header of type 0, 1 or 2 if and only if the run reads no header
without an extended timestamp where the flag is set. -/
theorem flag_follows_iff {acts : List Act} {s : Session} (hrun : Run.run step acts {} = .ok s) :
    (∀ pre t, pre <+: acts →
      Run.run (Run.withGhost noteField step) pre (fun _ => none, {}) = .ok t → FlagFollows t) ↔
      Run.Along step (fun a s => noStaleFlag a s = true) acts {} := by
  obtain ⟨last, hrun'⟩ := Run.exists_run_withGhost noteField hrun (fun _ => none)
  have hknown : KnownStreams (fun _ => none, {}) := fun _ _ => rfl
  have hinit : FlagFollows (fun _ => none, {}) := by
    rw [flagFollows_iff]
    intro k cs hk
    cases hk
  rw [← Run.along_withGhost noteField (fun _ => none)]
  exact Run.forall_prefix_iff_along (fun _ _ _ hknown hstep => hknown.step hstep)
    (fun _ _ _ hknown h hstep => h.step_iff hknown hstep) hknown hinit hrun'

/-- Two messages without extended timestamps. -/
theorem flag_follows_iff_two :
    ∃ s, Run.run step wholeMessages {} = .ok s ∧ ∀ pre t, pre <+: wholeMessages →
      Run.run (Run.withGhost noteField step) pre (fun _ => none, {}) = .ok t → FlagFollows t := by
  obtain ⟨s, hrun, -⟩ : ∃ s, Run.run step wholeMessages {} = .ok s ∧ s.base.chunkSize = 128 :=
    Run.exists_of_map_toOption (by decide +kernel)
  exact ⟨s, hrun, (flag_follows_iff hrun).mpr (by decide +kernel)⟩

/-- A message with an extended timestamp, and then one without, of 130 bytes in two
chunks. -/
def staleFlagRun : List Act :=
  clientReads ([0x03, 0xff, 0xff, 0xff, 0, 0, 4, 5, 0, 0, 0, 0] ++ [1, 0, 0, 0] ++
    [0, 0x26, 0x25, 0xa0] ++ plainHeader 130 8 ++ 0xaf :: List.replicate 127 0 ++ 0xc3 :: [0, 0]) ++
    [.pass [], .pass [], .pass []]

/-- The flag is still set behind the second header.  The header of type 3 waits for an
extended timestamp although the message is complete. -/
theorem flag_not_following :
    ¬ (∀ pre t, pre <+: staleFlagRun →
      Run.run (Run.withGhost noteField step) pre (fun _ => none, {}) = .ok t → FlagFollows t) ∧
      ∃ s, Run.run step staleFlagRun {} = .ok s ∧ s.base.recvBuffer = [0, 0] := by
  refine ⟨?_, Run.exists_of_map_toOption (by decide +kernel)⟩
  intro h
  obtain ⟨t, hrun, ht⟩ : ∃ t, Run.run (Run.withGhost noteField step) staleFlagRun
      (fun _ => none, {}) = .ok t ∧
        ((t.2.base.csMap 3).map (·.extTsFlag), t.1 3) = (some true, some 0) :=
    Run.exists_of_map_toOption (by decide +kernel)
  rw [Prod.mk.injEq, Option.map_eq_some_iff] at ht
  obtain ⟨⟨cs, hcs, hflag⟩, hlast⟩ := ht
  have hsays := ((h staleFlagRun t (List.prefix_refl _) hrun).flag 3 cs hcs).mp hflag
  rw [hlast] at hsays
  cases hsays

end Session

end MediaServer
