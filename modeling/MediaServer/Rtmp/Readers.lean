import Mathlib.Tactic.SplitIfs
import MediaServer.Lib.Incremental
import MediaServer.Rtmp.SessionBase

/-!
# The chunk readers and the arrival of their input

Every reader of a chunk stream is `Incremental.Lawful`: what it reads does not
depend on when the bytes behind its own arrive, and after a wait it starts
again as if it had not been called.  The readers of a message header write a
few fields before they wait (`fmt`, `csid`, the flag of the extended timestamp,
`requireLen`), and the second attempt writes the same values again.

`readMessage_lawful` is the result for one chunk after its basic header.  The
basic header itself is not lawful; `MediaServer.Rtmp.Segmentation` says when it
behaves as if it were.
-/

namespace MediaServer

open Incremental (Lawful)

namespace ChunkStream

/-! ### Formats 0, 1 and 2 -/

/-- The cases of `readMsgFormat`, with the buffer written as a list. -/
theorem readMsgFormat_eq (headerLen : Nat)
    (fields : Bytes → UInt32 → ChunkStream → ChunkStream) (cs : ChunkStream)
    (buffer : DataBuffer) (inputFmt : UInt8) (inputCsid : UInt16) :
    readMsgFormat headerLen fields cs buffer inputFmt inputCsid =
      if buffer.length < headerLen then (.needReadMore, cs, buffer)
      else if read3bytes (buffer.take headerLen) ≥ 0xffffff then
        if buffer.length < headerLen + EXT_TS_LEN then
          (.needReadMore,
            { cs with fmt := inputFmt, csid := inputCsid, extTsFlag := true }, buffer)
        else
          (.ok, fields (buffer.take headerLen) (read4bytes (buffer.drop headerLen))
            { cs with fmt := inputFmt, csid := inputCsid, extTsFlag := true },
            buffer.drop (headerLen + EXT_TS_LEN))
      else
        (.ok, fields (buffer.take headerLen) (read3bytes (buffer.take headerLen))
          { cs with fmt := inputFmt, csid := inputCsid }, buffer.drop headerLen) := by
  unfold readMsgFormat
  by_cases h1 : buffer.length < headerLen
  · simp [h1]
  · have h1' : headerLen ≤ buffer.length := by omega
    simp only [h1, if_false, DataBuffer.require_eq_true.mpr h1', Bool.not_true,
      Bool.false_eq_true]
    by_cases h2 : read3bytes (buffer.take headerLen) ≥ 0xffffff
    · simp only [h2, if_true]
      by_cases h3 : buffer.length < headerLen + EXT_TS_LEN
      · simp [h3]
      · have h3' : headerLen + EXT_TS_LEN ≤ buffer.length := by omega
        simp only [h3, if_false, DataBuffer.require_eq_true.mpr h3', Bool.not_true,
          Bool.false_eq_true]
        rw [DataBuffer.consumeData_eq_drop h1', DataBuffer.consumeData_eq_drop
          (by rw [List.length_drop]; omega), List.drop_drop]
    · simp only [h2, if_false, DataBuffer.consumeData_eq_drop h1']

theorem readMsgFormat_lawful (headerLen : Nat)
    (fields : Bytes → UInt32 → ChunkStream → ChunkStream) (inputFmt : UInt8)
    (inputCsid : UInt16) :
    Lawful RtmpRet.ok
      (fun cs buffer => readMsgFormat headerLen fields cs buffer inputFmt inputCsid) where
  append := by
    intro cs buffer cs' buffer' e h
    simp only [readMsgFormat_eq] at h ⊢
    split_ifs at h with h1 h2 h3
    · cases h
    · cases h
    · have hl : EXT_TS_LEN ≤ (buffer.drop headerLen).length := by
        rw [List.length_drop]; omega
      cases h
      rw [List.take_append_of_le_length (by omega), if_neg (by simp; omega), if_pos h2,
        if_neg (by simp; omega), List.drop_append_of_le_length (by omega),
        List.drop_append_of_le_length (by omega), read4bytes_append hl]
    · cases h
      rw [List.take_append_of_le_length (by omega), if_neg (by simp; omega), if_neg h2,
        List.drop_append_of_le_length (by omega)]
  resume := by
    intro cs buffer ret cs' buffer' e h hret
    simp only [readMsgFormat_eq] at h ⊢
    split_ifs at h with h1 h2 h3
    · cases h
      rfl
    · cases h
      -- the header is complete, so the second attempt sets the flag again
      have h1' : ¬ (buffer ++ e).length < headerLen := by simp; omega
      rw [List.take_append_of_le_length (by omega)]
      simp only [h1', h2, if_false, if_true]
    · exact absurd (congrArg Prod.fst h).symm hret
    · exact absurd (congrArg Prod.fst h).symm hret
  length_le := by
    intro cs buffer ret cs' buffer' h
    simp only [readMsgFormat_eq] at h
    split_ifs at h <;> cases h <;> simp

/-! ### Format 3 -/

/-- An extended timestamp is there or not; what follows it does not matter. -/
theorem readNewTimestamp_append {cs : ChunkStream} {buffer buffer' : DataBuffer} {ts : UInt32}
    (h : readNewTimestamp cs buffer = some (ts, buffer')) (e : Bytes) :
    readNewTimestamp cs (buffer ++ e) = some (ts, buffer' ++ e) := by
  unfold readNewTimestamp at h ⊢
  by_cases hl : EXT_TS_LEN ≤ buffer.length
  · have hl' : EXT_TS_LEN ≤ (buffer ++ e).length := by simp; omega
    simp only [DataBuffer.require_eq_true.mpr hl, Bool.not_true] at h
    simp only [DataBuffer.require_eq_true.mpr hl', Bool.not_true, read4bytes_append hl,
      DataBuffer.consumeData_append hl]
    split_ifs at h ⊢ <;> cases h <;> rfl
  · simp only [DataBuffer.require_eq_false.mpr (Nat.lt_of_not_le hl), Bool.not_false] at h
    split_ifs at h ⊢ <;> cases h <;> rfl

/-- Inside a message too, only the extended timestamp itself matters. -/
theorem skipTimestamp_append {cs : ChunkStream} {buffer buffer' : DataBuffer}
    (h : skipTimestamp cs buffer = some buffer') (e : Bytes) :
    skipTimestamp cs (buffer ++ e) = some (buffer' ++ e) := by
  unfold skipTimestamp at h ⊢
  by_cases hl : EXT_TS_LEN ≤ buffer.length
  · have hl' : EXT_TS_LEN ≤ (buffer ++ e).length := by simp; omega
    simp only [DataBuffer.require_eq_true.mpr hl, Bool.not_true] at h
    simp only [DataBuffer.require_eq_true.mpr hl', Bool.not_true, read4bytes_append hl,
      DataBuffer.consumeData_append hl]
    split_ifs at h ⊢ <;> cases h <;> rfl
  · simp only [DataBuffer.require_eq_false.mpr (Nat.lt_of_not_le hl), Bool.not_false] at h
    split_ifs at h ⊢
    cases h
    rfl

theorem readNewTimestamp_length_le {cs : ChunkStream} {buffer buffer' : DataBuffer}
    {ts : UInt32} (h : readNewTimestamp cs buffer = some (ts, buffer')) :
    buffer'.length ≤ buffer.length := by
  unfold readNewTimestamp at h
  split_ifs at h <;> cases h <;> first | exact Nat.le_refl _ | exact DataBuffer.consumeData_length_le _ _

theorem skipTimestamp_length_le {cs : ChunkStream} {buffer buffer' : DataBuffer}
    (h : skipTimestamp cs buffer = some buffer') : buffer'.length ≤ buffer.length := by
  unfold skipTimestamp at h
  split_ifs at h <;> cases h <;> first | exact Nat.le_refl _ | exact DataBuffer.consumeData_length_le _ _

theorem readMsgFormat3_lawful (inputFmt : UInt8) (inputCsid : UInt16) :
    Lawful RtmpRet.ok
      (fun cs buffer => readMsgFormat3 cs buffer inputFmt inputCsid) where
  append := by
    intro cs buffer cs' buffer' e h
    simp only [readMsgFormat3] at h ⊢
    split_ifs at h ⊢ with hr
    · cases hts : readNewTimestamp cs buffer with
      | none => rw [hts] at h; cases h
      | some r =>
        rw [hts] at h
        rw [readNewTimestamp_append hts]
        cases h
        rfl
    · cases hts : skipTimestamp cs buffer with
      | none => rw [hts] at h; cases h
      | some r =>
        rw [hts] at h
        rw [skipTimestamp_append hts]
        cases h
        rfl
  resume := by
    intro cs buffer ret cs' buffer' e h hret
    simp only [readMsgFormat3] at h
    split_ifs at h with hr
    · cases hts : readNewTimestamp cs buffer with
      | none => rw [hts] at h; cases h; rfl
      | some r => rw [hts] at h; exact absurd (congrArg Prod.fst h).symm hret
    · cases hts : skipTimestamp cs buffer with
      | none => rw [hts] at h; cases h; rfl
      | some r => rw [hts] at h; exact absurd (congrArg Prod.fst h).symm hret
  length_le := by
    intro cs buffer ret cs' buffer' h
    simp only [readMsgFormat3] at h
    split_ifs at h with hr
    · cases hts : readNewTimestamp cs buffer with
      | none => rw [hts] at h; cases h; exact Nat.le_refl _
      | some r => rw [hts] at h; cases h; exact readNewTimestamp_length_le hts
    · cases hts : skipTimestamp cs buffer with
      | none => rw [hts] at h; cases h; exact Nat.le_refl _
      | some r => rw [hts] at h; cases h; exact skipTimestamp_length_le hts

/-! ### The message header -/

/-- A message header is read, or read again, from its first byte. -/
theorem readMsgHeader_lawful (inputFmt : UInt8) (inputCsid : UInt16) :
    Lawful RtmpRet.ok (fun cs buffer => readMsgHeader cs buffer inputFmt inputCsid) := by
  unfold readMsgHeader
  split_ifs
  · exact readMsgFormat_lawful _ _ _ _
  · exact readMsgFormat_lawful _ _ _ _
  · exact readMsgFormat_lawful _ _ _ _
  · exact readMsgFormat3_lawful _ _
  · refine ⟨?_, ?_, ?_⟩
    · intro cs buffer cs' buffer' e h
      cases h
    · intro cs buffer ret cs' buffer' e h hret
      cases h
      rfl
    · intro cs buffer ret cs' buffer' h
      cases h
      exact Nat.le_refl _

/-! ### What a reader leaves alone -/

/-- No reader touches the chunk size of its stream, a message header leaves the
phase to `readMessageHeader`, and a header that is read names its stream. -/
theorem readMsgHeader_frame {cs cs' : ChunkStream} {buffer buffer' : DataBuffer}
    {inputFmt : UInt8} {inputCsid : UInt16} {ret : RtmpRet}
    (h : readMsgHeader cs buffer inputFmt inputCsid = (ret, cs', buffer')) :
    cs'.phase = cs.phase ∧ cs'.chunkSize = cs.chunkSize ∧
      (ret = .ok → cs'.csid = inputCsid) := by
  unfold readMsgHeader readMsgFormat0 readMsgFormat1 readMsgFormat2 readMsgFormat3 at h
  simp only [readMsgFormat_eq] at h
  split_ifs at h
  all_goals first
    | (cases h; exact ⟨rfl, rfl, fun _ => rfl⟩)
    | (cases h; exact ⟨rfl, rfl, fun h => nomatch h⟩)
    | (split at h <;> cases h
       · exact ⟨rfl, rfl, fun h => nomatch h⟩
       · exact ⟨rfl, rfl, fun _ => rfl⟩)

theorem readMessageHeader_lawful (inputFmt : UInt8) (inputCsid : UInt16) :
    Lawful RtmpRet.ok (fun cs buffer => readMessageHeader cs buffer inputFmt inputCsid) where
  append := by
    intro cs buffer cs' buffer' e h
    simp only [readMessageHeader] at h ⊢
    split_ifs at h ⊢ with hp
    · cases h
      rfl
    · rcases hr : readMsgHeader cs buffer inputFmt inputCsid with ⟨r, cs₁, b₁⟩
      rw [hr] at h
      cases r <;> cases h
      rw [(readMsgHeader_lawful inputFmt inputCsid).append e hr]
  resume := by
    intro cs buffer ret cs' buffer' e h hret
    simp only [readMessageHeader] at h
    split_ifs at h with hp
    · cases h
      exact absurd rfl hret
    · rcases hr : readMsgHeader cs buffer inputFmt inputCsid with ⟨r, cs₁, b₁⟩
      have hphase := (readMsgHeader_frame hr).1
      have hresume : r ≠ .ok → readMsgHeader cs₁ (b₁ ++ e) inputFmt inputCsid =
          readMsgHeader cs (buffer ++ e) inputFmt inputCsid :=
        (readMsgHeader_lawful inputFmt inputCsid).resume e hr
      rw [hr] at h
      cases r <;> cases h
      · exact absurd rfl hret
      · simp only [readMessageHeader, hphase, hp, if_false, hresume hret]
      · simp only [readMessageHeader, hphase, hp, if_false, hresume hret]
  length_le := by
    intro cs buffer ret cs' buffer' h
    simp only [readMessageHeader] at h
    split_ifs at h with hp
    · cases h
      exact Nat.le_refl _
    · rcases hr : readMsgHeader cs buffer inputFmt inputCsid with ⟨r, cs₁, b₁⟩
      have hle := (readMsgHeader_lawful inputFmt inputCsid).length_le hr
      rw [hr] at h
      cases r <;> cases h <;> exact hle

/-! ### The payload -/

/-- The two cases of `readMessagePayload` in the payload phase. -/
theorem readMessagePayload_eq {cs : ChunkStream} (hp : cs.phase = .payload)
    (buffer : DataBuffer) :
    readMessagePayload cs buffer =
      if buffer.length < cs.payloadLen then
        (.needReadMore, { cs with requireLen := cs.payloadLen }, buffer)
      else
        (.ok, acceptPayload { cs with requireLen := cs.payloadLen }
          (buffer.take cs.payloadLen), buffer.drop cs.payloadLen) := by
  unfold readMessagePayload
  rw [if_neg (by simp [hp])]
  by_cases hl : cs.payloadLen ≤ buffer.length
  · rw [if_neg (by omega : ¬ buffer.length < cs.payloadLen)]
    simp only [DataBuffer.require_eq_true.mpr hl, DataBuffer.consumeData_eq_drop hl]
    rfl
  · have hl' : buffer.length < cs.payloadLen := Nat.lt_of_not_le hl
    simp [hl']

theorem readMessagePayload_lawful : Lawful RtmpRet.ok readMessagePayload where
  append := by
    intro cs buffer cs' buffer' e h
    by_cases hp : cs.phase = .payload
    · rw [readMessagePayload_eq hp] at h ⊢
      split_ifs at h with hl
      · cases h
      · cases h
        rw [if_neg (by simp; omega), List.take_append_of_le_length (by omega),
          List.drop_append_of_le_length (by omega)]
    · simp only [readMessagePayload, hp, ne_eq, not_false_eq_true, if_true] at h ⊢
      cases h
      rfl
  resume := by
    intro cs buffer ret cs' buffer' e h hret
    by_cases hp : cs.phase = .payload
    · rw [readMessagePayload_eq hp] at h
      split_ifs at h with hl
      · cases h
        -- only `requireLen` was written, and it is written again
        rw [readMessagePayload_eq hp, readMessagePayload_eq (by exact hp)]
        rfl
      · exact absurd (congrArg Prod.fst h).symm hret
    · simp only [readMessagePayload, hp, ne_eq, not_false_eq_true, if_true] at h
      exact absurd (congrArg Prod.fst h).symm hret
  length_le := by
    intro cs buffer ret cs' buffer' h
    simp only [readMessagePayload] at h
    split_ifs at h <;> cases h
    all_goals first | exact Nat.le_refl _ | exact DataBuffer.consumeData_length_le _ _

/-- In the payload phase no header is read. -/
theorem readMessageHeader_of_payload {cs : ChunkStream} (hp : cs.phase = .payload)
    (buffer : DataBuffer) (fmt : UInt8) (csid : UInt16) :
    readMessageHeader cs buffer fmt csid = (.ok, cs, buffer) := by
  rw [readMessageHeader, if_pos (by simp [hp])]

theorem readMessagePayload_wait_phase {cs cs' : ChunkStream} {buffer buffer' : DataBuffer}
    {ret : RtmpRet} (h : readMessagePayload cs buffer = (ret, cs', buffer'))
    (hret : ret ≠ .ok) : cs'.phase = .payload := by
  by_cases hp : cs.phase = .payload
  · rw [readMessagePayload_eq hp] at h
    split_ifs at h
    · cases h
      exact hp
    · exact absurd (congrArg Prod.fst h).symm hret
  · simp only [readMessagePayload, hp, ne_eq, not_false_eq_true, if_true] at h
    exact absurd (congrArg Prod.fst h).symm hret

end ChunkStream

namespace SessionBase

/-- What a chunk can do behind its basic header: go on with its payload, or read its
header and then its payload, or stop at its header. -/
theorem readMessage_cases {fmt : UInt8} {csid : UInt16} {cs cs' : ChunkStream}
    {buffer buffer' : DataBuffer} {ret : RtmpRet}
    (h : readMessage fmt csid cs buffer = (ret, cs', buffer')) :
    (cs.phase = .payload ∧ cs.readMessagePayload buffer = (ret, cs', buffer')) ∨
      (cs.phase = .header ∧ ∃ cs₁ buffer₁, cs.readMsgHeader buffer fmt csid = (.ok, cs₁, buffer₁) ∧
        ({ cs₁ with phase := .payload } : ChunkStream).readMessagePayload buffer₁ =
          (ret, cs', buffer')) ∨
      (cs.phase = .header ∧ ret ≠ .ok ∧
        cs.readMsgHeader buffer fmt csid = (ret, cs', buffer')) := by
  unfold readMessage at h
  cases hp : cs.phase with
  | payload =>
    rw [ChunkStream.readMessageHeader_of_payload hp] at h
    exact Or.inl ⟨rfl, h⟩
  | header =>
    right
    rw [ChunkStream.readMessageHeader, if_neg (by simp [hp])] at h
    rcases hr : cs.readMsgHeader buffer fmt csid with ⟨r, cs₁, buffer₁⟩
    rw [hr] at h
    cases r with
    | ok => exact Or.inl ⟨rfl, cs₁, buffer₁, rfl, h⟩
    | needReadMore =>
      cases h
      exact Or.inr ⟨rfl, by simp, rfl⟩
    | error =>
      cases h
      exact Or.inr ⟨rfl, by simp, rfl⟩

theorem readMessage_lawful (fmt : UInt8) (csid : UInt16) :
    Lawful RtmpRet.ok (readMessage fmt csid) where
  append := by
    intro cs buffer cs' buffer' e h
    unfold readMessage at h ⊢
    rcases hr : cs.readMessageHeader buffer fmt csid with ⟨r, cs₁, b₁⟩
    rw [hr] at h
    cases r with
    | ok =>
      rw [(ChunkStream.readMessageHeader_lawful fmt csid).append e hr]
      exact ChunkStream.readMessagePayload_lawful.append e h
    | needReadMore => cases h
    | error => cases h
  resume := by
    intro cs buffer ret cs' buffer' e h hret
    unfold readMessage at h
    rcases hr : cs.readMessageHeader buffer fmt csid with ⟨r, cs₁, b₁⟩
    rw [hr] at h
    have hheader := ChunkStream.readMessageHeader_lawful fmt csid
    have hresume : r ≠ .ok → cs₁.readMessageHeader (b₁ ++ e) fmt csid =
        cs.readMessageHeader (buffer ++ e) fmt csid := hheader.resume e hr
    cases r with
    | ok =>
      -- the header is consumed: the next attempt finds the payload phase
      have hp' := ChunkStream.readMessagePayload_wait_phase h hret
      have happend : cs.readMessageHeader (buffer ++ e) fmt csid = (.ok, cs₁, b₁ ++ e) :=
        hheader.append e hr
      rw [readMessage, readMessage, happend, ChunkStream.readMessageHeader_of_payload hp']
      exact ChunkStream.readMessagePayload_lawful.resume e h hret
    | needReadMore => cases h; rw [readMessage, readMessage, hresume hret]
    | error => cases h; rw [readMessage, readMessage, hresume hret]
  length_le := by
    intro cs buffer ret cs' buffer' h
    unfold readMessage at h
    rcases hr : cs.readMessageHeader buffer fmt csid with ⟨r, cs₁, b₁⟩
    have hle := (ChunkStream.readMessageHeader_lawful fmt csid).length_le hr
    rw [hr] at h
    cases r with
    | ok => exact Nat.le_trans (ChunkStream.readMessagePayload_lawful.length_le h) hle
    | needReadMore => cases h; exact hle
    | error => cases h; exact hle

end SessionBase

end MediaServer
