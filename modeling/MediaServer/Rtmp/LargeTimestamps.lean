import Mathlib.Data.List.GetD
import MediaServer.Rtmp.RoundTrip

/-!
# Timestamps of more than 24 bits

The readers of a message header take a 24-bit timestamp of `0xffffff` for the sign that four
more bytes with the timestamp follow.  `gen_data` writes the low 24 bits of the timestamp
and never those four bytes.

* A timestamp with other low bits is cut: `receiveAll_truncated`.
* With low bits of `0xffffff`, the reader takes four bytes of the payload for the
  timestamp.  What it reads from then on may be anything, but it has too few bytes for the
  message: `Spent` counts the bytes that have been read against the payload that is held, and
  `Spent.receiveAll` bounds the payload of every message that is delivered.

`late_not_delivered` puts the two together.
-/

namespace MediaServer

open Incremental (Turn Consumer)

/-- A message whose timestamp does not fit into 24 bits, or is the sign of an extended
one. -/
structure Message.Late (m : Message) : Prop where
  csid_ge : 2 ≤ m.csid
  csid_lt : m.csid < 64
  timestamp_ge : 0xffffff ≤ m.timestamp
  payload_pos : 1 ≤ m.payload.length
  payload_le : m.payload.length ≤ 2 ^ 24 - 1

/-! ## Timestamps that are cut -/

/-- The message with what 24 bits keep of its timestamp. -/
def Message.truncated (m : Message) : Message :=
  { m with timestamp := UInt32.ofNat (m.timestamp.toNat % 2 ^ 24) }

theorem Message.truncated_toNat (m : Message) :
    m.truncated.timestamp.toNat = m.timestamp.toNat % 2 ^ 24 := by
  have hlt : m.timestamp.toNat % 2 ^ 24 < 2 ^ 24 := Nat.mod_lt _ (by decide)
  rw [Message.truncated, UInt32.toNat_ofNat', Nat.mod_eq_of_lt (by omega)]

theorem Message.write_truncated (m : Message) :
    write3bytes m.truncated.timestamp = write3bytes m.timestamp := by
  rw [write3bytes, m.truncated_toNat]
  exact BigEndian.digits_mod 3 m.timestamp.toNat

/-- On the wire the two are the same. -/
theorem Message.chunks_truncated {m : Message} (hcsid : m.csid < 64) {c : UInt32}
    (hc : 1 ≤ c) : m.truncated.chunks c = m.chunks c := by
  have hlength : (m.truncated.chunks c).length = (m.chunks c).length := by
    rw [chunks_length _ hc, chunks_length _ hc, truncated]
  have hheader : m.truncated.header = m.header := by
    rw [header, write_truncated]
    rfl
  refine List.ext_getElem hlength fun i hi hi' => ?_
  rw [← List.getD_eq_getElem _ [] hi, ← List.getD_eq_getElem _ [] hi',
    getD_chunks hcsid hc hi', @getD_chunks m.truncated hcsid c hc i hi, hheader]
  rfl

theorem Message.Late.sendable_truncated {m : Message} (h : m.Late)
    (hlow : m.timestamp.toNat % 2 ^ 24 ≠ 0xffffff) : m.truncated.Sendable where
  csid_ge := h.csid_ge
  csid_lt := h.csid_lt
  timestamp_lt := by
    have hlt : m.timestamp.toNat % 2 ^ 24 < 2 ^ 24 := Nat.mod_lt _ (by decide)
    rw [UInt32.lt_iff_toNat_lt, m.truncated_toNat,
      show (0xffffff : UInt32).toNat = 0xffffff from rfl]
    omega
  payload_pos := h.payload_pos
  payload_le := h.payload_le

/-- The chunks of one message that are still to be sent. -/
theorem wire_replicate {ι : Type} [DecidableEq ι] {c : UInt32} {msgs : ι → Message} {i : ι}
    {sent : ι → Nat} {n : Nat} (hn : sent i + n = ((msgs i).chunks c).length) :
    wire c msgs sent (List.replicate n i) = (((msgs i).chunks c).drop (sent i)).flatten := by
  induction n generalizing sent with
  | zero =>
    rw [List.drop_eq_nil_of_le (by omega)]
    rfl
  | succ n ih =>
    have hlt : sent i < ((msgs i).chunks c).length := by omega
    rw [List.replicate_succ, wire, ih (by rw [Function.update_self]; omega), Function.update_self,
      List.drop_eq_getElem_cons hlt, List.flatten_cons, List.getD_eq_getElem _ _ hlt]

namespace SessionBase

variable {c : UInt32} {s : SessionBase}

theorem receiveAll_truncated {m : Message} (hm : m.Late)
    (hlow : m.timestamp.toNat % 2 ^ 24 ≠ 0xffffff) (hc : 1 ≤ c) {reads : List Bytes}
    (hne : ∀ data ∈ reads, data ≠ []) (hreads : reads.flatten = (m.chunks c).flatten)
    (hs : s.AtBoundary c) (hmap : ∀ k, s.csMap k = none) :
    (s.receiveAll keepChunkSize reads).2 = [m.truncated] := by
  have hsend := hm.sendable_truncated hlow
  have hrecv : s.Receiving c (fun _ : Unit => m.truncated) (fun _ => 0) :=
    ⟨hs, fun i hi => absurd hi.1 (by simp), fun k cs hk => absurd hk (by simp [hmap k])⟩
  have hcount : (m.truncated.chunks c).length ≠ 0 := by
    have hpos := (lt_chunkCount_iff (toNat_pos_of_one_le hc)).mpr
      (show 0 * c.toNat < m.truncated.payload.length by have := hsend.payload_pos; omega)
    rw [Message.chunks_length _ hc]
    omega
  have hf : Finishes c (fun _ : Unit => m.truncated) (fun _ => 0)
      (List.replicate (m.truncated.chunks c).length ()) :=
    ⟨fun i => by simp, fun front i back _ j _ _ => rfl⟩
  have hwire : reads.flatten = wire c (fun _ : Unit => m.truncated) (fun _ => 0)
      (List.replicate (m.truncated.chunks c).length ()) := by
    rw [@wire_replicate Unit _ _ _ () _ _ (Nat.zero_add _), List.drop_zero,
      Message.chunks_truncated hm.csid_lt hc, hreads]
  rw [(hrecv.receiveAll_wire hc (fun _ => hsend) hf hne hwire).2, List.replicate_dedup hcount]
  rfl

end SessionBase

/-! ## Bytes that are missing

The counting that follows does not look at what the bytes are. -/

/-- At most one chunk more is needed for as many bytes as a chunk holds. -/
theorem chunkCount_add_le {len more c : Nat} (hc : 0 < c) (h : more ≤ c) :
    chunkCount (len + more) c ≤ chunkCount len c + 1 := by
  by_contra hlt
  have hmore := (lt_chunkCount_iff hc).mp (Nat.lt_of_not_le hlt)
  have hlen : len ≤ chunkCount len c * c :=
    Nat.le_of_not_lt fun h => Nat.lt_irrefl _ ((lt_chunkCount_iff hc).mpr h)
  rw [Nat.add_mul, Nat.one_mul] at hmore
  omega

theorem chunkCount_zero (c : Nat) : chunkCount 0 c = 0 := by
  simp [chunkCount]

namespace ChunkStream

variable {c : UInt32} {cs cs' : ChunkStream} {buffer buffer' : DataBuffer} {ret : RtmpRet}

/-- The bytes that were read for the payload a chunk stream holds: the payload itself, and a
basic header for each chunk of it. -/
def cost (c : UInt32) (cs : ChunkStream) : Nat :=
  cs.chunkData.length + chunkCount cs.chunkData.length c.toNat

theorem cost_of_nil (h : cs.chunkData = []) : cs.cost c = 0 := by
  rw [cost, h, List.length_nil, chunkCount_zero]

/-- A message header leaves the payload, or begins another message. -/
theorem readMsgHeader_chunkData {inputFmt : UInt8} {inputCsid : UInt16}
    (h : readMsgHeader cs buffer inputFmt inputCsid = (ret, cs', buffer')) :
    cs'.chunkData = cs.chunkData ∨ cs'.chunkData = [] := by
  unfold readMsgHeader readMsgFormat0 readMsgFormat1 readMsgFormat2 readMsgFormat3 at h
  simp only [readMsgFormat_eq] at h
  split_ifs at h
  all_goals first
    | (cases h; exact Or.inl rfl)
    | (split at h <;> cases h
       · exact Or.inl rfl
       · first | exact Or.inr rfl | exact Or.inl rfl)

theorem readMessageHeader_cost {inputFmt : UInt8} {inputCsid : UInt16}
    (h : readMessageHeader cs buffer inputFmt inputCsid = (ret, cs', buffer')) :
    cs'.chunkSize = cs.chunkSize ∧ cs'.cost c ≤ cs.cost c ∧ buffer'.length ≤ buffer.length := by
  have hlength := (readMessageHeader_lawful inputFmt inputCsid).length_le h
  unfold readMessageHeader at h
  split_ifs at h with hphase
  · cases h
    exact ⟨rfl, Nat.le_refl _, hlength⟩
  · rcases hr : readMsgHeader cs buffer inputFmt inputCsid with ⟨r, cs₁, b₁⟩
    have hsize := (readMsgHeader_frame hr).2.1
    have hcost : cs₁.cost c ≤ cs.cost c := by
      rcases readMsgHeader_chunkData hr with hdata | hdata
      · rw [cost, hdata]
        exact Nat.le_refl _
      · rw [cost_of_nil hdata]
        exact Nat.zero_le _
    rw [hr] at h
    cases r with
    | ok =>
      cases h
      exact ⟨hsize, hcost, hlength⟩
    | needReadMore =>
      cases h
      exact ⟨hsize, hcost, hlength⟩
    | error =>
      cases h
      exact ⟨hsize, hcost, hlength⟩

/-- A payload is paid for with its own bytes and with the basic header before it. -/
theorem readMessagePayload_cost (hc : 1 ≤ c) (hsize : cs.chunkSize = c)
    (h : readMessagePayload cs buffer = (ret, cs', buffer')) :
    cs'.chunkSize = c ∧
      cs'.cost c + buffer'.length ≤ cs.cost c + buffer.length + if ret = .ok then 1 else 0 := by
  by_cases hphase : cs.phase = .payload
  · rw [readMessagePayload_eq hphase] at h
    split_ifs at h with hlen
    · cases h
      exact ⟨hsize, Nat.le_refl _⟩
    · cases h
      have hle : cs.payloadLen ≤ c.toNat := by
        rw [payloadLen, hsize]
        split
        · exact Nat.le_refl _
        · omega
      have htake : (buffer.take cs.payloadLen).length = cs.payloadLen :=
        List.length_take_of_le (Nat.le_of_not_lt hlen)
      have hcount := @chunkCount_add_le cs.chunkData.length _ _ (toNat_pos_of_one_le hc) hle
      refine ⟨hsize, ?_⟩
      simp only [cost, acceptPayload, DataBuffer.appendData, List.length_append, htake,
        List.length_drop, if_true]
      omega
  · rw [readMessagePayload, if_pos hphase] at h
    cases h
    exact ⟨hsize, Nat.le_add_right _ _⟩

end ChunkStream

namespace SessionBase

variable {c : UInt32} {s s' : SessionBase} {extra pushed : Nat}

theorem readMessage_cost {fmt : UInt8} {csid : UInt16} {cs cs' : ChunkStream}
    {buffer buffer' : DataBuffer} {ret : RtmpRet} (hc : 1 ≤ c) (hsize : cs.chunkSize = c)
    (h : readMessage fmt csid cs buffer = (ret, cs', buffer')) :
    cs'.chunkSize = c ∧
      cs'.cost c + buffer'.length ≤ cs.cost c + buffer.length + if ret = .ok then 1 else 0 := by
  unfold readMessage at h
  rcases hr : cs.readMessageHeader buffer fmt csid with ⟨r, cs₁, b₁⟩
  obtain ⟨hsize₁, hcost, hlength⟩ := @ChunkStream.readMessageHeader_cost c _ _ _ _ _ _ _ hr
  rw [hr] at h
  cases r with
  | ok =>
    obtain ⟨hsize', hcost'⟩ := ChunkStream.readMessagePayload_cost hc (hsize₁.trans hsize) h
    exact ⟨hsize', by omega⟩
  | needReadMore =>
    cases h
    exact ⟨hsize₁.trans hsize, by simp only [reduceCtorEq, if_false]; omega⟩
  | error =>
    cases h
    exact ⟨hsize₁.trans hsize, by simp only [reduceCtorEq, if_false]; omega⟩

/-- Of `pushed` bytes, `extra` have been lost.  The others are unread, or they are a basic
header that is pending, or they were read for the payload of a chunk stream. -/
structure Spent (c : UInt32) (extra pushed : Nat) (s : SessionBase) : Prop where
  chunkSize : s.chunkSize = c
  pending_le : s.pending + extra ≤ pushed
  streams : ∀ k cs, s.csMap k = some cs →
    cs.chunkSize = c ∧ s.pending + cs.cost c + extra ≤ pushed

/-- The messages that can be delivered for `pushed` bytes. -/
def Affordable (c : UInt32) (extra pushed : Nat) (out : List Message) : Prop :=
  ∀ m ∈ out, m.payload.length + chunkCount m.payload.length c.toNat + extra ≤ pushed

theorem Spent.currentStream (h : s.Spent c extra pushed) :
    s.currentStream.chunkSize = c ∧ s.pending + s.currentStream.cost c + extra ≤ pushed := by
  rw [SessionBase.currentStream]
  rcases hk : s.csMap (mapKey s.csid) with _ | cs
  · refine ⟨h.chunkSize, ?_⟩
    rw [Option.getD_none, ChunkStream.cost_of_nil rfl]
    exact h.pending_le
  · exact h.streams _ cs hk

/-- Filing a stream pays for what it holds. -/
theorem Spent.update (h : s.Spent c extra pushed) {cs : ChunkStream} (key : UInt8)
    (hcsMap : s'.csMap = Function.update s.csMap key (some cs))
    (hchunkSize : s'.chunkSize = s.chunkSize) (hpending : s'.pending ≤ s.pending)
    (hsize : cs.chunkSize = c) (hcost : s'.pending + cs.cost c + extra ≤ pushed) :
    s'.Spent c extra pushed where
  chunkSize := hchunkSize.trans h.chunkSize
  pending_le := by
    have hle := h.pending_le
    omega
  streams k cs' hk := by
    rw [hcsMap] at hk
    by_cases hkey : k = key
    · rw [hkey, Function.update_self, Option.some.injEq] at hk
      subst hk
      exact ⟨hsize, hcost⟩
    · rw [Function.update_of_ne hkey] at hk
      obtain ⟨hsize', hcost'⟩ := h.streams k cs' hk
      exact ⟨hsize', by omega⟩

/-- A basic header that is not read may be lost, and nothing else changes. -/
theorem readFmtCsid_frame {ret : RtmpRet} (h : s.readFmtCsid = (ret, s')) :
    s'.recvBuffer.length ≤ s.recvBuffer.length ∧ s'.fmtReady = s.fmtReady ∧
      s'.csMap = s.csMap ∧ s'.chunkSize = s.chunkSize := by
  unfold readFmtCsid at h
  rcases hb : s.recvBuffer with _ | ⟨p, rest⟩
  · rw [hb] at h
    cases h
    exact ⟨Nat.le_of_eq (by rw [hb]), rfl, rfl, rfl⟩
  · simp only [hb] at h
    split_ifs at h with h0 h1
    · rcases rest with _ | ⟨q, rest⟩
      · cases h
        exact ⟨Nat.zero_le _, rfl, rfl, rfl⟩
      · cases h
        exact ⟨by simp only [List.length_cons]; omega, rfl, rfl, rfl⟩
    · rcases rest with _ | ⟨q, _ | ⟨r, rest⟩⟩
      · cases h
        exact ⟨Nat.zero_le _, rfl, rfl, rfl⟩
      · cases h
        exact ⟨by simp, rfl, rfl, rfl⟩
      · cases h
        exact ⟨by simp only [List.length_cons]; omega, rfl, rfl, rfl⟩
    · cases h
      exact ⟨by simp, rfl, rfl, rfl⟩

/-- A basic header is moved from the unread bytes to the pending ones, or lost. -/
theorem readBasicHeader_pending {ret : RtmpRet} (h : s.readBasicHeader = (ret, s')) :
    s'.pending ≤ s.pending ∧ s'.csMap = s.csMap ∧ s'.chunkSize = s.chunkSize := by
  by_cases hret : ret = .ok
  · subst hret
    obtain ⟨hready, hlt, hcsMap, hchunkSize⟩ := readBasicHeader_ok h
    refine ⟨?_, hcsMap, hchunkSize⟩
    rw [pending, hready, if_pos rfl]
    omega
  · unfold SessionBase.readBasicHeader at h
    split_ifs at h with hready
    · cases h
      exact absurd rfl hret
    · rcases hr : s.readFmtCsid with ⟨r, s₁⟩
      obtain ⟨hle, hfmt, hcsMap, hchunkSize⟩ := readFmtCsid_frame hr
      have hpending : s₁.pending ≤ s.pending := by
        rw [pending, pending, hfmt]
        omega
      rw [hr] at h
      cases r with
      | ok =>
        cases h
        exact absurd rfl hret
      | needReadMore =>
        cases h
        exact ⟨hpending, hcsMap, hchunkSize⟩
      | error =>
        cases h
        exact ⟨hpending, hcsMap, hchunkSize⟩

theorem Spent.readBasicHeader (h : s.Spent c extra pushed) {ret : RtmpRet}
    (hr : s.readBasicHeader = (ret, s')) : s'.Spent c extra pushed := by
  obtain ⟨hpending, hcsMap, hchunkSize⟩ := readBasicHeader_pending hr
  have hle := h.pending_le
  refine ⟨hchunkSize.trans h.chunkSize, by omega, fun k cs hk => ?_⟩
  rw [hcsMap] at hk
  obtain ⟨hsize, hcost⟩ := h.streams k cs hk
  exact ⟨hsize, by omega⟩

/-- The bytes of a session whose stream has returned. -/
theorem pending_fileStream (hready : s.fmtReady = true) (r : RtmpRet × ChunkStream × DataBuffer) :
    (s.fileStream r).2.pending = r.2.2.length + if r.1 = .ok then 0 else 1 := by
  by_cases hok : r.1 = .ok
  · simp [pending, fileStream, hok]
  · simp [pending, fileStream, hok, hready]

theorem Spent.readCurrentStream (h : s.Spent c extra pushed) (hc : 1 ≤ c)
    (hready : s.fmtReady = true) {ret : RtmpRet} (hr : s.readCurrentStream = (ret, s')) :
    s'.Spent c extra pushed := by
  rcases hm : readMessage s.fmt s.csid s.currentStream s.recvBuffer with ⟨r, cs, b⟩
  obtain ⟨hcur, hcost⟩ := h.currentStream
  obtain ⟨hsize, hcost'⟩ := readMessage_cost hc hcur hm
  have hlength := (readMessage_lawful s.fmt s.csid).length_le hm
  rw [SessionBase.readCurrentStream, hm] at hr
  have hs' : (s.fileStream (r, cs, b)).2 = s' := congrArg Prod.snd hr
  have hpending : s.pending = s.recvBuffer.length + 1 := by
    simp [pending, hready]
  have hpending' := pending_fileStream hready (r, cs, b)
  simp only [hs'] at hpending'
  refine h.update (mapKey s.csid) (hs' ▸ rfl) (hs' ▸ rfl) ?_ hsize ?_
  · rw [hpending', hpending]
    split
    · omega
    · omega
  · rw [hpending']
    split_ifs at hcost' ⊢
    · omega
    · omega

theorem Spent.readChunkStream (h : s.Spent c extra pushed) (hc : 1 ≤ c) {ret : RtmpRet}
    (hr : s.readChunkStream = (ret, s')) : s'.Spent c extra pushed := by
  unfold SessionBase.readChunkStream at hr
  rcases hb : s.readBasicHeader with ⟨r, s₁⟩
  have hs₁ := h.readBasicHeader hb
  rw [hb] at hr
  cases r with
  | ok => exact hs₁.readCurrentStream hc (readBasicHeader_ok hb).1 hr
  | needReadMore =>
    cases hr
    exact hs₁
  | error =>
    cases hr
    exact hs₁

/-- A message that is delivered has been paid for. -/
theorem Spent.deliver (h : s.Spent c extra pushed) :
    (s.deliver keepChunkSize).1.Spent c extra pushed ∧
      Affordable c extra pushed (s.deliver keepChunkSize).2 := by
  obtain ⟨hsize, hcost⟩ := h.currentStream
  have hle := h.pending_le
  unfold SessionBase.deliver
  split_ifs with hready
  · constructor
    · refine h.update (mapKey s.csid) rfl rfl (Nat.le_refl _) hsize ?_
      rw [ChunkStream.cost_of_nil rfl]
      exact hle
    · intro m hm
      rw [List.mem_singleton] at hm
      rw [hm]
      show s.currentStream.cost c + extra ≤ pushed
      omega
  · exact ⟨h, fun m hm => absurd hm List.not_mem_nil⟩

theorem Affordable.append {out out' : List Message} (h : Affordable c extra pushed out)
    (h' : Affordable c extra pushed out') : Affordable c extra pushed (out ++ out') :=
  List.forall_mem_append.mpr ⟨h, h'⟩

theorem receiveTurn_of_ok (h : s.readChunkStream = (.ok, s')) :
    s.receiveTurn keepChunkSize =
      .step (s'.deliver keepChunkSize).1 (s'.deliver keepChunkSize).2 := by
  rw [receiveTurn, h]

theorem receiveTurn_of_wait {ret : RtmpRet} (h : s.readChunkStream = (ret, s'))
    (hret : ret ≠ .ok) : s.receiveTurn keepChunkSize = .wait s' := by
  rw [receiveTurn, h]
  cases ret with
  | ok => exact absurd rfl hret
  | needReadMore => rfl
  | error => rfl

theorem exists_of_turn_wait (h : s.receiveTurn keepChunkSize = .wait s') :
    ∃ ret, s.readChunkStream = (ret, s') := by
  rcases hr : s.readChunkStream with ⟨ret, s₁⟩
  by_cases hret : ret = .ok
  · subst hret
    rw [receiveTurn_of_ok hr] at h
    cases h
  · rw [receiveTurn_of_wait hr hret] at h
    cases h
    exact ⟨ret, rfl⟩

theorem exists_of_turn_step {out : List Message}
    (h : s.receiveTurn keepChunkSize = .step s' out) :
    ∃ s₁, s.readChunkStream = (.ok, s₁) ∧ s₁.deliver keepChunkSize = (s', out) := by
  rcases hr : s.readChunkStream with ⟨ret, s₁⟩
  by_cases hret : ret = .ok
  · subst hret
    rw [receiveTurn_of_ok hr] at h
    cases h
    exact ⟨s₁, rfl, rfl⟩
  · rw [receiveTurn_of_wait hr hret] at h
    cases h

theorem Spent.consume (h : s.Spent c extra pushed) (hc : 1 ≤ c) :
    ((chunkConsumer keepChunkSize).consume s).1.Spent c extra pushed ∧
      Affordable c extra pushed ((chunkConsumer keepChunkSize).consume s).2 := by
  induction s using (chunkConsumer keepChunkSize).consume_induction with
  | wait s s' hturn =>
    rw [Consumer.consume_of_wait _ hturn]
    obtain ⟨ret, hr⟩ := exists_of_turn_wait hturn
    exact ⟨h.readChunkStream hc hr, fun m hm => absurd hm List.not_mem_nil⟩
  | step s s' out hturn ih =>
    rw [Consumer.consume_of_step _ hturn]
    obtain ⟨s₁, hr, hdeliver⟩ := exists_of_turn_step hturn
    obtain ⟨hspent, hout⟩ := (h.readChunkStream hc hr).deliver
    rw [hdeliver] at hspent hout
    obtain ⟨hspent', hout'⟩ := ih hspent
    exact ⟨hspent', hout.append hout'⟩

theorem Spent.push (h : s.Spent c extra pushed) (data : Bytes) :
    (s.push data).Spent c extra (pushed + data.length) := by
  have hpending : (s.push data).pending = s.pending + data.length := by
    simp only [pending, SessionBase.push, DataBuffer.appendData, List.length_append]
    exact Nat.add_right_comm _ _ _
  have hle := h.pending_le
  refine ⟨h.chunkSize, by omega, fun k cs hk => ?_⟩
  obtain ⟨hsize, hcost⟩ := h.streams k cs hk
  exact ⟨hsize, by omega⟩

theorem Affordable.mono {out : List Message} (h : Affordable c extra pushed out) {n : Nat}
    (hn : pushed ≤ n) : Affordable c extra n out :=
  fun m hm => Nat.le_trans (h m hm) hn

/-- **Run.**  No read of whatever bytes delivers more payload than was pushed. -/
theorem Spent.receiveAll (h : s.Spent c extra pushed) (hc : 1 ≤ c) (reads : List Bytes) :
    Affordable c extra (pushed + reads.flatten.length)
      (s.receiveAll keepChunkSize reads).2 := by
  induction reads generalizing s pushed with
  | nil => exact fun m hm => absurd hm List.not_mem_nil
  | cons data reads ih =>
    obtain ⟨hspent, hout⟩ := (h.push data).consume hc
    rw [SessionBase.receiveAll, receive_eq_consume, List.flatten_cons, List.length_append,
      ← Nat.add_assoc]
    exact (hout.mono (Nat.le_add_right _ _)).append (ih hspent)

/-! ## The timestamp that is read from the payload -/

/-- The basic header of the first chunk is read, and its message header is not. -/
structure Opening (c : UInt32) (s : SessionBase) : Prop where
  fmtReady : s.fmtReady = true
  fmt : s.fmt = 0
  chunkSize : s.chunkSize = c
  streams : ∀ k cs, s.csMap k = some cs →
    cs.phase = .header ∧ cs.chunkSize = c ∧ cs.chunkData = []

theorem Opening.currentStream (h : s.Opening c) : s.currentStream.phase = .header ∧
    s.currentStream.chunkSize = c ∧ s.currentStream.chunkData = [] := by
  rw [SessionBase.currentStream]
  rcases hk : s.csMap (mapKey s.csid) with _ | cs
  · exact ⟨rfl, h.chunkSize, rfl⟩
  · exact h.streams _ cs hk

/-- The bytes behind a basic header, as far as they have come, are those of a header with
the sign of an extended timestamp. -/
def Signed (buffer : Bytes) : Prop := ∃ later rest, buffer ++ later = [0xff, 0xff, 0xff] ++ rest

theorem Signed.read3bytes {buffer : Bytes} (h : Signed buffer) {n : Nat} (hn : 3 ≤ n)
    (hlen : n ≤ buffer.length) : read3bytes (buffer.take n) = 0xffffff := by
  obtain ⟨later, rest, heq⟩ := h
  have htake : buffer.take 3 = [0xff, 0xff, 0xff] := by
    rw [← List.take_append_of_le_length (by omega), heq]
    rfl
  rw [MediaServer.read3bytes, List.take_take, Nat.min_eq_left hn, htake]
  rfl

/-- The message header takes fifteen bytes, or it is still awaited. -/
theorem Opening.readMessage (h : s.Opening c) (hsigned : Signed s.recvBuffer) (hc : 1 ≤ c) :
    ∃ ret cs b, SessionBase.readMessage s.fmt s.csid s.currentStream s.recvBuffer = (ret, cs, b) ∧
      cs.chunkSize = c ∧
      ((ret ≠ .ok ∧ b = s.recvBuffer ∧ cs.phase = .header ∧ cs.chunkData = []) ∨
        cs.cost c + b.length + 15 ≤ s.recvBuffer.length + if ret = .ok then 1 else 0) := by
  obtain ⟨hphase, hsize, hdata⟩ := h.currentStream
  have hpayload : ∀ cs₁ b₁, cs₁.chunkSize = c → cs₁.chunkData = [] →
      b₁.length + 15 = s.recvBuffer.length →
      ∃ ret cs b, ChunkStream.readMessagePayload cs₁ b₁ = (ret, cs, b) ∧ cs.chunkSize = c ∧
        ((ret ≠ .ok ∧ b = s.recvBuffer ∧ cs.phase = .header ∧ cs.chunkData = []) ∨
          cs.cost c + b.length + 15 ≤ s.recvBuffer.length + if ret = .ok then 1 else 0) := by
    intro cs₁ b₁ hsize₁ hdata₁ hlen
    rcases hp : ChunkStream.readMessagePayload cs₁ b₁ with ⟨ret, cs, b⟩
    obtain ⟨hsize', hcost⟩ := ChunkStream.readMessagePayload_cost hc hsize₁ hp
    rw [ChunkStream.cost_of_nil hdata₁] at hcost
    exact ⟨ret, cs, b, rfl, hsize', Or.inr (by omega)⟩
  have hheader : ∀ csid, s.currentStream.readMsgHeader s.recvBuffer 0 csid =
      ChunkStream.readMsgFormat0 s.currentStream s.recvBuffer 0 csid := fun _ => rfl
  rw [SessionBase.readMessage, ChunkStream.readMessageHeader, if_neg (by simp [hphase]), h.fmt,
    hheader, ChunkStream.readMsgFormat0, ChunkStream.readMsgFormat_eq]
  by_cases hshort : s.recvBuffer.length < ChunkStream.FORMAT0_HEADER_LEN
  · rw [if_pos hshort]
    exact ⟨_, _, _, rfl, hsize, Or.inl ⟨by decide, rfl, hphase, hdata⟩⟩
  · rw [if_neg hshort, hsigned.read3bytes (by decide) (Nat.le_of_not_lt hshort),
      if_pos (by decide)]
    by_cases hext : s.recvBuffer.length <
        ChunkStream.FORMAT0_HEADER_LEN + ChunkStream.EXT_TS_LEN
    · rw [if_pos hext]
      exact ⟨_, _, _, rfl, hsize, Or.inl ⟨by decide, rfl, hphase, hdata⟩⟩
    · rw [if_neg hext]
      refine hpayload _ _ hsize hdata ?_
      rw [List.length_drop]
      exact Nat.sub_add_cancel (Nat.le_of_not_lt hext)

/-- A session that has read a basic header goes on with the message header. -/
theorem Opening.readChunkStream (h : s.Opening c) :
    s.readChunkStream = s.readCurrentStream := by
  rw [SessionBase.readChunkStream, readBasicHeader, if_pos h.fmtReady]

theorem Opening.fileStream (h : s.Opening c) {ret : RtmpRet} (hret : ret ≠ .ok)
    {cs : ChunkStream} (hphase : cs.phase = .header) (hsize : cs.chunkSize = c)
    (hdata : cs.chunkData = []) (b : DataBuffer) :
    (s.fileStream (ret, cs, b)).2.Opening c where
  fmtReady := by
    simp only [SessionBase.fileStream, hret, if_false]
    exact h.fmtReady
  fmt := h.fmt
  chunkSize := h.chunkSize
  streams k cs' hk := by
    simp only [SessionBase.fileStream] at hk
    by_cases hkey : k = mapKey s.csid
    · rw [hkey, Function.update_self, Option.some.injEq] at hk
      subst hk
      exact ⟨hphase, hsize, hdata⟩
    · rw [Function.update_of_ne hkey] at hk
      exact h.streams k cs' hk

/-- When the message header has been read, fifteen bytes are lost. -/
theorem Opening.spent (h : s.Opening c) {ret : RtmpRet} {cs : ChunkStream} {b : DataBuffer}
    (hsize : cs.chunkSize = c)
    (hcost : cs.cost c + b.length + 15 ≤ s.recvBuffer.length + if ret = .ok then 1 else 0) :
    (s.fileStream (ret, cs, b)).2.Spent c 15 (s.recvBuffer.length + 1) := by
  have hpending := pending_fileStream h.fmtReady (ret, cs, b)
  have hle : (s.fileStream (ret, cs, b)).2.pending + cs.cost c + 15 ≤ s.recvBuffer.length + 1 := by
    rw [hpending]
    simp only
    split_ifs at hcost ⊢
    · omega
    · omega
  refine ⟨h.chunkSize, by omega, fun k cs' hk => ?_⟩
  simp only [SessionBase.fileStream] at hk
  by_cases hkey : k = mapKey s.csid
  · rw [hkey, Function.update_self, Option.some.injEq] at hk
    subst hk
    exact ⟨hsize, hle⟩
  · rw [Function.update_of_ne hkey] at hk
    obtain ⟨-, hsize', hdata⟩ := h.streams k cs' hk
    rw [ChunkStream.cost_of_nil hdata]
    exact ⟨hsize', by omega⟩

/-- The reads of a message whose header announces an extended timestamp.  The session waits
for the header, or it has lost fifteen bytes. -/
theorem Opening.consume (h : s.Opening c) (hsigned : Signed s.recvBuffer) (hc : 1 ≤ c) :
    (∃ s', (chunkConsumer keepChunkSize).consume s = (s', []) ∧ s'.Opening c ∧
        s'.recvBuffer = s.recvBuffer) ∨
      ((chunkConsumer keepChunkSize).consume s).1.Spent c 15 (s.recvBuffer.length + 1) ∧
        Affordable c 15 (s.recvBuffer.length + 1)
          ((chunkConsumer keepChunkSize).consume s).2 := by
  obtain ⟨ret, cs, b, hread, hsize, hcase⟩ := h.readMessage hsigned hc
  have hchunk : s.readChunkStream = (ret, (s.fileStream (ret, cs, b)).2) := by
    rw [h.readChunkStream, readCurrentStream, hread]
    rfl
  by_cases hret : ret = .ok
  · subst hret
    rcases hcase with ⟨hret, -⟩ | hcost
    · exact absurd rfl hret
    · obtain ⟨hspent, hout⟩ := (h.spent hsize hcost).deliver
      obtain ⟨hspent', hout'⟩ := hspent.consume hc
      rw [Consumer.consume_of_step _ (receiveTurn_of_ok hchunk)]
      exact Or.inr ⟨hspent', hout.append hout'⟩
  · rw [Consumer.consume_of_wait _ (receiveTurn_of_wait hchunk hret)]
    rcases hcase with ⟨-, rfl, hphase, hdata⟩ | hcost
    · exact Or.inl ⟨_, rfl, h.fileStream hret hphase hsize hdata _, rfl⟩
    · exact Or.inr ⟨h.spent hsize hcost, fun m hm => absurd hm List.not_mem_nil⟩

theorem Signed.of_append {buffer e : Bytes} (h : Signed (buffer ++ e)) : Signed buffer := by
  obtain ⟨later, rest, heq⟩ := h
  exact ⟨e ++ later, rest, by rw [← List.append_assoc, heq]⟩

theorem Opening.receiveAll (h : s.Opening c) (hc : 1 ≤ c) (reads : List Bytes)
    (hsigned : Signed (s.recvBuffer ++ reads.flatten)) :
    Affordable c 15 (s.recvBuffer.length + 1 + reads.flatten.length)
      (s.receiveAll keepChunkSize reads).2 := by
  induction reads generalizing s with
  | nil => exact fun m hm => absurd hm List.not_mem_nil
  | cons data reads ih =>
    have hpush : (s.push data).Opening c := ⟨h.fmtReady, h.fmt, h.chunkSize, h.streams⟩
    have hbuffer : (s.push data).recvBuffer = s.recvBuffer ++ data := rfl
    rw [List.flatten_cons, ← List.append_assoc, ← hbuffer] at hsigned
    have hlength : s.recvBuffer.length + 1 + (data :: reads).flatten.length =
        (s.push data).recvBuffer.length + 1 + reads.flatten.length := by
      rw [hbuffer, List.flatten_cons, List.length_append, List.length_append]
      omega
    rw [SessionBase.receiveAll, receive_eq_consume, hlength]
    rcases hpush.consume hsigned.of_append hc with ⟨s', heq, hopen, hkeep⟩ | ⟨hspent, hout⟩
    · rw [heq, ← hkeep]
      exact ih hopen (hkeep.symm ▸ hsigned)
    · exact (hout.mono (Nat.le_add_right _ _)).append (hspent.receiveAll hc reads)

/-- The first byte of a stream is its basic header. -/
theorem receiveAll_first (hs : s.AtBoundary c) {csid : UInt16} (hge : 2 ≤ csid) (hlt : csid < 64)
    (data : Bytes) (reads : List Bytes) :
    s.receiveAll keepChunkSize ((basicByte 0 csid :: data) :: reads) =
      (s.withBasic 0 csid []).receiveAll keepChunkSize (data :: reads) := by
  have hbasic : ((s.withBasic 0 csid []).push data).readBasicHeader =
      (.ok, s.withBasic 0 csid data) := by
    rw [readBasicHeader, if_pos (by rfl)]
    rfl
  have hturn : (chunkConsumer keepChunkSize).turn (s.push (basicByte 0 csid :: data)) =
      (chunkConsumer keepChunkSize).turn ((s.withBasic 0 csid []).push data) := by
    show receiveTurn _ _ = receiveTurn _ _
    rw [receiveTurn, receiveTurn, readChunkStream, readChunkStream, hbasic,
      readBasicHeader_oneByte hs (by decide) hge hlt]
  rw [SessionBase.receiveAll, SessionBase.receiveAll, receive_eq_consume, receive_eq_consume,
    Consumer.consume_congr _ hturn]

end SessionBase

/-! ## Messages that do not arrive -/

/-- The bytes of the first chunks of a message. -/
theorem Message.length_take_chunks {m : Message} (hcsid : m.csid < 64) {c : UInt32} (hc : 1 ≤ c)
    {n : Nat} (hn : n ≤ (m.chunks c).length) :
    ((m.chunks c).take n).flatten.length =
      (m.payload.take (n * c.toNat)).length + n + if n = 0 then 0 else 11 := by
  induction n with
  | zero => simp
  | succ n ih =>
    have hpart := congrArg List.length (m.take_part c n)
    have hchunk := getD_chunks hcsid hc hn
    rw [List.getD_eq_getElem _ _ hn] at hchunk
    rw [List.length_append] at hpart
    rw [List.take_add_one, List.getElem?_eq_getElem hn, Option.toList_some, List.flatten_append,
      List.length_append, ih (Nat.le_of_succ_le hn), List.flatten_singleton, hchunk, ← hpart,
      if_neg (Nat.succ_ne_zero n)]
    split_ifs with hzero
    · subst hzero
      simp only [List.length_cons, List.length_append, Message.header, write3bytes_length,
        write4bytes_length, List.length_nil]
      omega
    · rw [List.length_cons]
      omega

/-- The writer sends eleven bytes of header, and a byte for each chunk. -/
theorem Message.length_chunks_le {m : Message} (hcsid : m.csid < 64) {c : UInt32} (hc : 1 ≤ c) :
    (m.chunks c).flatten.length ≤
      m.payload.length + chunkCount m.payload.length c.toNat + 11 := by
  have hlen := length_take_chunks hcsid hc (Nat.le_refl (m.chunks c).length)
  have htake := List.length_take_le' (chunkCount m.payload.length c.toNat * c.toNat) m.payload
  rw [List.take_length, m.chunks_length hc] at hlen
  rw [hlen]
  split_ifs
  · omega
  · omega

theorem Message.write3bytes_sign {m : Message} (hlow : m.timestamp.toNat % 2 ^ 24 = 0xffffff) :
    write3bytes m.timestamp = [0xff, 0xff, 0xff] := by
  have hdigits := BigEndian.digits_mod 3 m.timestamp.toNat
  rw [show (256 : Nat) ^ 3 = 2 ^ 24 from rfl, hlow] at hdigits
  rw [write3bytes, ← hdigits]
  rfl

/-- The first byte of a message, and the header behind it. -/
theorem Message.Late.exists_chunks {m : Message} (hm : m.Late) {c : UInt32} (hc : 1 ≤ c) :
    ∃ rest, (m.chunks c).flatten = basicByte 0 m.csid :: (m.header ++ rest) := by
  have hpos : 0 < (m.chunks c).length := by
    rw [m.chunks_length hc, lt_chunkCount_iff (toNat_pos_of_one_le hc), Nat.zero_mul]
    exact hm.payload_pos
  have hfirst := getD_chunks hm.csid_lt hc hpos
  rcases hchunks : m.chunks c with _ | ⟨first, rest⟩
  · rw [hchunks] at hpos
    exact absurd hpos (Nat.lt_irrefl 0)
  · rw [hchunks, List.getD_cons_zero, if_pos rfl] at hfirst
    rw [List.flatten_cons, hfirst, List.cons_append, List.append_assoc]
    exact ⟨_, rfl⟩

namespace SessionBase

variable {c : UInt32} {s : SessionBase}

/-- A message whose timestamp ends in 24 ones is longer than what can be delivered. -/
theorem affordable_sign {m : Message} (hm : m.Late)
    (hlow : m.timestamp.toNat % 2 ^ 24 = 0xffffff) (hc : 1 ≤ c) {reads : List Bytes}
    (hne : ∀ data ∈ reads, data ≠ []) (hreads : reads.flatten = (m.chunks c).flatten)
    (hs : s.AtBoundary c) (hmap : ∀ k, s.csMap k = none) :
    Affordable c 15 (m.chunks c).flatten.length (s.receiveAll keepChunkSize reads).2 := by
  obtain ⟨rest, hchunks⟩ := hm.exists_chunks hc
  rw [hchunks] at hreads ⊢
  rcases reads with _ | ⟨_ | ⟨byte, data⟩, reads⟩
  · cases hreads
  · exact absurd rfl (hne [] List.mem_cons_self)
  · rw [List.flatten_cons, List.cons_append, List.cons.injEq] at hreads
    obtain ⟨rfl, hrest⟩ := hreads
    rw [receiveAll_first hs hm.csid_ge hm.csid_lt, ← hrest]
    have hopen : (s.withBasic 0 m.csid []).Opening c :=
      ⟨rfl, rfl, hs.chunkSize, fun k cs hk => absurd hk (by simp [withBasic, hmap k])⟩
    have hsigned : Signed ((s.withBasic 0 m.csid []).recvBuffer ++ (data :: reads).flatten) := by
      refine ⟨[], write3bytes (UInt32.ofNat m.payload.length) ++
        ([m.typeId] ++ (write4bytes m.msgStreamId ++ rest)), ?_⟩
      show data ++ reads.flatten ++ [] = _
      rw [hrest, Message.header, Message.write3bytes_sign hlow, List.append_nil]
      simp only [List.append_assoc]
    refine (hopen.receiveAll hc (data :: reads) hsigned).mono ?_
    rw [List.flatten_cons, List.length_cons]
    show 0 + 1 + _ ≤ _
    omega

/-- **Large timestamps.**  A message with a timestamp of `0xffffff` or more does not arrive,
whatever the chunk size is and however its bytes are read. -/
theorem late_not_delivered {m : Message} (hm : m.Late) (hc : 1 ≤ c) {reads : List Bytes}
    (hne : ∀ data ∈ reads, data ≠ []) (hreads : reads.flatten = (m.chunks c).flatten)
    (hs : s.AtBoundary c) (hmap : ∀ k, s.csMap k = none) :
    ¬ ∃ m', (s.receiveAll keepChunkSize reads).2 = [m'] ∧ m'.timestamp = m.timestamp ∧
      m'.payload = m.payload := by
  rintro ⟨m', hout, htimestamp, hpayload⟩
  by_cases hlow : m.timestamp.toNat % 2 ^ 24 = 0xffffff
  · -- the header takes four bytes more than were sent for it
    have hafford := affordable_sign hm hlow hc hne hreads hs hmap
    rw [hout] at hafford
    have hle := hafford m' (List.mem_singleton_self m')
    have hsent := Message.length_chunks_le hm.csid_lt hc
    rw [hpayload] at hle
    omega
  · rw [receiveAll_truncated hm hlow hc hne hreads hs hmap, List.cons.injEq] at hout
    have hnat := congrArg UInt32.toNat htimestamp
    rw [← hout.1, m.truncated_toNat] at hnat
    have hge : 0xffffff ≤ m.timestamp.toNat := UInt32.le_iff_toNat_le.mp hm.timestamp_ge
    omega

/-- The first timestamp that has 25 bits, on a message of one byte. -/
theorem late_not_delivered_one :
    ¬ ∃ m', (receiveAll keepChunkSize { chunkSize := 128 }
        [[4, 0, 0, 0, 0, 0, 1, 8, 0, 0, 0, 1, 7]]).2 = [m'] ∧
      m'.timestamp = 0x1000000 ∧ m'.payload = [7] :=
  late_not_delivered (m := ⟨4, 0x1000000, 8, 1, [7]⟩)
    ⟨by decide, by decide, by decide, by decide, by decide⟩ (by decide) (by decide) (by decide)
    ⟨rfl, rfl, rfl⟩ fun _ => rfl

/-- The message comes back with the timestamp 0. -/
theorem not_delivered_one :
    (Message.chunks ⟨4, 0x1000000, 8, 1, [7]⟩ 128).flatten =
        [4, 0, 0, 0, 0, 0, 1, 8, 0, 0, 0, 1, 7] ∧
      ¬ ∃ m', (receiveAll keepChunkSize { chunkSize := 128 }
          [[4, 0, 0, 0, 0, 0, 1, 8, 0, 0, 0, 1, 7]]).2 = [m'] ∧
        m'.timestamp = 0x1000000 ∧ m'.payload = [7] := by
  refine ⟨by decide, ?_⟩
  rintro ⟨m', hout, htimestamp, -⟩
  have heq : (receiveAll keepChunkSize { chunkSize := 128 }
      [[4, 0, 0, 0, 0, 0, 1, 8, 0, 0, 0, 1, 7]]).2 = [⟨4, 0, 8, 1, [7]⟩] := by decide
  rw [heq, List.cons.injEq] at hout
  rw [← hout.1] at htimestamp
  exact absurd htimestamp (by decide)

end SessionBase

end MediaServer
