import Mathlib.Data.Set.Function
import MediaServer.Rtmp.RoundTrip

/-!
# Chunk streams and the keys of their map

Chunk streams are independent of each other: the chunks of one do not change
the messages assembled on another.  In the session a chunk touches the entry
of `cs_map_` under the key of its id and nothing else, so this holds for ids
with different keys (`receiveTurn_local` is the step, `replay` the run).  The
key is a `uint8_t` and the ids go up to 574, so some pairs of ids share one
entry, and for each of them two messages exist that are mixed up
(`not_isolated_of_mapKey_eq`).
-/

namespace MediaServer

open Incremental (Turn Consumer)

namespace SessionBase

variable {c : UInt32} {s s' t : SessionBase} {out : List Message}

/-! ## One chunk -/

/-- A basic header is read from the buffer alone. -/
theorem readFmtCsid_congr (h : s.readFmtCsid = (.ok, s')) (hbuf : t.recvBuffer = s.recvBuffer) :
    t.readFmtCsid =
      (.ok, { t with fmt := s'.fmt, csid := s'.csid, recvBuffer := s'.recvBuffer }) := by
  unfold readFmtCsid at h ⊢
  rw [hbuf]
  rcases hb : s.recvBuffer with _ | ⟨p, rest⟩
  · rw [hb] at h; cases h
  · simp only [hb] at h ⊢
    split_ifs at h ⊢ with h0 h1
    · rcases rest with _ | ⟨q, rest⟩
      · cases h
      · cases h; rfl
    · rcases rest with _ | ⟨q, _ | ⟨r, rest⟩⟩
      · cases h
      · cases h
      · cases h; rfl
    · cases h; rfl

theorem readBasicHeader_congr {ch : Bytes} (hs : s.AtBoundary c) (ht : t.AtBoundary c)
    (h : (s.push ch).readBasicHeader = (.ok, s')) :
    (t.push ch).readBasicHeader = (.ok, t.withBasic s'.fmt s'.csid s'.recvBuffer) := by
  have hbuf : (t.push ch).recvBuffer = (s.push ch).recvBuffer := by
    simp only [push, hs.recvBuffer, ht.recvBuffer]
  rw [readBasicHeader, if_neg (by simp [push, hs.fmtReady])] at h
  rw [readBasicHeader, if_neg (by simp [push, ht.fmtReady])]
  rcases hr : (s.push ch).readFmtCsid with ⟨r, s₁⟩
  rw [hr] at h
  cases r <;> cases h
  rw [readFmtCsid_congr hr hbuf]
  rfl

/-- The session after a chunk of stream `csid` has been read to its end. -/
def afterChunk (t : SessionBase) (fmt : UInt8) (csid : UInt16) (cs : ChunkStream) : SessionBase :=
  { t with fmt := fmt, csid := csid, csMap := Function.update t.csMap (mapKey csid) (some cs) }

/-- The messages that the stream of a chunk hands over after it. -/
def handOver (cs : ChunkStream) : List Message := if cs.isReady then [cs.message] else []

/-- The stream that stays in the map. -/
def keepStream (cs : ChunkStream) : ChunkStream := if cs.isReady then cs.reset else cs

/-- A chunk that its stream reads to the end, as one turn of the session.  The message
that it completes may set the chunk size. -/
theorem receiveTurn_chunkRead (onMessage : Message → UInt32 → UInt32) {ch rest : Bytes}
    {fmt : UInt8} {csid : UInt16} {cs : ChunkStream} (ht : t.AtBoundary c)
    (hbasic : (t.push ch).readBasicHeader = (.ok, t.withBasic fmt csid rest))
    (hread : readMessage fmt csid
      ((t.csMap (mapKey csid)).getD (ChunkStream.new fmt csid c)) rest = (.ok, cs, [])) :
    (t.push ch).receiveTurn onMessage =
      .step { t.afterChunk fmt csid (keepStream cs) with
        chunkSize := if cs.isReady then onMessage cs.message t.chunkSize else t.chunkSize }
        (handOver cs) := by
  have hchunk : (t.push ch).readChunkStream = (.ok, t.afterChunk fmt csid cs) := by
    rw [readChunkStream, hbasic]
    show fileStream _ (readMessage fmt csid
      ((t.csMap (mapKey csid)).getD (ChunkStream.new fmt csid t.chunkSize)) rest) = _
    rw [ht.chunkSize, hread]
    simp [fileStream, withBasic, afterChunk, ht.recvBuffer, ht.fmtReady]
  rw [receiveTurn, hchunk]
  have hcur : (t.afterChunk fmt csid cs).currentStream = cs := by
    simp [currentStream, afterChunk]
  simp only [deliver, hcur, keepStream, handOver]
  split_ifs
  · simp [afterChunk]
  · rfl

/-- The same, when messages leave the chunk size alone. -/
theorem receiveTurn_of_readMessage {ch rest : Bytes} {fmt : UInt8} {csid : UInt16}
    {cs : ChunkStream} (ht : t.AtBoundary c)
    (hbasic : (t.push ch).readBasicHeader = (.ok, t.withBasic fmt csid rest))
    (hread : readMessage fmt csid
      ((t.csMap (mapKey csid)).getD (ChunkStream.new fmt csid c)) rest = (.ok, cs, [])) :
    (t.push ch).receiveTurn keepChunkSize =
      .step (t.afterChunk fmt csid (keepStream cs)) (handOver cs) := by
  rw [receiveTurn_chunkRead keepChunkSize ht hbasic hread]
  simp only [keepChunkSize, ite_self]
  rfl

/-- What a turn that takes a step has done. -/
theorem exists_of_receiveTurn_step {onMessage : Message → UInt32 → UInt32}
    (h : s.receiveTurn onMessage = .step s' out) :
    ∃ s₁ cs buffer, s.readBasicHeader = (.ok, s₁) ∧
      readMessage s₁.fmt s₁.csid s₁.currentStream s₁.recvBuffer = (.ok, cs, buffer) ∧
      s'.csid = s₁.csid ∧ s'.recvBuffer = buffer := by
  rw [receiveTurn, readChunkStream] at h
  rcases hb : s.readBasicHeader with ⟨r, s₁⟩
  rw [hb] at h
  rcases r with _ | _ | _
  · rcases hm : readMessage s₁.fmt s₁.csid s₁.currentStream s₁.recvBuffer with ⟨r, cs, buffer⟩
    simp only [readCurrentStream, hm, fileStream] at h
    rcases r with _ | _ | _
    · simp only [Turn.step.injEq] at h
      refine ⟨s₁, cs, buffer, rfl, hm, ?_, ?_⟩
      · rw [← h.1, deliver_csid]
      · rw [← h.1, deliver_recvBuffer]
    · cases h
    · cases h
  · cases h
  · cases h

/-- A chunk that is read to its end leaves its stream at the next header, under
the id of the chunk. -/
theorem readMessage_ok {fmt : UInt8} {csid : UInt16} {cs cs' : ChunkStream}
    {buffer buffer' : DataBuffer} (hphase : cs.phase = .header)
    (h : readMessage fmt csid cs buffer = (.ok, cs', buffer')) :
    cs'.csid = csid ∧ cs'.phase = .header := by
  rcases readMessage_cases h with ⟨hp, -⟩ | ⟨-, cs₁, buffer₁, hr, hpay⟩ | ⟨-, hret, -⟩
  · rw [hphase] at hp
    cases hp
  · obtain ⟨-, -, hcsid⟩ := ChunkStream.readMsgHeader_frame hr
    rw [ChunkStream.readMessagePayload_eq rfl] at hpay
    split_ifs at hpay
    · cases hpay
    · cases hpay
      exact ⟨hcsid rfl, rfl⟩
  · exact absurd rfl hret

/-! ## Many chunks -/

/-- A session between two chunks: every stream is at a header. -/
structure Between (c : UInt32) (s : SessionBase) : Prop extends AtBoundary c s where
  headers : ∀ k cs, s.csMap k = some cs → cs.phase = .header

theorem Between.phase (hs : s.Between c) (fmt : UInt8) (csid : UInt16) :
    ((s.csMap (mapKey csid)).getD (ChunkStream.new fmt csid c)).phase = .header := by
  rcases hk : s.csMap (mapKey csid) with _ | cs
  · rfl
  · exact hs.headers _ cs hk

theorem Between.afterChunk (hs : s.Between c) {fmt : UInt8} {csid : UInt16} {cs : ChunkStream}
    (hcs : cs.phase = .header) : (s.afterChunk fmt csid cs).Between c where
  recvBuffer := hs.recvBuffer
  fmtReady := hs.fmtReady
  chunkSize := hs.chunkSize
  headers k cs' hk := by
    replace hk : Function.update s.csMap (mapKey csid) (some cs) k = some cs' := hk
    by_cases hkey : k = mapKey csid
    · rw [hkey, Function.update_self, Option.some.injEq] at hk
      rw [← hk, hcs]
    · rw [Function.update_of_ne hkey] at hk
      exact hs.headers k cs' hk

/-- A turn that takes a whole chunk has read its basic header, and then the chunk on the
stream of that header. -/
theorem exists_of_turn_chunk {onMessage : Message → UInt32 → UInt32} {ch : Bytes}
    (hs : s.Between c) (h : (s.push ch).receiveTurn onMessage = .step s' out)
    (hbuf : s'.recvBuffer = []) :
    ∃ fmt rest cs, (∀ t : SessionBase, t.AtBoundary c →
        (t.push ch).readBasicHeader = (.ok, t.withBasic fmt s'.csid rest)) ∧
      readMessage fmt s'.csid
        ((s.csMap (mapKey s'.csid)).getD (ChunkStream.new fmt s'.csid c)) rest = (.ok, cs, []) ∧
      cs.csid = s'.csid ∧ cs.phase = .header := by
  obtain ⟨s₁, cs, buffer, hbasic, hread, hcsid, hbuffer⟩ := exists_of_receiveTurn_step h
  have hall : ∀ t : SessionBase, t.AtBoundary c →
      (t.push ch).readBasicHeader = (.ok, t.withBasic s₁.fmt s₁.csid s₁.recvBuffer) :=
    fun t ht => readBasicHeader_congr hs.toAtBoundary ht hbasic
  have hs₁ : s₁ = s.withBasic s₁.fmt s₁.csid s₁.recvBuffer := by
    have heq := hbasic.symm.trans (hall s hs.toAtBoundary)
    exact (Prod.mk.injEq _ _ _ _ ▸ heq).2
  have hcur : s₁.currentStream =
      (s.csMap (mapKey s₁.csid)).getD (ChunkStream.new s₁.fmt s₁.csid c) := by
    rw [currentStream, hs₁]
    simp only [withBasic, hs.chunkSize]
  rw [hcur, ← hbuffer, hbuf] at hread
  rw [hcsid]
  exact ⟨s₁.fmt, s₁.recvBuffer, cs, hall, hread, readMessage_ok (hs.phase _ _) hread⟩

theorem keepStream_phase {cs : ChunkStream} (h : cs.phase = .header) :
    (keepStream cs).phase = .header := by
  unfold keepStream
  split
  · rfl
  · exact h

theorem csid_of_mem_handOver {cs : ChunkStream} {m : Message} (h : m ∈ handOver cs) :
    m.csid = cs.csid := by
  unfold handOver at h
  split at h
  · rw [List.mem_singleton] at h
    rw [h]
    rfl
  · exact absurd h (by simp)

/-- **Step.**  A chunk that is read to its end touches the entry under its key
and hands over messages of its own id.  What it does is the same in every
session that has the same entry. -/
theorem receiveTurn_local {ch : Bytes} (hs : s.Between c)
    (h : (s.push ch).receiveTurn keepChunkSize = .step s' out) (hbuf : s'.recvBuffer = []) :
    ∃ fmt cs, cs.phase = .header ∧ (∀ m ∈ out, m.csid = s'.csid) ∧
      s' = s.afterChunk fmt s'.csid cs ∧
      ∀ t : SessionBase, t.AtBoundary c →
        t.csMap (mapKey s'.csid) = s.csMap (mapKey s'.csid) →
        (t.push ch).receiveTurn keepChunkSize = .step (t.afterChunk fmt s'.csid cs) out := by
  obtain ⟨fmt, rest, cs, hall, hread, hid, hphase⟩ := exists_of_turn_chunk hs h hbuf
  have hturn : ∀ t : SessionBase, t.AtBoundary c →
      t.csMap (mapKey s'.csid) = s.csMap (mapKey s'.csid) →
      (t.push ch).receiveTurn keepChunkSize =
        .step (t.afterChunk fmt s'.csid (keepStream cs)) (handOver cs) := by
    intro t ht hkey
    exact receiveTurn_of_readMessage ht (hall t ht) (by rw [hkey]; exact hread)
  have hself := h.symm.trans (hturn s hs.toAtBoundary rfl)
  rw [Turn.step.injEq] at hself
  refine ⟨fmt, keepStream cs, keepStream_phase hphase, ?_, hself.1, ?_⟩
  · intro m hm
    rw [hself.2] at hm
    rw [csid_of_mem_handOver hm, hid]
  · intro t ht hkey
    rw [hself.2]
    exact hturn t ht hkey

/-- The chunks that `chunks` holds for stream `x`. -/
def own (x : UInt16) (chunks : List (UInt16 × Bytes)) : List Bytes :=
  (chunks.filter (·.1 = x)).map Prod.snd

/-- The messages of stream `x`. -/
def messagesOn (x : UInt16) (msgs : List Message) : List Message := msgs.filter (·.csid = x)

/-- `chunks` are chunks of stream `x`: each of them, received alone after the
ones before it, is read to its end under the id `x`. -/
def OnStream (x : UInt16) : SessionBase → List Bytes → Prop
  | _, [] => True
  | s, ch :: rest => ∃ s' out, (s.push ch).receiveTurn keepChunkSize = .step s' out ∧
      s'.recvBuffer = [] ∧ s'.csid = x ∧ OnStream x s' rest

/-- The sessions after a chunk of stream `y`: the common one, and those that receive one
stream alone, of which one has received it. -/
theorem agree_afterChunk {ids : Set UInt16} (hinj : Set.InjOn mapKey ids) {y : UInt16} (hy : y ∈ ids)
    {ch : Bytes} {rest : List (UInt16 × Bytes)} (alone : UInt16 → SessionBase) {fmt : UInt8}
    {cs : ChunkStream} (hphase : cs.phase = .header)
    (honrest : OnStream y ((alone y).afterChunk fmt y cs) (own y rest))
    (halone : ∀ x ∈ ids, (alone x).Between c ∧
      t.csMap (mapKey x) = (alone x).csMap (mapKey x) ∧
        OnStream x (alone x) (own x ((y, ch) :: rest))) :
    ∀ x ∈ ids, (Function.update alone y ((alone y).afterChunk fmt y cs) x).Between c ∧
      (t.afterChunk fmt y cs).csMap (mapKey x) =
        (Function.update alone y ((alone y).afterChunk fmt y cs) x).csMap (mapKey x) ∧
      OnStream x (Function.update alone y ((alone y).afterChunk fmt y cs) x) (own x rest) := by
  intro x hx
  by_cases hxy : x = y
  · subst hxy
    rw [Function.update_self]
    exact ⟨(halone x hy).1.afterChunk hphase, by simp [afterChunk], honrest⟩
  · obtain ⟨hbx, hkeyx, honx⟩ := halone x hx
    have hne : mapKey x ≠ mapKey y := fun hk => hxy (hinj hx hy hk)
    rw [Function.update_of_ne hxy]
    refine ⟨hbx, ?_, ?_⟩
    · rw [← hkeyx]
      exact Function.update_of_ne hne _ _
    · simpa [own, Ne.symm hxy] using honx

/-- **Run.**  A session that receives the chunks of several streams with keys of
their own delivers on each stream what a session delivers that receives the
chunks of that stream alone. -/
theorem replay {ids : Set UInt16} (hinj : Set.InjOn mapKey ids)
    {chunks : List (UInt16 × Bytes)} (hids : ∀ ch ∈ chunks, ch.1 ∈ ids)
    (alone : UInt16 → SessionBase) (ht : t.Between c)
    (halone : ∀ x ∈ ids, (alone x).Between c ∧
      t.csMap (mapKey x) = (alone x).csMap (mapKey x) ∧ OnStream x (alone x) (own x chunks)) :
    ∀ x ∈ ids,
      messagesOn x ((chunkConsumer keepChunkSize).consume
          (t.push (chunks.map Prod.snd).flatten)).2 =
        messagesOn x ((chunkConsumer keepChunkSize).consume
          ((alone x).push (own x chunks).flatten)).2 := by
  induction chunks generalizing alone t with
  | nil =>
    intro x hx
    obtain ⟨hb, -, -⟩ := halone x hx
    show messagesOn x ((chunkConsumer keepChunkSize).consume (t.push [])).2 =
      messagesOn x ((chunkConsumer keepChunkSize).consume ((alone x).push [])).2
    rw [ht.toAtBoundary.consume_push_nil, hb.toAtBoundary.consume_push_nil]
  | cons first rest ih =>
    obtain ⟨y, ch⟩ := first
    have hy : y ∈ ids := hids (y, ch) (by simp)
    obtain ⟨hby, hkeyy, hony⟩ := halone y hy
    have hown : own y ((y, ch) :: rest) = ch :: own y rest := by simp [own]
    rw [hown] at hony
    obtain ⟨s', out, hturn, hbuf, hcsid, honrest⟩ := hony
    obtain ⟨fmt, cs, hphase, hout, hs', hlocal⟩ := receiveTurn_local hby hturn hbuf
    rw [hcsid] at hout hs' hlocal
    have hstep := hlocal t ht.toAtBoundary hkeyy
    rw [hs'] at honrest
    have hrel := agree_afterChunk hinj hy alone hphase honrest halone
    have hnext := ih (fun e he => hids e (List.mem_cons_of_mem _ he)) _ (ht.afterChunk hphase) hrel
    intro x hx
    have hcommon := consume_push_of_step keepChunkSize hstep (rest.map Prod.snd).flatten
    rw [List.map_cons, List.flatten_cons, ← push_push, hcommon]
    have hrest := hnext x hx
    by_cases hxy : x = y
    · subst hxy
      have hlone := consume_push_of_step keepChunkSize hturn (own x rest).flatten
      rw [Function.update_self] at hrest
      rw [hown, List.flatten_cons, ← push_push, hlone]
      simp only [messagesOn, List.filter_append] at hrest ⊢
      rw [hrest, hs']
    · have hother : own x ((y, ch) :: rest) = own x rest := by
        simp [own, Ne.symm hxy]
      have hnone : messagesOn x out = [] := by
        rw [messagesOn, List.filter_eq_nil_iff]
        intro m hm
        simpa [hout m hm] using Ne.symm hxy
      rw [Function.update_of_ne hxy] at hrest
      rw [hother, ← hrest]
      simp only [messagesOn, List.filter_append] at hnone ⊢
      rw [hnone, List.nil_append]

/-! ## Ids that share a key -/

/-- `x` is an id that `read_fmt_csid` can decode. -/
def Decoded (x : UInt16) : Prop :=
  ∃ s s' : SessionBase, s.readFmtCsid = (.ok, s') ∧ s'.csid = x

/-- The chunks of `a` and `b`, in any interleaving, do not change each other's
messages. -/
def Isolated (a b : UInt16) : Prop :=
  ∀ (c : UInt32) (s : SessionBase) (chunks : List (UInt16 × Bytes)), s.Between c →
    (∀ ch ∈ chunks, ch.1 = a ∨ ch.1 = b) →
    OnStream a s (own a chunks) → OnStream b s (own b chunks) →
    ∀ x, x = a ∨ x = b →
      messagesOn x (s.receive keepChunkSize (chunks.map Prod.snd).flatten).2 =
        messagesOn x (s.receive keepChunkSize (own x chunks).flatten).2

theorem isolated_of_mapKey_ne {a b : UInt16} (hkey : mapKey a ≠ mapKey b) : Isolated a b := by
  intro c s chunks hs hids ha hb x hx
  have hinj : Set.InjOn mapKey {y | y = a ∨ y = b} := by
    rintro y (rfl | rfl) z (rfl | rfl) h
    · rfl
    · exact absurd h hkey
    · exact absurd h.symm hkey
    · rfl
  rw [receive_eq_consume, receive_eq_consume]
  refine replay hinj hids (fun _ => s) hs ?_ x hx
  rintro y (rfl | rfl)
  · exact ⟨hs, rfl, ha⟩
  · exact ⟨hs, rfl, hb⟩

/-- The three forms of a basic header give the ids from 2 to 574. -/
theorem Decoded.bounds {x : UInt16} (h : Decoded x) : 2 ≤ x.toNat ∧ x.toNat ≤ 574 := by
  obtain ⟨s, s', hread, rfl⟩ := h
  unfold readFmtCsid at hread
  rcases hb : s.recvBuffer with _ | ⟨p, rest⟩
  · rw [hb] at hread
    cases hread
  · simp only [hb] at hread
    have hp := p.toNat_lt
    split_ifs at hread with h0 h1
    · rcases rest with _ | ⟨q, rest⟩
      · cases hread
      · cases hread
        have hq := q.toNat_lt
        simp only [UInt16.toNat_add, UInt8.toNat_toUInt16]
        constructor <;> simp <;> omega
    · rcases rest with _ | ⟨q, _ | ⟨r, rest⟩⟩
      · cases hread
      · cases hread
      · cases hread
        have hq := q.toNat_lt
        have hr := r.toNat_lt
        simp only [UInt16.toNat_add, UInt8.toNat_toUInt16]
        constructor <;> simp <;> omega
    · cases hread
      have hle : (p &&& 0x3f).toNat ≤ 63 := by
        rw [UInt8.toNat_and]
        exact Nat.and_le_right
      have hne0 : (p &&& 0x3f).toUInt16.toNat ≠ 0 := fun h => h0 (UInt16.toNat_inj.mp h)
      have hne1 : (p &&& 0x3f).toUInt16.toNat ≠ 1 := fun h => h1 (UInt16.toNat_inj.mp h)
      rw [UInt8.toNat_toUInt16] at hne0 hne1
      show 2 ≤ (p &&& 0x3f).toUInt16.toNat ∧ (p &&& 0x3f).toUInt16.toNat ≤ 574
      rw [UInt8.toNat_toUInt16]
      omega

/-- A basic header of format `fmt` and id `x`, in the shortest form. -/
def basicHeader (fmt : UInt8) (x : UInt16) : Bytes :=
  if x < 64 then [basicByte fmt x]
  else if x < 320 then [fmt <<< 6, (x - 64).toUInt8]
  else [(fmt <<< 6) ||| 1, 255, (x - 319).toUInt8]

theorem readBasicHeader_twoBytes (hs : s.AtBoundary c) {p : UInt8}
    (hp : (p &&& 0x3f).toUInt16 = 0) (q : UInt8) (rest : Bytes) :
    (s.push (p :: q :: rest)).readBasicHeader =
      (.ok, s.withBasic ((p >>> 6) &&& 0x3) (64 + q.toUInt16) rest) := by
  rw [readBasicHeader, if_neg (by simp [push, hs.fmtReady])]
  simp only [readFmtCsid, push, DataBuffer.appendData, hs.recvBuffer, List.nil_append, hp, if_true]
  rfl

theorem readBasicHeader_threeBytes (hs : s.AtBoundary c) {p : UInt8}
    (hp : (p &&& 0x3f).toUInt16 = 1) (q r : UInt8) (rest : Bytes) :
    (s.push (p :: q :: r :: rest)).readBasicHeader =
      (.ok, s.withBasic ((p >>> 6) &&& 0x3) (64 + q.toUInt16 + r.toUInt16) rest) := by
  have h10 : ¬ (1 : UInt16) = 0 := by decide
  rw [readBasicHeader, if_neg (by simp [push, hs.fmtReady])]
  simp only [readFmtCsid, push, DataBuffer.appendData, hs.recvBuffer, List.nil_append, hp,
    if_neg h10, if_true]
  rfl

theorem readBasicHeader_basicHeader (hs : s.AtBoundary c) {fmt : UInt8}
    (hf : fmt < 4) {x : UInt16} (hx : Decoded x) (rest : Bytes) :
    (s.push (basicHeader fmt x ++ rest)).readBasicHeader = (.ok, s.withBasic fmt x rest) := by
  obtain ⟨hge, hle⟩ := hx.bounds
  unfold basicHeader
  split_ifs with h64 h320
  · exact readBasicHeader_oneByte hs hf (UInt16.le_iff_toNat_le.mpr hge) h64 rest
  · have hx64 : 64 ≤ x.toNat := by simpa [UInt16.lt_iff_toNat_lt] using h64
    have hx320 : x.toNat < 320 := by simpa [UInt16.lt_iff_toNat_lt] using h320
    have hid : 64 + (x - 64).toUInt8.toUInt16 = x := by
      apply UInt16.toNat_inj.mp
      have hsub : (x - 64).toNat = x.toNat - 64 := UInt16.toNat_sub_of_le _ _
        (UInt16.le_iff_toNat_le.mpr hx64)
      have h64 : (64 : UInt16).toNat = 64 := rfl
      simp only [UInt16.toNat_add, UInt8.toNat_toUInt16, UInt16.toNat_toUInt8, hsub, h64]
      omega
    have hbits : ∀ f ∈ [(0 : UInt8), 1, 2, 3],
        ((f <<< 6) &&& 0x3f).toUInt16 = 0 ∧ ((f <<< 6) >>> 6) &&& 0x3 = f := by decide +kernel
    replace hbits := hbits fmt (mem_of_fmt_lt hf)
    have hread := readBasicHeader_twoBytes hs hbits.1 (x - 64).toUInt8 rest
    rw [hbits.2, hid] at hread
    exact hread
  · have hx320 : 320 ≤ x.toNat := by simpa [UInt16.lt_iff_toNat_lt] using h320
    have hid : 64 + (255 : UInt8).toUInt16 + (x - 319).toUInt8.toUInt16 = x := by
      apply UInt16.toNat_inj.mp
      have hsub : (x - 319).toNat = x.toNat - 319 := UInt16.toNat_sub_of_le _ _
        (UInt16.le_iff_toNat_le.mpr (by show 319 ≤ x.toNat; omega))
      have h64 : (64 : UInt16).toNat = 64 := rfl
      have h255 : (255 : UInt8).toNat = 255 := rfl
      simp only [UInt16.toNat_add, UInt8.toNat_toUInt16, UInt16.toNat_toUInt8, hsub, h64, h255]
      omega
    have hbits : ∀ f ∈ [(0 : UInt8), 1, 2, 3], (((f <<< 6) ||| 1) &&& 0x3f).toUInt16 = 1 ∧
        (((f <<< 6) ||| 1) >>> 6) &&& 0x3 = f := by decide +kernel
    replace hbits := hbits fmt (mem_of_fmt_lt hf)
    have hread := readBasicHeader_threeBytes hs hbits.1 255 (x - 319).toUInt8 rest
    rw [hbits.2, hid] at hread
    exact hread

/-! Two messages that are mixed up.  `firstOf` and `lastOf` are the two chunks
of a message of two bytes, for a chunk size of 1, and `onlyOf` is the one chunk
of a message of one byte. -/

/-- The first chunk of the message of two bytes. -/
def firstOf (x : UInt16) : Bytes :=
  basicHeader 0 x ++ [0, 0, 0, 0, 0, 2, 8, 0, 0, 0, 1, 1]

/-- The second chunk of that message. -/
def lastOf (x : UInt16) : Bytes := basicHeader 3 x ++ [2]

/-- The chunk of the message of one byte. -/
def onlyOf (x : UInt16) : Bytes :=
  basicHeader 0 x ++ [0, 0, 0, 0, 0, 1, 9, 0, 0, 0, 1, 9]

/-- The stream of `firstOf x`. -/
def halfStream (x : UInt16) : ChunkStream :=
  { ChunkStream.new 0 x 1 with
    msgLen := 2, typeId := 8, msgStreamId := 1, remain := 1, requireLen := 1
    chunkData := [1], msgCount := 1 }

theorem readMessage_firstOf (x : UInt16) :
    readMessage 0 x (ChunkStream.new 0 x 1) [0, 0, 0, 0, 0, 2, 8, 0, 0, 0, 1, 1] =
      (.ok, halfStream x, []) := by
  rfl

/-- The second chunk completes the message. -/
theorem readMessage_lastOf (x : UInt16) :
    ∃ cs, readMessage 3 x (halfStream x) [2] = (.ok, cs, []) ∧ cs.isReady = true ∧
      cs.message = ⟨x, 0, 8, 1, [1, 2]⟩ :=
  ⟨_, rfl, rfl, rfl⟩

theorem readMessage_onlyOf (x : UInt16) :
    ∃ cs, readMessage 0 x (ChunkStream.new 0 x 1) [0, 0, 0, 0, 0, 1, 9, 0, 0, 0, 1, 9] =
        (.ok, cs, []) ∧ cs.isReady = true ∧ cs.message = ⟨x, 0, 9, 1, [9]⟩ :=
  ⟨_, rfl, rfl, rfl⟩

/-- On the stream of another message the payload of that message stands in
front, and the second chunk of that message then starts a message of its own. -/
theorem readMessage_mixed (x y : UInt16) :
    ∃ cs, readMessage 0 y (halfStream x) [0, 0, 0, 0, 0, 1, 9, 0, 0, 0, 1, 9] =
        (.ok, cs, []) ∧ cs.isReady = true ∧ cs.message = ⟨y, 0, 9, 1, [1, 9]⟩ ∧
      ∃ cs', readMessage 3 x cs.reset [2] = (.ok, cs', []) ∧ cs'.isReady = true ∧
        cs'.message = ⟨x, 0, 9, 1, [2]⟩ :=
  ⟨_, rfl, rfl, rfl, _, rfl, rfl, rfl⟩

/-- A session that has received nothing, with a chunk size of 1. -/
def fresh : SessionBase := { chunkSize := 1 }

theorem fresh_between : fresh.Between 1 where
  recvBuffer := rfl
  fmtReady := rfl
  chunkSize := rfl
  headers k cs hk := by cases hk

/-- The turn in which a chunk completes its message. -/
theorem receiveTurn_ready {ch rest : Bytes} {fmt : UInt8} {csid : UInt16} {cs : ChunkStream}
    {m : Message} (ht : t.AtBoundary c)
    (hbasic : (t.push ch).readBasicHeader = (.ok, t.withBasic fmt csid rest))
    (hread : readMessage fmt csid
      ((t.csMap (mapKey csid)).getD (ChunkStream.new fmt csid c)) rest = (.ok, cs, []))
    (hready : cs.isReady = true) (hmsg : cs.message = m) :
    (t.push ch).receiveTurn keepChunkSize = .step (t.afterChunk fmt csid cs.reset) [m] := by
  rw [receiveTurn_of_readMessage ht hbasic hread, keepStream, handOver, hready, hmsg]
  rfl

/-- Two ids with one key are not isolated: a message of one byte on `b`,
received between the two chunks of a message on `a`, takes over the first byte
of that message. -/
theorem not_isolated_of_mapKey_eq {a b : UInt16} (ha : Decoded a) (hb : Decoded b)
    (hne : a ≠ b) (hkey : mapKey a = mapKey b) : ¬ Isolated a b := by
  intro hiso
  have hstart := fresh_between.toAtBoundary
  -- the first chunk on `a` is the same turn in both runs
  have hfirst : (fresh.push (firstOf a)).receiveTurn keepChunkSize =
      .step (fresh.afterChunk 0 a (halfStream a)) [] :=
    receiveTurn_of_readMessage hstart (readBasicHeader_basicHeader hstart (by decide) ha _)
      (readMessage_firstOf a)
  have hhalf : (fresh.afterChunk 0 a (halfStream a)).AtBoundary 1 := ⟨rfl, rfl, rfl⟩
  -- the runs of each id alone
  have hona : OnStream a fresh [firstOf a, lastOf a] := by
    obtain ⟨cs, hread, hready, hmsg⟩ := readMessage_lastOf a
    refine ⟨_, _, hfirst, rfl, rfl, _, _, receiveTurn_ready hhalf
      (readBasicHeader_basicHeader hhalf (by decide) ha _) ?_ hready hmsg, rfl, rfl, trivial⟩
    simpa [afterChunk] using hread
  obtain ⟨cs, hread, hready, hmsg⟩ := readMessage_onlyOf b
  have honly : (fresh.push (onlyOf b)).receiveTurn keepChunkSize = .step _ _ :=
    receiveTurn_ready hstart (readBasicHeader_basicHeader hstart (by decide) hb _)
      hread hready hmsg
  have honb : OnStream b fresh [onlyOf b] := ⟨_, _, honly, rfl, rfl, trivial⟩
  -- the common run
  obtain ⟨cs₂, hread₂, hready₂, hmsg₂, cs₃, hread₃, hready₃, hmsg₃⟩ := readMessage_mixed a b
  have hsecond : ((fresh.afterChunk 0 a (halfStream a)).push (onlyOf b)).receiveTurn
      keepChunkSize = .step _ _ :=
    receiveTurn_ready hhalf (readBasicHeader_basicHeader hhalf (by decide) hb _)
      (by simpa [afterChunk, hkey] using hread₂) hready₂ hmsg₂
  have hboth : ((fresh.afterChunk 0 a (halfStream a)).afterChunk 0 b cs₂.reset).AtBoundary 1 :=
    ⟨rfl, rfl, rfl⟩
  have hthird : (((fresh.afterChunk 0 a (halfStream a)).afterChunk 0 b cs₂.reset).push
      (lastOf a)).receiveTurn keepChunkSize = .step _ _ :=
    receiveTurn_ready hboth (readBasicHeader_basicHeader hboth (by decide) ha _)
      (by simpa [afterChunk, hkey] using hread₃) hready₃ hmsg₃
  have hmixed := hiso 1 fresh [(a, firstOf a), (b, onlyOf b), (a, lastOf a)] fresh_between
    (by simp) (by simpa [own, hne.symm] using hona) (by simpa [own, hne] using honb) b (Or.inr rfl)
  have hall : (fresh.receive keepChunkSize
      ([(a, firstOf a), (b, onlyOf b), (a, lastOf a)].map Prod.snd).flatten).2 =
        [⟨b, 0, 9, 1, [1, 9]⟩, ⟨a, 0, 9, 1, [2]⟩] := by
    have hflat : ([(a, firstOf a), (b, onlyOf b), (a, lastOf a)].map Prod.snd).flatten =
        firstOf a ++ (onlyOf b ++ (lastOf a ++ [])) := by simp
    rw [hflat, receive_eq_consume, ← push_push, consume_push_of_step _ hfirst, ← push_push,
      consume_push_of_step _ hsecond, ← push_push, consume_push_of_step _ hthird,
      AtBoundary.consume_push_nil ⟨rfl, rfl, rfl⟩]
    rfl
  have hown : own b [(a, firstOf a), (b, onlyOf b), (a, lastOf a)] = [onlyOf b] := by
    simp [own, hne]
  have hlone : (fresh.receive keepChunkSize [onlyOf b].flatten).2 = [⟨b, 0, 9, 1, [9]⟩] := by
    rw [List.flatten_cons, List.flatten_nil, receive_eq_consume, ← push_push, consume_push_of_step _ honly,
      AtBoundary.consume_push_nil ⟨rfl, rfl, rfl⟩]
    rfl
  rw [hown, hall, hlone] at hmixed
  simp [messagesOn, hne] at hmixed

/-- **Isolation.**  Two ids are isolated from each other exactly when their keys
differ. -/
theorem isolated_iff_mapKey_ne (a b : UInt16) (ha : Decoded a) (hb : Decoded b) (hne : a ≠ b) :
    Isolated a b ↔ mapKey a ≠ mapKey b := by
  constructor
  · intro hiso hkey
    exact not_isolated_of_mapKey_eq ha hb hne hkey hiso
  · exact isolated_of_mapKey_ne

theorem isolated_seven_seventy : Isolated 7 70 ↔ mapKey 7 ≠ mapKey 70 :=
  isolated_iff_mapKey_ne 7 70 ⟨{ recvBuffer := [7] }, _, rfl, rfl⟩
    ⟨{ recvBuffer := [0, 6] }, _, rfl, rfl⟩ (by decide)

/-- Ids 5 and 261 (a two-byte header) share the key 5.  The message on 261 is
received between the two chunks of the message on 5 and comes out with the
first byte of that message in front. -/
theorem isolated_shared_key :
    Decoded 5 ∧ Decoded 261 ∧
      messagesOn 261 (receive keepChunkSize { chunkSize := 1 }
        ([5, 0, 0, 0, 0, 0, 2, 8, 0, 0, 0, 1, 1] ++
          [0, 197, 0, 0, 0, 0, 0, 1, 9, 0, 0, 0, 1, 9] ++ [0xc5, 2])).2 =
        [⟨261, 0, 9, 1, [1, 9]⟩] ∧
      messagesOn 261 (receive keepChunkSize { chunkSize := 1 }
        [0, 197, 0, 0, 0, 0, 0, 1, 9, 0, 0, 0, 1, 9]).2 = [⟨261, 0, 9, 1, [9]⟩] :=
  ⟨⟨{ recvBuffer := [5] }, _, rfl, rfl⟩, ⟨{ recvBuffer := [0, 197] }, _, rfl, rfl⟩, by decide,
    by decide⟩

end SessionBase

end MediaServer
