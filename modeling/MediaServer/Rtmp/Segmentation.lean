import MediaServer.Rtmp.Readers

/-!
# Chunk parsing and the segmentation of the stream

TCP hands the byte stream to the session in reads that may end anywhere.  A
session that waits has to go on as if the bytes had arrived at once.

`chunkConsumer` states the receive loop as an `Incremental.Consumer`: one turn
is one `read_chunk_stream` with the handling of the message it completed.  A
turn that waits inside a message header or a payload can be resumed, since the
readers are lawful.  A turn that waits inside a basic header of two or three
bytes cannot: `read_fmt_csid` has consumed the first byte, and the next call
takes the following byte for a new basic header.  `midBasicHeader` is the mark
that such a wait leaves in the session.

`receiveAll_segmentation` is the result: two ways of cutting a stream give the
same messages and the same session when no read but the last ends in that
state.
-/

namespace MediaServer

open Incremental (Turn Consumer)

namespace SessionBase

/-- `append_data` on the receive buffer. -/
def push (s : SessionBase) (data : Bytes) : SessionBase :=
  { s with recvBuffer := s.recvBuffer.appendData data }

/-- One pass through the receive loop. -/
def receiveTurn (onMessage : Message → UInt32 → UInt32) (s : SessionBase) :
    Turn SessionBase Message :=
  match s.readChunkStream with
  | (.ok, s) => .step (s.deliver onMessage).1 (s.deliver onMessage).2
  | (_, s) => .wait s

/-- The bytes still to be read, and one more while a basic header is pending:
a chunk without header fields and payload consumes its basic header only. -/
def pending (s : SessionBase) : Nat :=
  s.recvBuffer.length + if s.fmtReady then 1 else 0

/-- The first byte of a longer basic header is consumed and the rest of it is
awaited.  A basic header that was read leaves a `csid` of at least 2. -/
def midBasicHeader (s : SessionBase) : Bool := !s.fmtReady && s.csid < 2

@[simp] theorem push_nil (s : SessionBase) : s.push [] = s := by
  simp [push, DataBuffer.appendData]

theorem push_push (s : SessionBase) (a b : Bytes) : (s.push a).push b = s.push (a ++ b) := by
  simp [push, DataBuffer.appendData]

/-! ## Basic headers -/

/-- A basic header that is read is the same whatever follows it. -/
theorem readFmtCsid_push {s s' : SessionBase} (h : s.readFmtCsid = (.ok, s')) (e : Bytes) :
    (s.push e).readFmtCsid = (.ok, s'.push e) := by
  unfold readFmtCsid at h ⊢
  cases hb : s.recvBuffer with
  | nil => rw [hb] at h; cases h
  | cons p rest =>
    simp only [hb] at h
    simp only [push, DataBuffer.appendData, hb, List.cons_append]
    split_ifs at h ⊢ with h0 h1
    · cases rest with
      | nil => cases h
      | cons q rest => cases h; rfl
    · rcases rest with _ | ⟨q, _ | ⟨r, rest⟩⟩
      · cases h
      · cases h
      · cases h; rfl
    · cases h; rfl

/-- A basic header that is read consumes at least one byte and leaves the other
fields alone. -/
theorem readFmtCsid_ok {s s' : SessionBase} (h : s.readFmtCsid = (.ok, s')) :
    s'.recvBuffer.length < s.recvBuffer.length ∧ s'.fmtReady = s.fmtReady ∧
      s'.csMap = s.csMap ∧ s'.chunkSize = s.chunkSize := by
  unfold readFmtCsid at h
  cases hb : s.recvBuffer with
  | nil => rw [hb] at h; cases h
  | cons p rest =>
    simp only [hb] at h
    split_ifs at h with h0 h1
    · cases rest with
      | nil => cases h
      | cons q rest => cases h; exact ⟨by simp only [List.length_cons]; omega, rfl, rfl, rfl⟩
    · rcases rest with _ | ⟨q, _ | ⟨r, rest⟩⟩
      · cases h
      · cases h
      · cases h; exact ⟨by simp only [List.length_cons]; omega, rfl, rfl, rfl⟩
    · cases h; simp

/-- A basic header that is not read was not there at all, or it is lost. -/
theorem readFmtCsid_wait {s s' : SessionBase} {ret : RtmpRet}
    (h : s.readFmtCsid = (ret, s')) (hret : ret ≠ .ok) :
    s' = s ∨ (s'.fmtReady = s.fmtReady ∧ s'.csid < 2) := by
  unfold readFmtCsid at h
  cases hb : s.recvBuffer with
  | nil => rw [hb] at h; cases h; exact Or.inl rfl
  | cons p rest =>
    simp only [hb] at h
    split_ifs at h with h0 h1
    · cases rest with
      | nil => cases h; exact Or.inr ⟨rfl, by simp only [h0]; decide⟩
      | cons q rest => cases h; exact absurd rfl hret
    · rcases rest with _ | ⟨q, _ | ⟨r, rest⟩⟩
      · cases h; exact Or.inr ⟨rfl, by simp only [h1]; decide⟩
      · cases h; exact Or.inr ⟨rfl, by simp only [h1]; decide⟩
      · cases h; exact absurd rfl hret
    · cases h; exact absurd rfl hret

theorem readBasicHeader_push {s s' : SessionBase} (h : s.readBasicHeader = (.ok, s'))
    (e : Bytes) : (s.push e).readBasicHeader = (.ok, s'.push e) := by
  unfold readBasicHeader at h ⊢
  have hready : (s.push e).fmtReady = s.fmtReady := rfl
  rw [hready]
  split_ifs at h ⊢ with hf
  · cases h; rfl
  · rcases hr : s.readFmtCsid with ⟨r, s₁⟩
    rw [hr] at h
    cases r <;> cases h
    rw [readFmtCsid_push hr]
    rfl

/-- After its basic header a session knows it. -/
theorem readBasicHeader_ok {s s' : SessionBase} (h : s.readBasicHeader = (.ok, s')) :
    s'.fmtReady = true ∧ s'.recvBuffer.length < s.pending ∧ s'.csMap = s.csMap ∧
      s'.chunkSize = s.chunkSize := by
  unfold readBasicHeader at h
  split_ifs at h with hf
  · cases h
    exact ⟨hf, by simp [pending, hf], rfl, rfl⟩
  · rcases hr : s.readFmtCsid with ⟨r, s₁⟩
    rw [hr] at h
    cases r <;> cases h
    obtain ⟨hlen, -, hmap, hsize⟩ := readFmtCsid_ok hr
    exact ⟨rfl, by simpa [pending, hf] using hlen, hmap, hsize⟩

theorem readBasicHeader_wait {s s' : SessionBase} {ret : RtmpRet}
    (h : s.readBasicHeader = (ret, s')) (hret : ret ≠ .ok) :
    s' = s ∨ s'.midBasicHeader = true := by
  unfold readBasicHeader at h
  split_ifs at h with hf
  · cases h; exact absurd rfl hret
  · rcases hr : s.readFmtCsid with ⟨r, s₁⟩
    have hwait : r ≠ .ok → s₁ = s ∨ (s₁.fmtReady = s.fmtReady ∧ s₁.csid < 2) :=
      readFmtCsid_wait hr
    rw [hr] at h
    cases r <;> cases h
    · exact absurd rfl hret
    · exact (hwait hret).imp_right fun ⟨hr, hc⟩ => by simp [midBasicHeader, hr, hf, hc]
    · exact (hwait hret).imp_right fun ⟨hr, hc⟩ => by simp [midBasicHeader, hr, hf, hc]

/-! ## Chunks -/

theorem readCurrentStream_push {s s' : SessionBase} (h : s.readCurrentStream = (.ok, s'))
    (e : Bytes) : (s.push e).readCurrentStream = (.ok, s'.push e) := by
  rcases hr : readMessage s.fmt s.csid s.currentStream s.recvBuffer with ⟨r, cs, b⟩
  rw [readCurrentStream, hr] at h
  cases r <;> cases h
  have happend : readMessage s.fmt s.csid s.currentStream (s.recvBuffer ++ e) =
      (.ok, cs, b ++ e) := (readMessage_lawful s.fmt s.csid).append e hr
  show (s.push e).fileStream
    (readMessage s.fmt s.csid s.currentStream (s.recvBuffer ++ e)) = _
  rw [happend]
  rfl

/-- A chunk stream that waits is filed with what it has read, and the session
keeps the basic header. -/
theorem readCurrentStream_resume {s s' : SessionBase} {ret : RtmpRet}
    (h : s.readCurrentStream = (ret, s')) (hret : ret ≠ .ok) (e : Bytes) :
    (s'.push e).readCurrentStream = (s.push e).readCurrentStream := by
  rcases hr : readMessage s.fmt s.csid s.currentStream s.recvBuffer with ⟨r, cs, b⟩
  have hresume : r ≠ .ok → readMessage s.fmt s.csid cs (b ++ e) =
      readMessage s.fmt s.csid s.currentStream (s.recvBuffer ++ e) :=
    (readMessage_lawful s.fmt s.csid).resume e hr
  rw [readCurrentStream, hr] at h
  have hs' : (s.fileStream (r, cs, b)).2 = s' := congrArg Prod.snd h
  have hretr : r = ret := congrArg Prod.fst h
  subst hs' hretr
  have hcur : ((s.fileStream (r, cs, b)).2.push e).currentStream = cs := by
    simp [fileStream, currentStream, push]
  rw [readCurrentStream, hcur]
  show fileStream _ (readMessage s.fmt s.csid cs (b ++ e)) = fileStream (s.push e)
    (readMessage s.fmt s.csid s.currentStream (s.recvBuffer ++ e))
  rw [hresume hret]
  -- the entry of the waiting stream is overwritten by the second attempt
  simp [fileStream, push, hret]

/-- What one successful `read_chunk_stream` does to the counters of the loop. -/
theorem readCurrentStream_ok {s s' : SessionBase} (h : s.readCurrentStream = (.ok, s')) :
    s'.fmtReady = false ∧ s'.recvBuffer.length ≤ s.recvBuffer.length ∧ s'.csid = s.csid := by
  rcases hr : readMessage s.fmt s.csid s.currentStream s.recvBuffer with ⟨r, cs, b⟩
  have hle := (readMessage_lawful s.fmt s.csid).length_le hr
  rw [readCurrentStream, hr] at h
  cases r <;> cases h
  exact ⟨rfl, hle, rfl⟩

/-- A chunk stream that waits leaves the basic header pending. -/
theorem readCurrentStream_wait {s s' : SessionBase} {ret : RtmpRet}
    (h : s.readCurrentStream = (ret, s')) (hret : ret ≠ .ok) : s'.fmtReady = s.fmtReady := by
  rcases hr : readMessage s.fmt s.csid s.currentStream s.recvBuffer with ⟨r, cs, b⟩
  rw [readCurrentStream, hr] at h
  cases h
  simp [hret]

theorem readChunkStream_push {s s' : SessionBase} (h : s.readChunkStream = (.ok, s'))
    (e : Bytes) : (s.push e).readChunkStream = (.ok, s'.push e) := by
  unfold readChunkStream at h ⊢
  rcases hr : s.readBasicHeader with ⟨r, s₁⟩
  rw [hr] at h
  cases r with
  | ok => rw [readBasicHeader_push hr]; exact readCurrentStream_push h e
  | needReadMore => cases h
  | error => cases h

/-- A session that waits can be resumed unless it has lost a basic header. -/
theorem readChunkStream_resume {s s' : SessionBase} {ret : RtmpRet}
    (h : s.readChunkStream = (ret, s')) (hret : ret ≠ .ok)
    (hmid : s'.midBasicHeader = false) (e : Bytes) :
    (s'.push e).readChunkStream = (s.push e).readChunkStream := by
  unfold readChunkStream at h
  rcases hr : s.readBasicHeader with ⟨r, s₁⟩
  have hwait : r ≠ .ok → s₁ = s ∨ s₁.midBasicHeader = true := readBasicHeader_wait hr
  rw [hr] at h
  cases r with
  | ok =>
    have hready : s'.fmtReady = true := by
      rw [readCurrentStream_wait h hret, (readBasicHeader_ok hr).1]
    have hbasic : (s'.push e).readBasicHeader = (.ok, s'.push e) := by
      rw [readBasicHeader, if_pos (by exact hready)]
    rw [readChunkStream, hbasic, readChunkStream, readBasicHeader_push hr]
    exact readCurrentStream_resume h hret e
  | needReadMore =>
    cases h
    rcases hwait hret with rfl | hm
    · rfl
    · rw [hm] at hmid; cases hmid
  | error =>
    cases h
    rcases hwait hret with rfl | hm
    · rfl
    · rw [hm] at hmid; cases hmid

theorem readChunkStream_ok {s s' : SessionBase} (h : s.readChunkStream = (.ok, s')) :
    s'.fmtReady = false ∧ s'.recvBuffer.length < s.pending := by
  unfold readChunkStream at h
  rcases hr : s.readBasicHeader with ⟨r, s₁⟩
  rw [hr] at h
  cases r with
  | ok =>
    obtain ⟨hready, hle, -⟩ := readCurrentStream_ok h
    obtain ⟨-, hlt, -, -⟩ := readBasicHeader_ok hr
    exact ⟨hready, Nat.lt_of_le_of_lt hle hlt⟩
  | needReadMore => cases h
  | error => cases h

/-! ## The receive loop as a consumer -/

section Loop

variable (onMessage : Message → UInt32 → UInt32)

theorem deliver_push (s : SessionBase) (e : Bytes) :
    (s.push e).deliver onMessage =
      ((s.deliver onMessage).1.push e, (s.deliver onMessage).2) := by
  have hcs : (s.push e).currentStream = s.currentStream := rfl
  unfold deliver
  rw [hcs]
  split
  · rfl
  · rfl

@[simp] theorem deliver_fmtReady (s : SessionBase) :
    (s.deliver onMessage).1.fmtReady = s.fmtReady := by
  unfold deliver
  split <;> rfl

@[simp] theorem deliver_recvBuffer (s : SessionBase) :
    (s.deliver onMessage).1.recvBuffer = s.recvBuffer := by
  unfold deliver
  split <;> rfl

@[simp] theorem deliver_csid (s : SessionBase) :
    (s.deliver onMessage).1.csid = s.csid := by
  unfold deliver
  split <;> rfl

/-- The receive loop, one `read_chunk_stream` per turn. -/
def chunkConsumer : Consumer SessionBase UInt8 Message where
  push := push
  turn := receiveTurn onMessage
  size := pending
  push_nil := push_nil
  push_push := push_push
  size_lt := by
    intro s s' out h
    unfold receiveTurn at h
    rcases hr : s.readChunkStream with ⟨r, s₁⟩
    rw [hr] at h
    cases r <;> cases h
    obtain ⟨hready, hlt⟩ := readChunkStream_ok hr
    simpa [pending, hready] using hlt
  turn_push := by
    intro s s' out e h
    unfold receiveTurn at h ⊢
    rcases hr : s.readChunkStream with ⟨r, s₁⟩
    rw [hr] at h
    cases r <;> cases h
    rw [readChunkStream_push hr]
    simp only [deliver_push]

/-- A step is taken as it is when more input stands behind it. -/
theorem consume_push_of_step {s s' : SessionBase} {out : List Message}
    (h : s.receiveTurn onMessage = .step s' out) (e : Bytes) :
    (chunkConsumer onMessage).consume (s.push e) =
      (((chunkConsumer onMessage).consume (s'.push e)).1,
        out ++ ((chunkConsumer onMessage).consume (s'.push e)).2) :=
  Consumer.consume_of_step _ ((chunkConsumer onMessage).turn_push e h)

/-- A session that waits outside a longer basic header can be resumed. -/
theorem resumable_of_not_mid {s' : SessionBase} (hmid : s'.midBasicHeader = false) :
    (chunkConsumer onMessage).Resumable s' := by
  intro s e h
  have hresume : ∀ r, s.readChunkStream = (r, s') → r ≠ .ok →
      (s'.push e).readChunkStream = (s.push e).readChunkStream :=
    fun r hr hne => readChunkStream_resume hr hne hmid e
  simp only [chunkConsumer, receiveTurn] at h ⊢
  rcases hr : s.readChunkStream with ⟨r, s₁⟩
  rw [hr] at h
  cases r <;> cases h
  · rw [hresume _ hr (by simp)]
  · rw [hresume _ hr (by simp)]

/-- With nothing to read a session waits and stays as it is. -/
theorem receiveTurn_empty {s : SessionBase} (hready : s.fmtReady = false)
    (hbuf : s.recvBuffer = []) : s.receiveTurn onMessage = .wait s := by
  simp [receiveTurn, readChunkStream, readBasicHeader, readFmtCsid, hready, hbuf]

/-- The loop stops at an empty buffer without another turn, and a turn there
would do nothing. -/
theorem receiveLoop_eq_consume {n : Nat} {s : SessionBase} (h : s.pending < n) :
    receiveLoop onMessage n s = (chunkConsumer onMessage).consume s := by
  induction n generalizing s with
  | zero => omega
  | succ n ih =>
    rw [receiveLoop]
    rcases hr : s.readChunkStream with ⟨r, s₁⟩
    have hturn : (chunkConsumer onMessage).turn s = s.receiveTurn onMessage := rfl
    rw [receiveTurn, hr] at hturn
    cases r with
    | ok =>
      obtain ⟨hready, hlt⟩ := readChunkStream_ok hr
      have hpend : (s₁.deliver onMessage).1.pending < n := by
        simp only [pending, deliver_recvBuffer, deliver_fmtReady, hready]
        simpa using by omega
      rw [Consumer.consume_of_step _ hturn, ← ih hpend]
      by_cases hbuf : (s₁.deliver onMessage).1.recvBuffer = []
      · have hready' : (s₁.deliver onMessage).1.fmtReady = false := by
          rw [deliver_fmtReady, hready]
        have hstop := Consumer.consume_of_wait (chunkConsumer onMessage)
          (receiveTurn_empty onMessage hready' hbuf)
        simp [ih hpend, hstop]
      · have hpos : (s₁.deliver onMessage).1.recvBuffer.dataLen > 0 :=
          List.length_pos_iff.mpr hbuf
        simp only [hpos, if_true]
    | needReadMore => rw [Consumer.consume_of_wait _ hturn]
    | error => rw [Consumer.consume_of_wait _ hturn]

theorem receive_eq_consume (s : SessionBase) (data : Bytes) :
    s.receive onMessage data = (chunkConsumer onMessage).consume (s.push data) := by
  refine receiveLoop_eq_consume onMessage (s := s.push data) ?_
  have hbit : (if (s.push data).fmtReady then 1 else 0) ≤ 1 := by split <;> omega
  show (s.push data).recvBuffer.length + _ < (s.push data).recvBuffer.length + 2
  omega

theorem receiveAll_eq_feed (s : SessionBase) (reads : List Bytes) :
    s.receiveAll onMessage reads = (chunkConsumer onMessage).feed s reads := by
  induction reads generalizing s with
  | nil => rfl
  | cons data rest ih =>
    rw [receiveAll, Consumer.feed, receive_eq_consume]
    simp only [ih]
    rfl

/-- No read but the last ends inside a basic header of two or three bytes. -/
def CutsOutsideBasicHeaders (s : SessionBase) (reads : List Bytes) : Prop :=
  ∀ front back, reads = front ++ back → front ≠ [] → back ≠ [] →
    (s.receiveAll onMessage front).1.midBasicHeader = false

/-- Reads that do not cut a longer basic header are read like their
concatenation. -/
theorem receiveAll_eq_receive (s : SessionBase) {reads : List Bytes} (hne : reads ≠ [])
    (hcut : s.CutsOutsideBasicHeaders onMessage reads) :
    s.receiveAll onMessage reads = s.receive onMessage reads.flatten := by
  rw [receiveAll_eq_feed, receive_eq_consume]
  apply Consumer.feed_eq_consume _ _ _ hne
  intro front back hsplit hfront hback
  apply resumable_of_not_mid
  rw [← receiveAll_eq_feed]
  exact hcut front back hsplit hfront hback

/-- A stream none of whose beginnings ends inside a longer basic header may be
cut anywhere. -/
theorem cutsOutsideBasicHeaders_of_prefix {s : SessionBase} {reads : List Bytes}
    (hne : ∀ data ∈ reads, data ≠ [])
    (h : ∀ front back, reads.flatten = front ++ back → front ≠ [] →
      (s.receive onMessage front).1.midBasicHeader = false) :
    s.CutsOutsideBasicHeaders onMessage reads := by
  have key : ∀ n front back, reads = front ++ back → front ≠ [] → front.length ≤ n →
      (s.receiveAll onMessage front).1.midBasicHeader = false := by
    intro n
    induction n with
    | zero =>
      intro front back _ hfront hle
      exact absurd (List.length_eq_zero_iff.mp (by omega)) hfront
    | succ n ih =>
      intro front back hsplit hfront hle
      have hcut : s.CutsOutsideBasicHeaders onMessage front := by
        intro f b hfb hf hb
        have hpos := List.length_pos_iff.mpr hb
        refine ih f (b ++ back) (by rw [hsplit, hfb, List.append_assoc]) hf ?_
        rw [hfb, List.length_append] at hle
        omega
      rw [receiveAll_eq_receive onMessage s hfront hcut]
      apply h front.flatten back.flatten (by rw [hsplit, List.flatten_append])
      obtain ⟨data, rest, rfl⟩ := List.exists_cons_of_ne_nil hfront
      intro hnil
      rw [List.flatten_cons, List.append_eq_nil_iff] at hnil
      exact hne data (by simp [hsplit]) hnil.1
  intro front back hsplit hfront _
  exact key front.length front back hsplit hfront (Nat.le_refl _)

/-- **Segmentation independence.**  Two ways of cutting a stream into reads, of
which none but the last ends inside a longer basic header, deliver the same
messages and leave the same session. -/
theorem receiveAll_segmentation (s : SessionBase) (reads reads' : List Bytes)
    (hne : ∀ data ∈ reads, data ≠ []) (hne' : ∀ data ∈ reads', data ≠ [])
    (hflat : reads.flatten = reads'.flatten)
    (hcut : s.CutsOutsideBasicHeaders onMessage reads)
    (hcut' : s.CutsOutsideBasicHeaders onMessage reads') :
    s.receiveAll onMessage reads = s.receiveAll onMessage reads' := by
  have hnil : ∀ l : List Bytes, (∀ data ∈ l, data ≠ []) → l.flatten = [] → l = [] := by
    intro l hl hf
    cases l with
    | nil => rfl
    | cons data rest =>
      rw [List.flatten_cons, List.append_eq_nil_iff] at hf
      exact absurd hf.1 (hl data (by simp))
  by_cases hr : reads = []
  · subst hr
    rw [hnil reads' hne' hflat.symm]
  · have hr' : reads' ≠ [] := by
      intro h'
      rw [h'] at hflat
      exact hr (hnil reads hne hflat)
    rw [receiveAll_eq_receive onMessage s hr hcut, receiveAll_eq_receive onMessage s hr' hcut',
      hflat]

end Loop

/-- One message read in two pieces and in one. -/
theorem receiveAll_segmentation_oneByte :
    receiveAll keepChunkSize {} [[4, 0, 0, 40, 0, 0], [2, 8, 0, 0, 0, 1, 7, 9]] =
      receiveAll keepChunkSize {} [[4, 0, 0, 40, 0, 0, 2, 8, 0, 0, 0, 1, 7, 9]] := by
  refine receiveAll_segmentation keepChunkSize {} _ _ (by decide) (by decide) rfl ?_ ?_
  · intro front back hsplit hfront hback
    rcases front with _ | ⟨a, _ | ⟨b, front⟩⟩
    · exact absurd rfl hfront
    · cases hsplit
      decide
    · cases front <;> cases back <;> simp at hsplit hback
  · intro front back hsplit hfront hback
    rcases front with _ | ⟨a, front⟩
    · exact absurd rfl hfront
    · cases front <;> cases back <;> simp at hsplit hback

/-- A message on chunk stream 134, read at once and with a read that ends after
the first byte of its two-byte basic header: the second byte is then taken for
a basic header of its own, and another message comes out. -/
theorem receiveAll_segmentation_lost_header :
    ([[0x00], [0x46, 0, 0, 0, 0, 0, 1, 8, 0, 0, 0, 1, 0xaa]] : List Bytes).flatten =
        ([[0x00, 0x46, 0, 0, 0, 0, 0, 1, 8, 0, 0, 0, 1, 0xaa]] : List Bytes).flatten ∧
      (receiveAll keepChunkSize {}
        [[0x00, 0x46, 0, 0, 0, 0, 0, 1, 8, 0, 0, 0, 1, 0xaa]]).2 = [⟨134, 0, 8, 1, [0xaa]⟩] ∧
      (receiveAll keepChunkSize {}
        [[0x00], [0x46, 0, 0, 0, 0, 0, 1, 8, 0, 0, 0, 1, 0xaa]]).2 = [⟨6, 0, 8, 0, [0]⟩] := by
  decide

end SessionBase

end MediaServer
