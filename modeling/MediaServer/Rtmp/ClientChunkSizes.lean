import MediaServer.Rtmp.ChunkSizes
import MediaServer.Rtmp.ClientReading

/-!
# Chunk sizes of a client

A client session reads through the same `read_chunk_stream` as a session of the
server, with the same `chunk_size_`.  It answers no connect command, so only a
SET_CHUNK_SIZE of its server changes the size.  Nothing that a client does
drops its chunk streams: they are still there when the session is closed and
started again.

`Sized` is what one step does to the sizes, and `one_chunk_size_replies_iff`
says when all chunk streams have the size of the session.
-/

namespace MediaServer

namespace SessionBase

/-- No `read_chunk_stream` drops a chunk stream. -/
theorem readChunkStream_kept {s s' : SessionBase} {ret : RtmpRet}
    (h : s.readChunkStream = (ret, s')) (k : UInt8) (hk : s'.csMap k = none) :
    s.csMap k = none := by
  rcases (readChunkStream_cases h).2 with ⟨-, -, hmap⟩ | ⟨s₁, cs, buffer, -, -, -, hmap, -⟩
  · rw [← hmap]
    exact hk
  · rw [hmap] at hk
    by_cases hkey : k = mapKey s₁.csid
    · rw [hkey, Function.update_self] at hk
      cases hk
    · rw [Function.update_of_ne hkey] at hk
      exact hk

end SessionBase

namespace ClientSession

/-! ## What a step does to the sizes -/

/-- The parser has the chunk size and the chunk streams that it had. -/
structure SameSizes (s s' : ClientSession) : Prop where
  csMap : s'.base.csMap = s.base.csMap
  chunkSize : s'.base.chunkSize = s.base.chunkSize

/-- What a step has done that read a message which announces a size, or none. -/
structure Sized (announced : Option UInt32) (s s' : ClientSession) : Prop where
  streams : StreamsFrom s.base.csMap s.base.chunkSize s'.base.csMap
  kept : ∀ k, s'.base.csMap k = none → s.base.csMap k = none
  chunkSize : s'.base.chunkSize = announced.getD s.base.chunkSize
  filed : announced ≠ none → ∃ k cs, s'.base.csMap k = some cs

theorem SameSizes.sized {s s' : ClientSession} (h : SameSizes s s') : Sized none s s' where
  streams := by
    rw [h.csMap]
    exact streamsFrom_refl _ _
  kept k hk := h.csMap ▸ hk
  chunkSize := h.chunkSize
  filed hne := absurd rfl hne

theorem Sized.trans_same {announced : Option UInt32} {s t u : ClientSession}
    (h : Sized announced s t) (hsame : SameSizes t u) : Sized announced s u where
  streams := hsame.csMap ▸ h.streams
  kept k hk := h.kept k (hsame.csMap ▸ hk)
  chunkSize := hsame.chunkSize.trans h.chunkSize
  filed := hsame.csMap ▸ h.filed

/-! ### Messages -/

/-- The parser when a message has been handled: the size is the announced one, and the
chunk stream of the message is reset or not. -/
theorem handleMessage_sizes {after : Bytes} {m : Message} {s s' : ClientSession}
    {ret : Option RtmpRet} {cs : ChunkStream}
    (hfiled : s.base.csMap (SessionBase.mapKey s.base.csid) = some cs)
    (h : s.handleMessage after m = .ok (ret, s')) :
    s'.base.chunkSize = (Session.announced m).getD s.base.chunkSize ∧
      (s'.base.csMap = s.base.csMap ∨
        s'.base.csMap = Function.update s.base.csMap (SessionBase.mapKey s.base.csid)
          (some cs.reset)) := by
  -- the stream of the message is reset
  have hreset : ∀ t : Session, t.base.csMap = s.base.csMap → t.base.csid = s.base.csid →
      t.resetStream.base.chunkSize = t.base.chunkSize ∧
        t.resetStream.base.csMap = Function.update s.base.csMap
          (SessionBase.mapKey s.base.csid) (some cs.reset) := by
    intro t hmap hcsid
    refine ⟨rfl, ?_⟩
    simp only [Session.resetStream, SessionBase.currentStream, hmap, hcsid, hfiled,
      Option.getD_some]
  -- behind a control message or a command
  have hfinish : ∀ {t : ClientSession} {r : RtmpRet}, t.base.csMap = s.base.csMap →
      t.base.csid = s.base.csid → finishMessage r t = (ret, s') →
      s'.base.chunkSize = t.base.chunkSize ∧ (s'.base.csMap = s.base.csMap ∨
        s'.base.csMap = Function.update s.base.csMap (SessionBase.mapKey s.base.csid)
          (some cs.reset)) := by
    intro t r hmap hcsid h
    unfold finishMessage at h
    split_ifs at h
    · cases h
      exact ⟨rfl, Or.inl hmap⟩
    · cases h
      obtain ⟨hsize, hmap'⟩ := hreset t.toSession hmap hcsid
      exact ⟨hsize, Or.inr hmap'⟩
  have hnone : m.typeId ≠ 1 → (Session.announced m).getD s.base.chunkSize = s.base.chunkSize := by
    intro hne
    simp [Session.announced, hne]
  unfold handleMessage at h
  split_ifs at h with hctrl hcmd hmedia
  · have htype := Session.typeId_ne_of_control hctrl
    have hbase := (Session.handleRtmpControlMessage_effect after s.toSession htype).base
    obtain ⟨hsize, hmap⟩ := hfinish (by simp only [hbase]) (by simp only [hbase]) (Except.ok.inj h)
    refine ⟨?_, hmap⟩
    rw [hsize]
    simp only [hbase, Session.chunkSizeAfter, Session.answersConnect,
      Session.command_eq_none after htype]
    rcases Session.announced m with _ | n
    · rfl
    · rfl
  · obtain ⟨⟨ret₁, s₁⟩, h₁, h⟩ := Run.exists_of_bind_ok h
    have hbase : s₁.base = s.base := by
      rcases handleServerCommandMessage_eq hcmd h₁ with ⟨-, -, hs₁⟩ | ⟨-, -, hs₁⟩
      · rw [hs₁]
      · rw [hs₁]
    obtain ⟨hsize, hmap⟩ := hfinish (by rw [hbase]) (by rw [hbase]) (Except.ok.inj h)
    refine ⟨?_, hmap⟩
    rw [hnone (by rw [hcmd]; decide), hsize, hbase]
  · obtain ⟨pkt, -, h⟩ := Run.exists_of_bind_ok h
    rw [hnone (fun h1 => hctrl (by rw [h1]; decide))]
    split_ifs at h
    · cases h
      exact ⟨rfl, Or.inl rfl⟩
    · cases h
      obtain ⟨hsize, hmap⟩ := hreset s.toSession rfl rfl
      exact ⟨hsize, Or.inr hmap⟩
  · cases h
    rw [hnone (fun h1 => hctrl (by rw [h1]; decide))]
    exact ⟨rfl, Or.inl rfl⟩

/-- One pass of the loop. -/
theorem respPass_sized {after : Bytes} {s s' : ClientSession} {ret : Option RtmpRet}
    (h : s.respPass after = .ok (ret, s')) :
    Sized (s.base.nextMessage.bind Session.announced) s s' := by
  unfold respPass at h
  rcases hr : s.base.readChunkStream with ⟨r, base⟩
  obtain ⟨hsize, hstreams⟩ := SessionBase.readChunkStream_frame hr
  have hkept := SessionBase.readChunkStream_kept hr
  rw [hr] at h
  rw [SessionBase.nextMessage, hr]
  cases r with
  | ok =>
    have hfiled := SessionBase.readChunkStream_filed hr
    by_cases hmsg : base.currentStream.isReady = true
    · simp only [hmsg, Bool.not_true, Bool.false_eq_true, if_false] at h
      simp only [hmsg, if_true, Option.bind_some]
      obtain ⟨hafter, hmap⟩ := handleMessage_sizes hfiled h
      have hsize' : s'.base.chunkSize =
          (Session.announced base.currentStream.message).getD s.base.chunkSize := by
        rw [← hsize]
        exact hafter
      rcases hmap with hmap | hmap
      · have hsame : s'.base.csMap = base.csMap := hmap
        exact
          { streams := hsame ▸ hstreams
            kept := hsame ▸ hkept
            chunkSize := hsize'
            filed := fun _ => ⟨_, _, hsame ▸ hfiled⟩ }
      · have hreset : s'.base.csMap = Function.update base.csMap
            (SessionBase.mapKey base.csid) (some base.currentStream.reset) := hmap
        refine ⟨hreset ▸ hstreams.update hfiled rfl, ?_, hsize', fun _ => ?_⟩
        · intro k hk
          rw [hreset] at hk
          by_cases hkey : k = SessionBase.mapKey base.csid
          · rw [hkey, Function.update_self] at hk
            cases hk
          · rw [Function.update_of_ne hkey] at hk
            exact hkept k hk
        · exact ⟨SessionBase.mapKey base.csid, _, by rw [hreset, Function.update_self]⟩
    · simp only [hmsg, Bool.not_false, if_true] at h
      cases h
      simp only [hmsg, Bool.false_eq_true, if_false, Option.bind_none]
      exact ⟨hstreams, hkept, hsize, fun hne => absurd rfl hne⟩
  | needReadMore =>
    cases h
    exact ⟨hstreams, hkept, hsize, fun hne => absurd rfl hne⟩
  | error =>
    cases h
    exact ⟨hstreams, hkept, hsize, fun hne => absurd rfl hne⟩

/-! ### The rest of a callback -/

theorem sendCommand_sameSizes {command : ClientCommand} {data : Bytes} {s s' : ClientSession}
    (h : s.sendCommand command data = .ok s') : SameSizes s s' := by
  obtain ⟨sent, hs'⟩ := sendCommand_ok h
  subst hs'
  exact ⟨rfl, rfl⟩

theorem handleS0s1s2_sameSizes {s s' : ClientSession} (h : s.handleS0s1s2 = .ok s') :
    SameSizes s s' := by
  unfold handleS0s1s2 at h
  split_ifs at h
  · cases h
    exact ⟨rfl, rfl⟩
  · obtain ⟨s₁, hsend, h⟩ := Run.exists_of_bind_ok h
    have hsame := sendCommand_sameSizes hsend
    cases h
    exact ⟨hsame.csMap, hsame.chunkSize⟩

theorem resume_sameSizes {s s' : ClientSession} (h : s.resume = .ok s') : SameSizes s s' := by
  unfold resume at h
  rcases hphase : s.clientPhase <;> simp only [hphase] at h
  case createStream =>
    obtain ⟨s₁, hsend, h⟩ := Run.exists_of_bind_ok h
    have hsame := sendCommand_sameSizes hsend
    cases h
    exact ⟨hsame.csMap, hsame.chunkSize⟩
  case createPlay =>
    obtain ⟨s₁, hsend, h⟩ := Run.exists_of_bind_ok h
    have hsame := sendCommand_sameSizes hsend
    cases h
    exact ⟨hsame.csMap, hsame.chunkSize⟩
  case createPublish =>
    obtain ⟨s₁, hsend, h⟩ := Run.exists_of_bind_ok h
    have hsame := sendCommand_sameSizes hsend
    cases h
    exact ⟨hsame.csMap, hsame.chunkSize⟩
  all_goals
    cases h
    exact ⟨rfl, rfl⟩

theorem endLoop_sameSizes {p : RespPhase} {ret : RtmpRet} {s s' : ClientSession}
    (h : s.endLoop p ret = .ok s') : SameSizes s s' := by
  unfold endLoop at h
  split at h
  · cases h
    exact ⟨rfl, rfl⟩
  · cases h
    exact ⟨rfl, rfl⟩
  · split_ifs at h
    · have hsame := resume_sameSizes h
      exact ⟨hsame.csMap, hsame.chunkSize⟩
    · exact resume_sameSizes h
  · cases h
    exact ⟨rfl, rfl⟩
  · have hsame := resume_sameSizes h
    exact ⟨hsame.csMap, hsame.chunkSize⟩
  · cases h
    exact ⟨rfl, rfl⟩

theorem onRead_sameSizes {data : Bytes} {s s' : ClientSession} (h : s.onRead data = .ok s') :
    SameSizes s s' := by
  simp only [onRead] at h
  split at h
  · have hsame := handleS0s1s2_sameSizes h
    exact ⟨hsame.csMap, hsame.chunkSize⟩
  · cases h
    exact ⟨rfl, rfl⟩
  · have hsame := resume_sameSizes h
    exact ⟨hsame.csMap, hsame.chunkSize⟩

/-! ### Steps -/

/-- The size that the message announces which a step reads, if it reads one. -/
def announcedBy (e : Event) (s : ClientSession) : Option UInt32 :=
  match e, s.control with
  | .pass _, .receiving _ => s.base.nextMessage.bind Session.announced
  | _, _ => none

theorem announcedBy_of_disabled {e : Event} {s : ClientSession} (h : s.enabled e = false) :
    s.announcedBy e = none := by
  cases e with
  | pass after =>
    have hidle : s.control = .idle := by simpa [enabled] using h
    simp [announcedBy, hidle]
  | _ => rfl

theorem step_sized {e : Event} {s s' : ClientSession} (h : s.step e = .ok s') :
    Sized (s.announcedBy e) s s' := by
  rcases step_cases h with ⟨hdisabled, hs'⟩ | ⟨c1, rfl, -, hs'⟩ | ⟨data, rfl, -, hread⟩ |
    ⟨after, p, rfl, hcontrol, hpass⟩ | ⟨rfl, hs'⟩ | ⟨pkt, sent, rfl, hs'⟩
  · rw [announcedBy_of_disabled hdisabled, hs']
    exact SameSizes.sized ⟨rfl, rfl⟩
  · cases c1 with
    | none =>
      rw [hs']
      exact SameSizes.sized ⟨rfl, rfl⟩
    | some c1 =>
      rw [hs']
      exact SameSizes.sized ⟨rfl, rfl⟩
  · exact (onRead_sameSizes hread).sized
  · simp only [announcedBy, hcontrol]
    unfold receivePass at hpass
    simp only [hcontrol] at hpass
    obtain ⟨⟨ret, s₁⟩, hresp, hpass⟩ := Run.exists_of_bind_ok hpass
    have hsized := respPass_sized hresp
    cases ret with
    | none =>
      cases hpass
      exact hsized
    | some r => exact hsized.trans_same (endLoop_sameSizes hpass)
  · rw [hs']
    exact SameSizes.sized ⟨rfl, rfl⟩
  · rw [hs']
    exact SameSizes.sized ⟨rfl, rfl⟩

/-! ## One size for all chunk streams -/

/-- The step reads no message that announces another size than the default one. -/
def KeepsDefault (e : Event) (s : ClientSession) : Prop :=
  ∀ n, s.announcedBy e = some n → n = CHUNK_DEF_SIZE

instance (e : Event) (s : ClientSession) : Decidable (KeepsDefault e s) :=
  decidable_of_iff ((s.announcedBy e).all (· = CHUNK_DEF_SIZE) = true) <| by
    unfold KeepsDefault
    cases s.announcedBy e <;> simp

/-- All sizes are still the default one, or a chunk stream keeps it from before. -/
def Defaulted (s : ClientSession) : Prop :=
  (s.base.OneSize ∧ s.base.chunkSize = CHUNK_DEF_SIZE) ∨
    ∃ k cs, s.base.csMap k = some cs ∧ cs.chunkSize = CHUNK_DEF_SIZE

/-- Where all chunk streams have one size, it is the default one. -/
theorem Defaulted.chunkSize {s : ClientSession} (h : Defaulted s) (hone : s.base.OneSize) :
    s.base.chunkSize = CHUNK_DEF_SIZE := by
  rcases h with ⟨-, hsize⟩ | ⟨k, cs, hk, hsize⟩
  · exact hsize
  · rw [← hone k cs hk, hsize]

/-- The size of a chunk stream behind a step, when all had the default size. -/
theorem Sized.default {announced : Option UInt32} {s s' : ClientSession}
    (h : Sized announced s s') (hone : s.base.OneSize) (hsize : s.base.chunkSize = CHUNK_DEF_SIZE)
    {k : UInt8} {cs : ChunkStream} (hk : s'.base.csMap k = some cs) :
    cs.chunkSize = CHUNK_DEF_SIZE := by
  rcases h.streams k cs hk with ⟨cs₀, hk₀, heq⟩ | ⟨-, heq⟩
  · rw [heq, hone k cs₀ hk₀, hsize]
  · rw [heq, hsize]

theorem Defaulted.step {e : Event} {s s' : ClientSession} (h : Defaulted s)
    (hstep : s.step e = .ok s') : Defaulted s' := by
  have hsized := step_sized hstep
  rcases h with ⟨hone, hsize⟩ | ⟨k, cs, hk, hsize⟩
  · rcases hann : s.announcedBy e with _ | n
    · have hsize' : s'.base.chunkSize = CHUNK_DEF_SIZE := by
        rw [hsized.chunkSize, hann, Option.getD_none, hsize]
      refine Or.inl ⟨?_, hsize'⟩
      intro k cs hk
      rw [hsized.default hone hsize hk, hsize']
    · -- the chunk stream of the message keeps the default size
      obtain ⟨k, cs, hk⟩ := hsized.filed (by simp [hann])
      exact Or.inr ⟨k, cs, hk, hsized.default hone hsize hk⟩
  · right
    rcases hk' : s'.base.csMap k with _ | cs'
    · rw [hsized.kept k hk'] at hk
      cases hk
    · refine ⟨k, cs', hk', ?_⟩
      rcases hsized.streams k cs' hk' with ⟨cs₀, hk₀, heq⟩ | ⟨hnone, -⟩
      · rw [hk, Option.some.injEq] at hk₀
        rw [heq, ← hk₀, hsize]
      · rw [hnone] at hk
        cases hk

/-- **One step.**  It keeps the sizes together exactly when it reads no message that
announces another size. -/
theorem oneSize_step_iff {e : Event} {s s' : ClientSession} (h : Defaulted s)
    (hone : s.base.OneSize) (hstep : s.step e = .ok s') :
    s'.base.OneSize ↔ KeepsDefault e s := by
  have hsized := step_sized hstep
  have hsize := h.chunkSize hone
  have hall : ∀ k cs, s'.base.csMap k = some cs → cs.chunkSize = CHUNK_DEF_SIZE :=
    fun k cs hk => hsized.default hone hsize hk
  unfold KeepsDefault
  rcases hann : s.announcedBy e with _ | n
  · have hsize' : s'.base.chunkSize = CHUNK_DEF_SIZE := by
      rw [hsized.chunkSize, hann, Option.getD_none, hsize]
    refine iff_of_true ?_ (by simp)
    intro k cs hk
    rw [hall k cs hk, hsize']
  · have hsize' : s'.base.chunkSize = n := by rw [hsized.chunkSize, hann, Option.getD_some]
    constructor
    · intro hone' n' hn'
      cases hn'
      obtain ⟨k, cs, hk⟩ := hsized.filed (by simp [hann])
      rw [← hsize', ← hone' k cs hk, hall k cs hk]
    · intro hdef k cs hk
      rw [hall k cs hk, hsize', hdef n rfl]

/-- **One chunk size for a client.**  The chunk streams of a client session have the
session's chunk size in all states of a run exactly when no message that the client
reads announces another size than the default one. -/
theorem one_chunk_size_replies_iff {publish : Bool} {tcurl app streamName : Bytes}
    {events : List Event} {s : ClientSession}
    (hrun : Run.run step events (start publish tcurl app streamName) = .ok s) :
    (∀ pre s', pre <+: events →
      Run.run step pre (start publish tcurl app streamName) = .ok s' → s'.base.OneSize) ↔
      Run.Along step KeepsDefault events (start publish tcurl app streamName) := by
  have hone : (start publish tcurl app streamName).base.OneSize := by
    intro k cs hk
    cases hk
  refine @Run.forall_prefix_iff_along ClientSession Fault Event step KeepsDefault Defaulted
    (fun s => s.base.OneSize) ?_ ?_ events _ s (Or.inl ⟨hone, rfl⟩) hone hrun
  · exact fun _ _ _ h hstep => h.step hstep
  · exact fun _ _ _ h hone hstep => oneSize_step_iff h hone hstep

/-- A server that announces the default size, and then the one of most servers. -/
example : Run.Along step KeepsDefault
      (Server.accept ++ Server.send 1 (Client.message 2 1 [0, 0, 0, 128]))
      (start false [] (ascii "live") (ascii "s")) ∧
    ¬ Run.Along step KeepsDefault (Server.accept ++ Server.send 1 Server.setChunkSize)
      (start false [] (ascii "live") (ascii "s")) := by
  decide +kernel

end ClientSession

end MediaServer
