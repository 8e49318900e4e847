import MediaServer.Rtmp.ServerView
import MediaServer.Rtmp.Segmentation

/-!
# What the steps of the server do

The step function of the server, inverted once.  `Session.receivePass_some`
says what a pass does to its session, `Heap.tame_rtmpWriter` that a packet that
is sent to the players changes nothing the invariants look at, and
`World.step_view` that every step of the server is a `View.Step`.

`World.run_rule` is the rule by which the invariants are proved.
-/

namespace MediaServer

/-! ## The chunk streams of a session -/

theorem streamsFrom_refl (csMap : UInt8 → Option ChunkStream) (chunkSize : UInt32) :
    StreamsFrom csMap chunkSize csMap := by
  intro k cs hk
  exact Or.inl ⟨cs, hk, rfl⟩

/-- A stream of the map is replaced by one with the same chunk size. -/
theorem StreamsFrom.update {csMap csMap' : UInt8 → Option ChunkStream} {chunkSize : UInt32}
    (h : StreamsFrom csMap chunkSize csMap') {k : UInt8} {cs cs' : ChunkStream}
    (hk : csMap' k = some cs) (hsize : cs'.chunkSize = cs.chunkSize) :
    StreamsFrom csMap chunkSize (Function.update csMap' k (some cs')) := by
  intro k' cs₁ hk'
  by_cases hkey : k' = k
  · rw [hkey, Function.update_self, Option.some.injEq] at hk'
    rw [hkey, ← hk', hsize]
    exact h k cs hk
  · rw [Function.update_of_ne hkey] at hk'
    exact h k' cs₁ hk'

namespace SessionBase

theorem readMessage_chunkSize {fmt : UInt8} {csid : UInt16} {cs cs' : ChunkStream}
    {buffer buffer' : DataBuffer} {ret : RtmpRet}
    (h : readMessage fmt csid cs buffer = (ret, cs', buffer')) : cs'.chunkSize = cs.chunkSize := by
  have hpay : ∀ {cs cs' : ChunkStream} {b b' : DataBuffer} {ret : RtmpRet},
      cs.readMessagePayload b = (ret, cs', b') → cs'.chunkSize = cs.chunkSize := by
    intro cs cs' b b' ret h
    by_cases hp : cs.phase = .payload
    · rw [ChunkStream.readMessagePayload_eq hp] at h
      split_ifs at h
      · cases h
        rfl
      · cases h
        rfl
    · rw [ChunkStream.readMessagePayload, if_pos hp] at h
      cases h
      rfl
  rcases readMessage_cases h with ⟨-, h⟩ | ⟨-, cs₁, buffer₁, hr, h⟩ | ⟨-, -, hr⟩
  · exact hpay h
  · obtain ⟨-, hsize, -⟩ := ChunkStream.readMsgHeader_frame hr
    have hlast := hpay h
    exact hlast.trans hsize
  · obtain ⟨-, hsize, -⟩ := ChunkStream.readMsgHeader_frame hr
    exact hsize

/-- The basic header leaves the map and the chunk size alone. -/
theorem readBasicHeader_frame {s s' : SessionBase} {ret : RtmpRet}
    (h : s.readBasicHeader = (ret, s')) : s'.csMap = s.csMap ∧ s'.chunkSize = s.chunkSize := by
  unfold readBasicHeader at h
  split_ifs at h
  · cases h
    exact ⟨rfl, rfl⟩
  · have hfmt : ∀ {r : RtmpRet} {t : SessionBase}, s.readFmtCsid = (r, t) →
        t.csMap = s.csMap ∧ t.chunkSize = s.chunkSize := by
      intro r t hr
      unfold readFmtCsid at hr
      rcases hb : s.recvBuffer with _ | ⟨p, rest⟩
      · rw [hb] at hr
        cases hr
        exact ⟨rfl, rfl⟩
      · simp only [hb] at hr
        split_ifs at hr
        · rcases rest with _ | ⟨q, rest⟩ <;> cases hr <;> exact ⟨rfl, rfl⟩
        · rcases rest with _ | ⟨q, _ | ⟨r, rest⟩⟩ <;> cases hr <;> exact ⟨rfl, rfl⟩
        · cases hr
          exact ⟨rfl, rfl⟩
    rcases hr : s.readFmtCsid with ⟨r, t⟩
    have ht := hfmt hr
    rw [hr] at h
    rcases r with _ | _ | _ <;> cases h <;> exact ht

/-- The parser behind the basic header of the next chunk, if that header is there. -/
def atMessage (s : SessionBase) : Option SessionBase :=
  match s.readBasicHeader with
  | (.ok, s₁) => some s₁
  | _ => none

theorem atMessage_frame {s s₁ : SessionBase} (h : s.atMessage = some s₁) :
    s₁.csMap = s.csMap ∧ s₁.chunkSize = s.chunkSize := by
  unfold atMessage at h
  rcases hb : s.readBasicHeader with ⟨r, t⟩
  rw [hb] at h
  rcases r with _ | _ | _
  · cases h
    exact readBasicHeader_frame hb
  · cases h
  · cases h

/-- `read_chunk_stream` files one chunk stream: the one of the basic header, if that
header is there. -/
theorem readChunkStream_cases {s s' : SessionBase} {ret : RtmpRet}
    (h : s.readChunkStream = (ret, s')) :
    s'.chunkSize = s.chunkSize ∧
      ((s.atMessage = none ∧ ret ≠ .ok ∧ s'.csMap = s.csMap) ∨
        ∃ s₁ cs buffer, s.atMessage = some s₁ ∧
          readMessage s₁.fmt s₁.csid s₁.currentStream s₁.recvBuffer = (ret, cs, buffer) ∧
          s'.csid = s₁.csid ∧ s'.csMap = Function.update s.csMap (mapKey s₁.csid) (some cs) ∧
          s'.currentStream = cs) := by
  unfold readChunkStream at h
  rcases hb : s.readBasicHeader with ⟨r, s₁⟩
  obtain ⟨hmap, hsize⟩ := readBasicHeader_frame hb
  rw [atMessage, hb]
  rw [hb] at h
  rcases r with _ | _ | _
  · rcases hm : readMessage s₁.fmt s₁.csid s₁.currentStream s₁.recvBuffer with ⟨r, cs, buffer⟩
    simp only [readCurrentStream, hm, fileStream] at h
    cases h
    exact ⟨hsize, Or.inr ⟨s₁, cs, buffer, rfl, hm, rfl, by rw [hmap], by simp [currentStream]⟩⟩
  · cases h
    exact ⟨hsize, Or.inl ⟨rfl, by simp, hmap⟩⟩
  · cases h
    exact ⟨hsize, Or.inl ⟨rfl, by simp, hmap⟩⟩

/-- One `read_chunk_stream`, whatever it returns. -/
theorem readChunkStream_frame {s s' : SessionBase} {ret : RtmpRet}
    (h : s.readChunkStream = (ret, s')) :
    s'.chunkSize = s.chunkSize ∧ StreamsFrom s.csMap s.chunkSize s'.csMap := by
  obtain ⟨hsize, ⟨-, -, hmap⟩ | ⟨s₁, cs, buffer, hat, hm, -, hmap, -⟩⟩ := readChunkStream_cases h
  · exact ⟨hsize, hmap ▸ streamsFrom_refl _ _⟩
  · refine ⟨hsize, ?_⟩
    obtain ⟨hmap₁, hsize₁⟩ := atMessage_frame hat
    intro k cs' hk
    rw [hmap] at hk
    by_cases hkey : k = mapKey s₁.csid
    · rw [hkey, Function.update_self, Option.some.injEq] at hk
      rw [hkey, ← hk, readMessage_chunkSize hm, currentStream, hmap₁, ← hsize₁]
      rcases hold : s.csMap (mapKey s₁.csid) with _ | cs₀
      · exact Or.inr ⟨rfl, rfl⟩
      · exact Or.inl ⟨cs₀, rfl, rfl⟩
    · rw [Function.update_of_ne hkey] at hk
      exact Or.inl ⟨cs', hk, rfl⟩

/-- The message that the next `read_chunk_stream` completes. -/
def nextMessage (s : SessionBase) : Option Message :=
  match s.readChunkStream with
  | (.ok, s) => if s.currentStream.isReady then some s.currentStream.message else none
  | _ => none

/-- A completed read leaves its stream in the map. -/
theorem readChunkStream_filed {s s' : SessionBase} (h : s.readChunkStream = (.ok, s')) :
    s'.csMap (mapKey s'.csid) = some s'.currentStream := by
  obtain ⟨-, ⟨-, hret, -⟩ | ⟨s₁, cs, buffer, -, -, hcsid, hmap, hcurrent⟩⟩ := readChunkStream_cases h
  · exact absurd rfl hret
  · rw [hmap, hcsid, hcurrent, Function.update_self]

end SessionBase

/-! ## A pass -/

namespace Session

/-- The ways a pass ends.  `base` is the parser after `read_chunk_stream`. -/
theorem receivePass_cases {after : Bytes} {s s' : Session} {m : Option Message}
    {ret : Option RtmpRet} {action : Action}
    (h : s.receivePass after = .ok (m, ret, action, s')) :
    ∃ r base, s.base.readChunkStream = (r, base) ∧ s.base.nextMessage = m ∧
      ((m = none ∧ action = .none ∧ s' = { s with base := base }) ∨
        ∃ m₀ ret₁ action₁ s₁, m = some m₀ ∧ r = .ok ∧
          ({ s with base := base } : Session).handleMessage after m₀ = .ok (ret₁, action₁, s₁) ∧
          ((ret₁ = .error ∧ action = .none ∧ ret = some .error ∧ s' = s₁) ∨
            (ret₁ ≠ .error ∧ action = action₁ ∧ ret ≠ some .error ∧ s' = s₁.resetStream))) := by
  unfold receivePass at h
  rcases hr : s.base.readChunkStream with ⟨r, base⟩
  refine ⟨r, base, rfl, ?_⟩
  rw [hr] at h
  rw [SessionBase.nextMessage, hr]
  rcases r with _ | _ | _
  · by_cases hready : base.currentStream.isReady = true
    · simp only [hready, Bool.not_true, Bool.false_eq_true, if_false] at h
      obtain ⟨⟨ret₁, action₁, s₁⟩, hhandle, h⟩ := Run.exists_of_bind_ok h
      simp only at h
      split_ifs at h with herr hmore
      · cases h
        exact ⟨by simp [hready], Or.inr ⟨_, _, _, _, rfl, rfl, hhandle, Or.inl ⟨herr, rfl, rfl, rfl⟩⟩⟩
      · cases h
        exact ⟨by simp [hready], Or.inr ⟨_, _, _, _, rfl, rfl, hhandle,
          Or.inr ⟨herr, rfl, by simp, rfl⟩⟩⟩
      · cases h
        exact ⟨by simp [hready], Or.inr ⟨_, _, _, _, rfl, rfl, hhandle,
          Or.inr ⟨herr, rfl, by simpa using herr, rfl⟩⟩⟩
    · simp only [hready, Bool.not_false, if_true] at h
      cases h
      exact ⟨by simp [hready], Or.inl ⟨rfl, rfl, rfl⟩⟩
  · cases h
    exact ⟨rfl, Or.inl ⟨rfl, rfl, rfl⟩⟩
  · cases h
    exact ⟨rfl, Or.inl ⟨rfl, rfl, rfl⟩⟩

/-- A pass that completes no message. -/
theorem receivePass_none {after : Bytes} {s s' : Session} {ret : Option RtmpRet}
    {action : Action} (h : s.receivePass after = .ok (none, ret, action, s')) :
    s.base.nextMessage = none ∧ action = .none ∧ s'.req = s.req ∧
      s'.base.chunkSize = s.base.chunkSize ∧
      StreamsFrom s.base.csMap s.base.chunkSize s'.base.csMap := by
  obtain ⟨r, base, hr, hnext, ⟨-, haction, hs'⟩ | ⟨m₀, -, -, -, hm, -⟩⟩ := receivePass_cases h
  · obtain ⟨hsize, hstreams⟩ := SessionBase.readChunkStream_frame hr
    subst hs'
    exact ⟨hnext, haction, rfl, hsize, hstreams⟩
  · cases hm

/-- What a pass has done that handled a message. -/
structure Passed (after : Bytes) (m : Message) (ret : Option RtmpRet) (action : Action)
    (s s' : Session) : Prop where
  next : s.base.nextMessage = some m
  streams : StreamsFrom s.base.csMap s.base.chunkSize s'.base.csMap
  filed : ∃ k cs, s'.base.csMap k = some cs
  chunkSize : s'.base.chunkSize = chunkSizeAfter after m s.base.chunkSize
  accepted : ∀ publish items, Session.accepted after m = some (publish, items) →
    s'.req = acceptRequest publish items s.req
  other : Session.accepted after m = none → SameMode s.req s'.req
  refused : ret = some .error → action = .none ∧ changes after m = false
  play : action = .play → s'.req.inPlay = true
  publish : ∀ pkt, action = .publish pkt → s'.req = s.req ∧ pkt.key = s.req.key ∧
    Heap.packetRoute pkt ≠ none ∧ carriesPacket after m = true
  quiet : (∀ pkt, action ≠ .publish pkt) → carriesPacket after m = false

/-- A pass that handles a message. -/
theorem receivePass_some {after : Bytes} {s s' : Session} {m : Message} {ret : Option RtmpRet}
    {action : Action} (h : s.receivePass after = .ok (some m, ret, action, s')) :
    Passed after m ret action s s' := by
  obtain ⟨r, base, hr, hnext, ⟨hm, -⟩ | ⟨m₀, ret₁, action₁, s₁, hm, hok, hhandle, hend⟩⟩ :=
    receivePass_cases h
  · cases hm
  cases hm
  subst hok
  obtain ⟨hsize, hstreams⟩ := SessionBase.readChunkStream_frame hr
  have hfiled := SessionBase.readChunkStream_filed hr
  obtain ⟨heffect, herror, hplay, hpublish, hcarries⟩ := handleMessage_spec hhandle
  have hbase₁ := heffect.base
  -- the streams after the handling, before the reset
  have hmap : s₁.base.csMap = base.csMap := by rw [hbase₁]
  have hsize₁ : s₁.base.chunkSize = chunkSizeAfter after m s.base.chunkSize := by
    rw [← hsize, hbase₁]
  have hquiet : (∀ pkt, action₁ ≠ .publish pkt) → carriesPacket after m = false := by
    intro hno
    rw [← Bool.not_eq_true]
    intro hyes
    obtain ⟨pkt, hpkt⟩ := hcarries hyes
    exact hno pkt hpkt
  rcases hend with ⟨hret₁, haction, hret, hs'⟩ | ⟨hret₁, haction, hret, hs'⟩
  · obtain ⟨haction₁, hchanges⟩ := herror hret₁
    have hno := hquiet (by simp [haction₁])
    subst hs' haction
    exact
      { next := hnext
        streams := hmap ▸ hstreams
        filed := ⟨_, _, hmap ▸ hfiled⟩
        chunkSize := hsize₁
        accepted := heffect.accepted
        other := heffect.other
        refused := fun _ => ⟨rfl, hchanges⟩
        play := by simp
        publish := by simp
        quiet := fun _ => hno }
  · subst hs' haction
    have hcsid : s₁.base.csid = base.csid := by rw [hbase₁]
    have hcurrent : s₁.base.currentStream = base.currentStream := by
      rw [SessionBase.currentStream, hmap, hcsid, hfiled, Option.getD_some]
    have hreset : s₁.resetStream.base.csMap = Function.update base.csMap
        (SessionBase.mapKey base.csid) (some base.currentStream.reset) := by
      simp only [resetStream, hmap, hcsid, hcurrent]
    exact
      { next := hnext
        streams := hreset ▸ hstreams.update hfiled rfl
        filed := ⟨SessionBase.mapKey base.csid, _, by rw [hreset, Function.update_self]⟩
        chunkSize := hsize₁
        accepted := heffect.accepted
        other := heffect.other
        refused := fun h => absurd h hret
        play := fun h => by simp [resetStream, RtmpRequest.inPlay, hplay h]
        publish := hpublish
        quiet := hquiet }

end Session

/-! ## Objects -/

namespace Heap

/-- The heaps look the same from the invariants. -/
structure SameView (h h' : Heap) : Prop where
  profile : h'.profile = h.profile
  owner : h'.owner = h.owner

@[simp] theorem profile_setSession (sid : Nat) (s : ServerSession) (h : Heap) :
    (h.setSession sid s).profile = Function.update h.profile sid (some s.profile) := by
  funext sid'
  by_cases hsid : sid' = sid
  · simp [profile, setSession, hsid]
  · simp [profile, setSession, hsid]

@[simp] theorem owner_setSession (sid : Nat) (s : ServerSession) (h : Heap) :
    (h.setSession sid s).owner = h.owner := rfl

@[simp] theorem owner_setWriter (p : Nat) (writer : RtmpWriter) (h : Heap) :
    (h.setWriter p writer).owner = Function.update h.owner p (some writer.session) := by
  funext p'
  by_cases hp : p' = p
  · simp [owner, setWriter, hp]
  · simp [owner, setWriter, hp]

@[simp] theorem profile_setWriter (p : Nat) (writer : RtmpWriter) (h : Heap) :
    (h.setWriter p writer).profile = h.profile := rfl

theorem profile_eq_some {h : Heap} {sid : Nat} {s : ServerSession} (hs : h.sessions sid = some s) :
    h.profile sid = some s.profile := by
  rw [profile, hs, Option.map_some]

theorem sameView_setSession {h : Heap} {sid : Nat} {s s' : ServerSession}
    (hs : h.sessions sid = some s) (hp : s'.profile = s.profile) :
    SameView h (h.setSession sid s') := by
  refine ⟨?_, rfl⟩
  rw [profile_setSession, hp]
  exact Function.update_eq_self_iff.mpr (profile_eq_some hs).symm

theorem sameView_setWriter {h : Heap} {p : Nat} {writer writer' : RtmpWriter}
    (hp : h.writers p = some writer) (hw : writer'.session = writer.session) :
    SameView h (h.setWriter p writer') := by
  refine ⟨rfl, ?_⟩
  rw [owner_setWriter, hw, Function.update_eq_self_iff, owner, hp, Option.map_some]

theorem writers_of_derefWriter {h : Heap} {p : Nat} {writer : RtmpWriter}
    (hd : h.derefWriter p = .ok writer) : h.writers p = some writer := by
  unfold derefWriter at hd
  rcases hp : h.writers p with _ | writer'
  · rw [hp] at hd
    cases hd
  · simp only [hp] at hd
    split_ifs at hd
    cases hd
    rfl

/-- The session behind a writer is open. -/
theorem sessionOf_ok {h : Heap} {p sid : Nat} {s : ServerSession}
    (ho : h.sessionOf p = .ok (sid, s)) : h.owner p = some sid ∧ h.sessions sid = some s := by
  obtain ⟨writer, hwriter, ho⟩ := Run.exists_of_bind_ok ho
  obtain ⟨s', hs', ho⟩ := Run.exists_of_bind_ok ho
  cases ho
  refine ⟨by rw [owner, writers_of_derefWriter hwriter, Option.map_some], ?_⟩
  unfold derefSession at hs'
  rcases hsid : h.sessions writer.session with _ | t
  · rw [hsid] at hs'
    cases hs'
  · rw [hsid] at hs'
    cases hs'
    rfl

theorem sameView_deleteWriter (p : Nat) (h : Heap) : SameView h (h.deleteWriter p) := by
  unfold deleteWriter
  rcases hp : h.writers p with _ | writer
  · exact ⟨rfl, rfl⟩
  · exact sameView_setWriter hp rfl

theorem profile_erase (sid : Nat) (h : Heap) :
    ({ h with sessions := Function.update h.sessions sid none } : Heap).profile =
      Function.update h.profile sid none := by
  funext sid'
  by_cases hsid : sid' = sid
  · simp [profile, hsid]
  · simp [profile, hsid]

/-- A writer sends a packet that has a route through its session. -/
theorem writePacket_ok {pkt : MediaPacket} {p : Nat} {h h' : Heap} {ret : Int}
    (hroute : packetRoute pkt ≠ none) (hw : writePacket pkt p h = .ok (ret, h')) :
    ret = 0 ∧ ∃ csid typeId sid s session, h.sessions sid = some s ∧
      s.toSession.writeData csid (UInt32.ofNat pkt.dts.toNat) typeId pkt.streamid pkt.buffer =
        .ok session ∧
      h' = h.setSession sid { s with toSession := session } := by
  obtain ⟨-, -, hw⟩ := Run.exists_of_bind_ok hw
  obtain ⟨⟨csid, typeId⟩, hr⟩ := Option.ne_none_iff_exists'.mp hroute
  simp only [hr] at hw
  obtain ⟨⟨sid, s⟩, ho, hw⟩ := Run.exists_of_bind_ok hw
  obtain ⟨session, hs, hw⟩ := Run.exists_of_bind_ok hw
  cases hw
  exact ⟨rfl, csid, typeId, sid, s, session, (sessionOf_ok ho).2, hs, rfl⟩

/-- A writer sends every packet that has a route, and it changes only what was
sent. -/
theorem tame_rtmpWriter :
    MediaStreamManager.Tame rtmpWriter (fun pkt => packetRoute pkt ≠ none) SameView where
  refl _ := ⟨rfl, rfl⟩
  trans h h' := ⟨h'.profile.trans h.profile, h'.owner.trans h.owner⟩
  write := by
    intro pkt p h ret h' hroute hw
    obtain ⟨rfl, csid, typeId, sid, s, session, hs, hdata, rfl⟩ := writePacket_ok hroute hw
    obtain ⟨sent, rfl⟩ := Session.writeData_ok hdata
    exact ⟨Int.le_refl 0, sameView_setSession hs rfl⟩
  init := by
    intro flag p h h' hi
    obtain ⟨writer, hwriter, hi⟩ := Run.exists_of_bind_ok hi
    cases hi
    exact sameView_setWriter (writers_of_derefWriter hwriter) rfl

end Heap

/-! ## The calls of the machine -/

theorem Profile.leave_congr {v v' : Profile} (hmode : Session.SameMode v.req v'.req)
    (hkey : v'.sessionKey = v.sessionKey) (hplay : v'.playWriter = v.playWriter)
    (streams : Streams Nat) : v'.leave streams = v.leave streams := by
  unfold leave RtmpRequest.inPlay
  rw [hmode.isReady, hmode.publishFlag, hmode.key, hkey, hplay]

namespace World

/-- The message that an event makes the server handle. -/
def incoming (w : World) : Event → Option Incoming
  | .pass after =>
    match w.control with
    | .receiving sid _ =>
      (w.session sid).bind fun s => s.base.nextMessage.map fun m => (sid, after, m)
    | .idle => none
  | _ => none

@[simp] theorem view_setSession (sid : Nat) (s : ServerSession) (w : World) :
    (w.setSession sid s).view = w.view.put sid s.profile := by
  simp [view, setSession, View.put]

theorem view_control (w : World) (control : Control) :
    ({ w with control := control } : World).view = w.view := rfl

/-- A session changes in what the view does not show. -/
theorem view_setSession_of_eq {w : World} {sid : Nat} {s s' : ServerSession}
    (hs : w.session sid = some s) (hp : s'.profile = s.profile) :
    (w.setSession sid s').view = w.view := by
  have hsame := Heap.sameView_setSession hs hp
  simp [view, setSession, hsame.profile]

theorem view_destroy {w w₁ : World} {streams : Streams Nat} (sid : Nat)
    (h : w₁.view = { w.view with streams := streams }) :
    (w₁.destroy sid).view = { w.view.note [.closed sid] with
      profile := Function.update w.view.profile sid none
      streams := streams } := by
  have hself : (w₁.destroy sid).view = { w₁.view.note [.closed sid] with
      profile := Function.update w₁.view.profile sid none } := by
    simp only [view, destroy, View.note, Heap.profile_erase]
    rfl
  rw [hself, h]
  rfl

/-- What `remove_player` does for a session that closes. -/
theorem removePlayer_view {w : World} {sid p : Nat} {s : ServerSession} {streams : Streams Nat}
    (hsound : w.view.Sound) (hs : w.session sid = some s) (hp : s.playWriter = some p)
    (h : MediaStreamManager.removePlayer Heap.rtmpWriter p w.heap w.streams = .ok streams) :
    streams = MediaStreamManager.erasePlayer s.req.key s.sessionKey w.streams := by
  have howner := hsound.own sid s.profile p (Heap.profile_eq_some hs) hp
  -- the writer belongs to this session, so its key and id are those of the session
  have hself : ∀ {o : Nat × ServerSession}, w.heap.sessionOf p = .ok o → o.2 = s := by
    rintro ⟨o, t⟩ ho
    obtain ⟨howner', ht⟩ := Heap.sessionOf_ok ho
    have hsid : o = sid := Option.some.inj (howner'.symm.trans howner)
    rw [hsid] at ht
    exact Option.some.inj (ht.symm.trans hs)
  obtain ⟨key, hkey, h⟩ := Run.exists_of_bind_ok h
  obtain ⟨writerid, hid, h⟩ := Run.exists_of_bind_ok h
  cases h
  obtain ⟨o, ho, hkey⟩ := Run.exists_of_bind_ok hkey
  obtain ⟨o', ho', hid⟩ := Run.exists_of_bind_ok hid
  cases hkey
  cases hid
  rw [hself ho, hself ho']

/-- A writer that a session plays through belongs to it, so `close` takes the
session's own entry out of the stream. -/
theorem close_view {w w' : World} {sid : Nat} (hsound : w.view.Sound)
    (h : w.close sid = .ok w') :
    (w.session sid = none ∧ w' = w) ∨ ∃ s, w.session sid = some s ∧
      w'.view = { w.view.note [.closed sid] with
        profile := Function.update w.view.profile sid none
        streams := s.profile.leave w.streams } := by
  unfold close at h
  rcases hs : w.session sid with _ | s
  · rw [hs] at h
    cases h
    exact Or.inl ⟨rfl, rfl⟩
  · refine Or.inr ⟨s, rfl, ?_⟩
    have hview : ∀ streams (w₁ : World), s.profile.leave w.streams = streams →
        w₁.view = { w.view with streams := streams } → (w₁.destroy sid).view =
          { w.view.note [.closed sid] with
            profile := Function.update w.view.profile sid none
            streams := s.profile.leave w.streams } := by
      intro streams w₁ hleave hw₁
      rw [hleave]
      exact view_destroy sid hw₁
    simp only [hs] at h
    split_ifs at h with hplay hkey
    · rcases hp : s.playWriter with _ | p
      · simp only [hp] at h
        cases h
        refine hview w.streams w ?_ rfl
        simp [Profile.leave, RtmpRequest.inPlay, ServerSession.profile, hplay, hp]
      · simp only [hp] at h
        obtain ⟨streams, hremove, h⟩ := Run.exists_of_bind_ok h
        have hstreams := removePlayer_view hsound hs hp hremove
        have hsame := Heap.sameView_deleteWriter p w.heap
        cases h
        refine hview streams _ ?_ ?_
        · rw [hstreams]
          simp [Profile.leave, RtmpRequest.inPlay, ServerSession.profile, hplay, hp]
        · simp [view, hsame.profile, hsame.owner]
    · cases h
      refine hview (MediaStreamManager.removePublisher s.req.key w.streams) _ ?_ rfl
      simp [Profile.leave, RtmpRequest.inPlay, ServerSession.profile, hplay, hkey]
    · cases h
      refine hview w.streams w ?_ rfl
      simp [Profile.leave, RtmpRequest.inPlay, ServerSession.profile, hplay, hkey]

theorem endRead_view {w w' : World} {sid : Nat} {ret : RtmpRet} (hret : ret ≠ .error)
    (h : w.endRead sid ret = .ok w') : w'.view = w.view := by
  unfold endRead at h
  rcases ret with _ | _ | _
  · cases h
    rfl
  · simp only at h
    rcases hs : ({ w with control := .idle } : World).session sid with _ | s
    · rw [hs] at h
      cases h
      rfl
    · rw [hs] at h
      cases h
      exact view_setSession_of_eq hs rfl
  · exact absurd rfl hret

/-- `add_player` for the new writer of a session. -/
theorem perform_play_view {w w' : World} {sid : Nat} {req : RtmpRequest} {s : ServerSession}
    (hs : w.session sid = some s) (h : w.perform sid req .play = .ok w') :
    w'.view =
      { (w.view.put sid { s.profile with playWriter := some w.nextWriter }).note
          [.played sid req] with
        owner := Function.update w.view.owner w.nextWriter (some sid)
        streams := Function.update w.streams s.req.key
          (some (((w.streams s.req.key).getD {}).insertWriter s.sessionKey w.nextWriter))
        nextWriter := w.nextWriter + 1 } := by
  have hsession : (w.heap.setWriter w.nextWriter { session := sid }).sessions sid = some s := hs
  simp only [perform, hsession] at h
  generalize hheap : (w.heap.setWriter w.nextWriter { session := sid }).setSession sid
    { s with playWriter := some w.nextWriter } = heap at h
  -- the new writer leads back to the session
  have howner : heap.owner w.nextWriter = some sid := by simp [← hheap]
  have hself : ∀ {o : Nat × ServerSession}, heap.sessionOf w.nextWriter = .ok o →
      o.2 = { s with playWriter := some w.nextWriter } := by
    rintro ⟨o, t⟩ ho
    obtain ⟨howner', ht⟩ := Heap.sessionOf_ok ho
    have hsid : o = sid := Option.some.inj (howner'.symm.trans howner)
    rw [hsid, ← hheap] at ht
    simpa [Heap.setSession, eq_comm] using ht
  obtain ⟨streams, hadd, h⟩ := Run.exists_of_bind_ok h
  cases h
  obtain ⟨key, hkey, hadd⟩ := Run.exists_of_bind_ok hadd
  obtain ⟨writerid, hid, hadd⟩ := Run.exists_of_bind_ok hadd
  cases hadd
  obtain ⟨o, ho, hkey⟩ := Run.exists_of_bind_ok hkey
  obtain ⟨o', ho', hid⟩ := Run.exists_of_bind_ok hid
  cases hkey
  cases hid
  rw [hself ho, hself ho', ← hheap]
  simp only [view, Heap.profile_setSession, Heap.profile_setWriter, Heap.owner_setSession,
    Heap.owner_setWriter, View.put, View.note]
  rfl

/-- `writer_media_packet` changes the stream of the packet. -/
theorem perform_publish_view {w w' : World} {sid : Nat} {req : RtmpRequest} {pkt : MediaPacket}
    (hroutable : Routable w.streams) (hroute : Heap.packetRoute pkt ≠ none)
    (h : w.perform sid req (.publish pkt) = .ok w') :
    w'.view = { w.view.note [.published sid req pkt] with
      streams := Function.update w.streams pkt.key
        (some (MediaStreamManager.fedStream pkt w.streams)) } := by
  obtain ⟨⟨heap, streams⟩, hwrite, h⟩ := Run.exists_of_bind_ok h
  obtain ⟨hsame, hstreams⟩ := Heap.tame_rtmpWriter.writerMediaPacket hroute
    (hroutable.fedStream hroute) hwrite
  cases h
  simp [view, View.note, hsame.profile, hsame.owner, hstreams]

/-! ## The steps -/

/-- A session is closed, at once or after a message that it refused. -/
theorem close_step {w w₁ w' : World} {sid : Nat} {s : ServerSession} (v' : Profile)
    {incoming : Option Incoming} (hsound : w.view.Sound) (hs : w.session sid = some s)
    (hmode : Session.SameMode s.req v'.req) (hkey : v'.sessionKey = s.sessionKey)
    (hplay : v'.playWriter = s.playWriter)
    (hcause : ∀ i, incoming = some i → i.Refused sid)
    (hw₁ : w₁.view = (w.view.put sid v').note (incoming.toList.map Incoming.record))
    (h : w₁.close sid = .ok w') : View.Step incoming w.view w'.view := by
  have hopen : w.view.profile sid = some s.profile := Heap.profile_eq_some hs
  have hlt := hsound.sessions sid s.profile hopen
  have hsound₁ : w₁.view.Sound := by
    rw [hw₁]
    refine (hsound.put hopen hplay).note ?_ (by simp [Incoming.record])
    intro o ho
    obtain ⟨i, hi, rfl⟩ := List.mem_map.mp ho
    rw [Option.mem_toList] at hi
    rw [Incoming.record, Obs.sid, (hcause i hi).sid_eq]
    exact hlt
  have hprofile₁ : w₁.view.profile sid = some v' := by
    rw [hw₁]
    simp [View.note]
  rcases close_view hsound₁ h with ⟨hnone, -⟩ | ⟨s₁, hs₁, hw'⟩
  · have hgone : w₁.view.profile sid = none := congrArg (Option.map ServerSession.profile) hnone
    rw [hprofile₁] at hgone
    cases hgone
  · have hv' : s₁.profile = v' :=
      Option.some.inj ((Heap.profile_eq_some hs₁).symm.trans hprofile₁)
    have hstreams : w₁.streams = w.streams := congrArg View.streams hw₁
    have hleave : v'.leave w.streams = s.profile.leave w.streams :=
      Profile.leave_congr hmode hkey hplay w.streams
    have hstep := View.Step.close hopen hcause
    rw [hw', hw₁, hv', hstreams, hleave]
    simpa [View.note, View.put, view] using hstep

/-- The end of a pass: the loop goes on, or the callback returns. -/
theorem endPass_cases {w w' : World} {sid : Nat} {afterC2 : Bool} {ret : Option RtmpRet}
    (h : (match ret with
      | none => pure w
      | some ret => w.endRead sid (if ret = .ok && !afterC2 then .needReadMore else ret)) =
        (.ok w' : Except Fault World)) :
    (ret ≠ some .error ∧ w'.view = w.view) ∨
      (ret = some .error ∧ ({ w with control := .idle } : World).close sid = .ok w') := by
  rcases ret with _ | ret
  · cases h
    exact Or.inl ⟨by simp, rfl⟩
  · by_cases hret : ret = .error
    · subst hret
      exact Or.inr ⟨rfl, h⟩
    · refine Or.inl ⟨by simpa using hret, endRead_view ?_ h⟩
      split_ifs
      · simp
      · exact hret

/-- A message is handled, and its action is taken. -/
theorem perform_step {w w₁ w₂ : World} {sid : Nat} {s s₁ : ServerSession} {after : Bytes}
    {m : Message} {ret : Option RtmpRet} {action : Session.Action} {session : Session}
    (hsound : w.view.Sound) (hs : w.session sid = some s)
    (hpassed : Session.Passed after m ret action s.toSession session)
    (hs₁ : s₁ = { s with toSession := session })
    (hw₁ : w₁ = (w.setSession sid s₁).note [.received sid after m])
    (hperform : w₁.perform sid session.req action = .ok w₂) :
    View.Step (some (sid, after, m)) w.view w₂.view := by
  have hopen : w.view.profile sid = some s.profile := Heap.profile_eq_some hs
  have hview₁ : w₁.view = (w.view.put sid s₁.profile).note [.received sid after m] := by
    rw [hw₁, ← view_setSession]
    rfl
  have hstreams₁ : w₁.streams = w.streams := congrArg View.streams hview₁
  have hhandled : s.profile.Handled after m s₁.profile := by
    subst hs₁
    exact ⟨hpassed.streams, hpassed.filed, hpassed.chunkSize, hpassed.accepted, hpassed.other, rfl⟩
  have hwriter : s₁.profile.playWriter = s.profile.playWriter := by
    subst hs₁
    rfl
  have hreq₁ : session.req = s₁.req := by rw [hs₁]
  rcases action with _ | _ | pkt
  · cases hperform
    rw [hview₁]
    exact .handle hopen hhandled hwriter (hpassed.quiet (by simp))
  · have hs₂ : w₁.session sid = some s₁ := by
      simp [hw₁, World.session, note, setSession, Heap.setSession]
    have hplay : s₁.profile.req.inPlay = true := by
      rw [ServerSession.profile_req, ← hreq₁]
      exact hpassed.play rfl
    have hstep := View.Step.play hopen hhandled hplay (hpassed.quiet (by simp))
    have hnext : w₁.nextWriter = w.nextWriter := congrArg View.nextWriter hview₁
    rw [perform_play_view hs₂ hperform, hview₁, hnext, hstreams₁, hreq₁]
    simpa [View.put, View.note] using hstep
  · obtain ⟨hreq, hkey, hroute, hcarries⟩ := hpassed.publish pkt rfl
    have hsame : s₁.profile.req = s.profile.req := by
      rw [ServerSession.profile_req, ← hreq₁]
      exact hreq
    have hstep := View.Step.publish hopen hhandled hwriter hsame hkey hroute hcarries
    rw [perform_publish_view (hstreams₁ ▸ hsound.routable) hroute hperform, hview₁, hstreams₁,
      hreq]
    simpa [View.put, View.note] using hstep

theorem receivePass_step {w w' : World} {after : Bytes} (hsound : w.view.Sound)
    (h : w.receivePass after = .ok w') :
    View.Step (w.incoming (.pass after)) w.view w'.view := by
  unfold receivePass at h
  unfold incoming
  rcases hcontrol : w.control with _ | ⟨sid, afterC2⟩
  · rw [hcontrol] at h
    cases h
    exact .stay _
  rcases hs : w.session sid with _ | s
  · simp only [hcontrol, hs] at h
    cases h
    simp only [hs]
    exact .stay _
  simp only [hcontrol, hs] at h
  simp only [hs, Option.bind_some]
  have hopen : w.view.profile sid = some s.profile := Heap.profile_eq_some hs
  obtain ⟨⟨m, ret, action, session⟩, hpass, htail⟩ := Run.exists_of_bind_ok h
  obtain ⟨w₂, hperform, hend⟩ := Run.exists_of_bind_ok htail
  clear h htail
  simp only at hperform hend
  generalize hs₁ : ({ s with toSession := session } : ServerSession) = s₁ at hperform
  generalize hw₁ : (w.setSession sid s₁).note (m.toList.map (Obs.received sid after)) = w₁
    at hperform
  have hview₁ : w₁.view =
      (w.view.put sid s₁.profile).note (m.toList.map (Obs.received sid after)) := by
    rw [← hw₁, ← view_setSession]
    rfl
  rcases m with _ | m
  · -- no message is complete
    obtain ⟨hnext, haction, hreq, hsize, hstreams⟩ := Session.receivePass_none hpass
    subst haction
    cases hperform
    rw [hnext, Option.map_none]
    have hs₁' : s₁.profile = { s.profile with csMap := session.base.csMap } := by
      simp [← hs₁, ServerSession.profile, hreq, hsize]
    rcases endPass_cases hend with ⟨-, hw'⟩ | ⟨-, hclose⟩
    · rw [hw', hview₁, hs₁']
      have hparse := View.Step.parse hopen hstreams
      simpa [View.note] using hparse
    · refine close_step s₁.profile hsound hs ?_ ?_ ?_ (by simp) ?_ hclose
      · rw [hs₁']
        exact Session.SameMode.refl _
      · rw [hs₁']
        rfl
      · rw [hs₁']
        rfl
      · exact hview₁
  · have hpassed := Session.receivePass_some hpass
    rw [hpassed.next, Option.map_some]
    rcases endPass_cases hend with ⟨-, hw'⟩ | ⟨hret, hclose⟩
    · rw [hw']
      exact perform_step hsound hs hpassed hs₁.symm hw₁.symm hperform
    · -- the message is refused
      obtain ⟨haction, hchanges⟩ := hpassed.refused hret
      have hacc := Session.accepted_of_not_changes hchanges
      subst haction
      cases hperform
      refine close_step s₁.profile hsound hs ?_ ?_ ?_ ?_ ?_ hclose
      · rw [← hs₁]
        exact hpassed.other hacc
      · rw [← hs₁]
        rfl
      · rw [← hs₁]
        rfl
      · rintro i hi
        cases hi
        exact ⟨rfl, hchanges, hpassed.quiet (by simp)⟩
      · exact hview₁

theorem accept_step {w : World} {sessionKey : Bytes} (hsound : w.view.Sound)
    (hfresh : w.freshKey sessionKey = true) :
    View.Step none w.view (w.accept sessionKey).view := by
  have hkeys : ∀ sid v, w.view.profile sid = some v → v.sessionKey ≠ sessionKey := by
    intro sid v hv
    have hlt : sid < w.nextSession := hsound.sessions sid v hv
    obtain ⟨s, hs, rfl⟩ := Option.map_eq_some_iff.mp hv
    replace hs : w.session sid = some s := hs
    have hall := List.all_eq_true.mp hfresh sid (List.mem_range.mpr hlt)
    rw [hs] at hall
    simpa using hall
  have hstep := View.Step.accept sessionKey hkeys
  convert hstep using 1
  simp only [view, accept, View.put, Heap.profile_setSession, Heap.owner_setSession]
  rfl

/-- Up to the loop over the chunks nothing happens that the view shows, unless
the handshake fails. -/
theorem onRead_step {w w' : World} {sid : Nat} {data : Bytes} {handshake : Option Bytes}
    (hsound : w.view.Sound) (h : w.onRead sid data handshake = .ok w') :
    View.Step none w.view w'.view := by
  unfold onRead at h
  rcases hs : w.session sid with _ | s
  · rw [hs] at h
    cases h
    exact .stay _
  · simp only [hs] at h
    have hput : ∀ {s' : ServerSession}, s'.profile = s.profile →
        (w.setSession sid s').view = w.view := view_setSession_of_eq hs
    have hmore : ∀ {s' : ServerSession},
        (w.setSession sid s').endRead sid .needReadMore = .ok w' → s'.profile = s.profile →
        View.Step none w.view w'.view := by
      intro s' hread hp
      rw [endRead_view (by simp) hread, hput hp]
      exact .stay _
    have hloop : ∀ {s' : ServerSession} {control : Control},
        (.ok { w.setSession sid s' with control := control } : Except Fault World) = .ok w' →
        s'.profile = s.profile → View.Step none w.view w'.view := by
      intro s' control hread hp
      cases hread
      have hview := (view_control (w.setSession sid s') control).trans (hput hp)
      exact hview ▸ .stay _
    rcases hphase : s.serverPhase <;> simp only [hphase] at h
    · split_ifs at h with hlen
      · exact hmore h rfl
      · rcases handshake with _ | s0s1s2
        · refine close_step s.profile hsound hs (Session.SameMode.refl _) rfl rfl (by simp) ?_ h
          rw [view_control, view_setSession]
          simp only [Option.toList_none, List.map_nil, View.note, List.append_nil]
          rfl
        · exact hmore h rfl
    · split_ifs at h with hlen hempty
      · exact hmore h rfl
      · exact hmore h rfl
      · exact hloop h rfl
    all_goals exact hloop h rfl

/-- What a step can do. -/
theorem step_cases {w w' : World} {e : Event} (h : w.step e = .ok w') :
    (w.enabled e = false ∧ w' = w) ∨
      (∃ sessionKey, e = .accept sessionKey ∧ w.control = .idle ∧
        w.freshKey sessionKey = true ∧ w' = w.accept sessionKey) ∨
      (∃ sid data handshake, e = .read sid data handshake ∧ w.control = .idle ∧
        w.onRead sid data handshake = .ok w') ∨
      (∃ after sid afterC2, e = .pass after ∧ w.control = .receiving sid afterC2 ∧
        w.receivePass after = .ok w') ∨
      ∃ sid, e = .hangup sid ∧ w.control = .idle ∧ w.close sid = .ok w' := by
  unfold step at h
  by_cases henabled : w.enabled e = true
  · rw [henabled] at h
    cases e with
    | accept sessionKey =>
      simp only [enabled, Bool.and_eq_true, decide_eq_true_eq] at henabled
      cases h
      exact .inr (.inl ⟨sessionKey, rfl, henabled.1, henabled.2, rfl⟩)
    | read sid data handshake =>
      simp only [enabled, Bool.and_eq_true, decide_eq_true_eq] at henabled
      exact .inr (.inr (.inl ⟨sid, data, handshake, rfl, henabled.1.1, h⟩))
    | pass after =>
      cases hcontrol : w.control with
      | idle => simp [enabled, hcontrol] at henabled
      | receiving sid afterC2 => exact .inr (.inr (.inr (.inl ⟨after, sid, afterC2, rfl, rfl, h⟩)))
    | hangup sid =>
      simp only [enabled, decide_eq_true_eq] at henabled
      exact .inr (.inr (.inr (.inr ⟨sid, rfl, henabled, h⟩)))
  · rw [Bool.not_eq_true] at henabled
    rw [henabled] at h
    cases h
    exact .inl ⟨henabled, rfl⟩

theorem incoming_of_disabled {w : World} {e : Event} (h : w.enabled e = false) :
    w.incoming e = none := by
  cases e with
  | pass after =>
    have hidle : w.control = .idle := by simpa [enabled] using h
    simp [incoming, hidle]
  | _ => rfl

/-- **The server keeps to the steps of its view.** -/
theorem step_view {w w' : World} {e : Event} (hsound : w.view.Sound) (h : w.step e = .ok w') :
    View.Step (w.incoming e) w.view w'.view := by
  rcases step_cases h with ⟨hdisabled, rfl⟩ | ⟨sessionKey, rfl, -, hfresh, rfl⟩ |
    ⟨sid, data, handshake, rfl, -, hread⟩ | ⟨after, sid, afterC2, rfl, -, hpass⟩ |
    ⟨sid, rfl, -, hclose⟩
  · rw [incoming_of_disabled hdisabled]
    exact .stay _
  · exact accept_step hsound hfresh
  · exact onRead_step hsound hread
  · exact receivePass_step hsound hpass
  · rcases hs : w.session sid with _ | s
    · simp only [close, hs] at hclose
      cases hclose
      exact .stay _
    · have hnone : w.incoming (.hangup sid) = none := rfl
      rw [hnone]
      refine close_step s.profile hsound hs (Session.SameMode.refl _) rfl rfl (by simp) ?_ hclose
      rw [← view_setSession, view_setSession_of_eq hs rfl]
      simp only [Option.toList_none, List.map_nil, View.note, List.append_nil]

/-! ## Runs -/

theorem view_init : ({} : World).view = {} := rfl

/-- The rule for invariants of the server: they hold of the empty view, and the
steps that meet `cond` keep them. -/
theorem run_rule {cond : Event → World → Prop} {inv : View → Prop} (hinit : inv {})
    (hkeep : ∀ e w w', w.view.Sound → inv w.view → cond e w → w.step e = .ok w' →
      View.Step (w.incoming e) w.view w'.view → inv w'.view)
    {events : List Event} {w : World} (halong : Run.Along step cond events {})
    (hrun : Run.run step events {} = .ok w) : w.view.Sound ∧ inv w.view := by
  refine @Run.run_invariant World Fault Event step cond (fun w => w.view.Sound ∧ inv w.view) ?_
    events {} w ?_ halong hrun
  · rintro e w w' ⟨hsound, hinv⟩ hcond hstep
    have hview := step_view hsound hstep
    exact ⟨hsound.step hview, hkeep e w w' hsound hinv hcond hstep hview⟩
  · rw [view_init]
    exact ⟨View.sound_init, hinit⟩

/-- The rule for invariants that hold in all runs. -/
theorem run_always {inv : View → Prop} (hinit : inv {})
    (hkeep : ∀ {i a a'}, a.Sound → inv a → View.Step i a a' → inv a')
    {events : List Event} {w : World} (hrun : Run.run step events {} = .ok w) :
    w.view.Sound ∧ inv w.view := by
  refine run_rule hinit ?_ (Run.along_of_forall (fun _ _ => trivial) events _) hrun
  exact fun e w w' hsound hinv _ _ hview => hkeep hsound hinv hview

end World

end MediaServer
