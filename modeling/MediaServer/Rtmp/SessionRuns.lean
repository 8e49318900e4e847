import MediaServer.Rtmp.ServerSteps

/-!
# The runs of one session

The server of `ServerSession` seen from one of its sessions: data arrives, the
loop over the chunks makes a pass, or an `rtmp_writer` sends a packet through
the session.  The session closes when a handler refuses a message or the
handshake fails.

`World.session_run` says that every open session of the server is in a state
that this machine reaches.  What holds in all runs of the machine holds of the
sessions of the server.  The machine does not know when the server calls which
part of the session, so it has more runs than the sessions of the server.
-/

namespace MediaServer

namespace SessionBase

theorem nextMessage_of_ok {s s' : SessionBase} (h : s.readChunkStream = (.ok, s')) :
    s.nextMessage = if s'.currentStream.isReady then some s'.currentStream.message else none := by
  rw [nextMessage, h]

end SessionBase

namespace Session

/-- What happens to a session. -/
inductive Act where
  | read (data : Bytes) (handshake : Option Bytes)
  | pass (after : Bytes)
  | write (csid : UInt16) (timestamp : UInt32) (typeId : UInt8) (msgStreamId : UInt32)
      (input : Bytes)

/-- How the life of a session ends. -/
inductive Stop where
  | closed
  | fault (f : Fault)
  deriving DecidableEq, Repr

/-- `on_read` with data, as far as the session is concerned. -/
def onRead (data : Bytes) (handshake : Option Bytes) (s : Session) : Except Stop Session :=
  let buffer := s.base.recvBuffer.appendData data
  let put (s : Session) (buffer : DataBuffer) : Session :=
    { s with base := { s.base with recvBuffer := buffer } }
  match s.serverPhase with
  | .initial =>
    if !buffer.require 1537 then .ok (put s buffer)
    else
      match handshake with
      | none => .error .closed
      | some s0s1s2 => .ok (put { s with sent := s.sent ++ [s0s1s2], serverPhase := .handshakeC2 } [])
  | .handshakeC2 =>
    if !buffer.require 1536 then .ok (put s buffer)
    else .ok (put { s with serverPhase := .connect } (buffer.consumeData 1536))
  | _ => .ok (put s buffer)

/-- One step of a session. -/
def step : Act → Session → Except Stop Session
  | .read data handshake, s => s.onRead data handshake
  | .pass after, s =>
    match s.receivePass after with
    | .error f => .error (.fault f)
    | .ok (_, ret, _, s') => if ret = some .error then .error .closed else .ok s'
  | .write csid timestamp typeId msgStreamId input, s =>
    match s.writeData csid timestamp typeId msgStreamId input with
    | .error f => .error (.fault f)
    | .ok s' => .ok s'

/-- What a step can do to a session that stays open. -/
theorem step_pass {after : Bytes} {s s' : Session} (h : step (.pass after) s = .ok s') :
    ∃ m ret action, s.receivePass after = .ok (m, ret, action, s') ∧ ret ≠ some .error := by
  rw [step] at h
  rcases hr : s.receivePass after with f | ⟨m, ret, action, s₁⟩
  · rw [hr] at h
    cases h
  · simp only [hr] at h
    split_ifs at h with hret
    cases h
    exact ⟨m, ret, action, rfl, hret⟩

theorem step_write {csid : UInt16} {timestamp : UInt32} {typeId : UInt8} {msgStreamId : UInt32}
    {input : Bytes} {s s' : Session}
    (h : step (.write csid timestamp typeId msgStreamId input) s = .ok s') :
    ∃ sent, s' = { s with sent := sent } := by
  rw [step] at h
  rcases hw : s.writeData csid timestamp typeId msgStreamId input with f | s₁
  · rw [hw] at h
    cases h
  · rw [hw] at h
    cases h
    exact writeData_ok hw

/-- A read changes the buffer, the phase and what was sent. -/
theorem step_read {data : Bytes} {handshake : Option Bytes} {s s' : Session}
    (h : step (.read data handshake) s = .ok s') :
    ∃ buffer phase sent, s' = { s with
      base := { s.base with recvBuffer := buffer }, serverPhase := phase, sent := sent } := by
  unfold step onRead at h
  rcases hphase : s.serverPhase <;> simp only [hphase] at h
  · split_ifs at h
    · cases h
      exact ⟨_, _, _, rfl⟩
    · rcases handshake with _ | s0s1s2
      · cases h
      · cases h
        exact ⟨_, _, _, rfl⟩
  · split_ifs at h
    · cases h
      exact ⟨_, _, _, rfl⟩
    · cases h
      exact ⟨_, _, _, rfl⟩
  all_goals
    cases h
    exact ⟨_, _, _, rfl⟩

/-- A pass that is not refused changes one chunk stream: the one of the basic
header, if that header is there. -/
theorem receivePass_csMap {after : Bytes} {s s' : Session} {m : Option Message}
    {ret : Option RtmpRet} {action : Action}
    (h : s.receivePass after = .ok (m, ret, action, s')) (hret : ret ≠ some .error) :
    (s.base.atMessage = none ∧ s'.base.csMap = s.base.csMap) ∨
      ∃ s₁ r cs buffer, s.base.atMessage = some s₁ ∧
        SessionBase.readMessage s₁.fmt s₁.csid s₁.currentStream s₁.recvBuffer = (r, cs, buffer) ∧
        s'.base.csMap = Function.update s.base.csMap (SessionBase.mapKey s₁.csid)
          (some (if r = .ok ∧ cs.isReady then cs.reset else cs)) := by
  obtain ⟨r, base, hr, hnext, hcases⟩ := receivePass_cases h
  obtain ⟨-, hread⟩ := SessionBase.readChunkStream_cases hr
  rcases hread with
    ⟨hat, hrne, hmap⟩ | ⟨s₁, cs, buffer, hat, hm, hcsid, hmap, hcurrent⟩
  · left
    refine ⟨hat, ?_⟩
    rcases hcases with ⟨-, -, hs'⟩ | ⟨-, -, -, -, -, hrok, -⟩
    · rw [hs', hmap]
    · exact absurd hrok hrne
  · refine Or.inr ⟨s₁, r, cs, buffer, hat, hm, ?_⟩
    rcases hcases with ⟨hnone, -, hs'⟩ | ⟨m₀, ret₁, action₁, s₂, hm₀, hrok, hhandle, hend⟩
    · have hwait : ¬ (r = .ok ∧ cs.isReady = true) := by
        rintro ⟨hrok, hready⟩
        rw [hrok] at hr
        rw [SessionBase.nextMessage_of_ok hr, hcurrent, if_pos hready, hnone] at hnext
        cases hnext
      rw [hs', if_neg hwait, hmap]
    · have hready : cs.isReady = true := by
        rw [hrok] at hr
        rw [SessionBase.nextMessage_of_ok hr, hcurrent, hm₀] at hnext
        by_contra hno
        rw [if_neg hno] at hnext
        cases hnext
      rcases hend with ⟨-, -, hclosed, -⟩ | ⟨-, -, -, hs'⟩
      · exact absurd hclosed hret
      · have hbase₂ := (handleMessage_spec hhandle).1.base
        have hmap₂ : s₂.base.csMap = base.csMap := by rw [hbase₂]
        have hcsid₂ : s₂.base.csid = base.csid := by rw [hbase₂]
        have hcurrent₂ : s₂.base.currentStream = cs := by
          simp [SessionBase.currentStream, hmap₂, hcsid₂, hmap, hcsid]
        rw [hs', if_pos ⟨hrok, hready⟩]
        simp only [resetStream, hmap₂, hcsid₂, hcurrent₂, hcsid, hmap, Function.update_idem]

/-- Only a pass that finds a basic header changes a chunk stream. -/
theorem step_csMap {a : Act} {s s' : Session} (h : step a s = .ok s') :
    (s'.base.csMap = s.base.csMap ∧ ∀ after, a = .pass after → s.base.atMessage = none) ∨
      ∃ after s₁ r cs buffer, a = .pass after ∧ s.base.atMessage = some s₁ ∧
        SessionBase.readMessage s₁.fmt s₁.csid s₁.currentStream s₁.recvBuffer = (r, cs, buffer) ∧
        s'.base.csMap = Function.update s.base.csMap (SessionBase.mapKey s₁.csid)
          (some (if r = .ok ∧ cs.isReady then cs.reset else cs)) := by
  cases a with
  | read data handshake =>
    obtain ⟨buffer, phase, sent, hs'⟩ := step_read h
    subst hs'
    exact Or.inl ⟨rfl, by simp⟩
  | write csid timestamp typeId msgStreamId input =>
    obtain ⟨sent, hs'⟩ := step_write h
    subst hs'
    exact Or.inl ⟨rfl, by simp⟩
  | pass after =>
    obtain ⟨m, ret, action, hpass, hret⟩ := step_pass h
    rcases receivePass_csMap hpass hret with ⟨hat, hmap⟩ | ⟨s₁, r, cs, buffer, hat, hm, hmap⟩
    · exact Or.inl ⟨hmap, fun _ _ => hat⟩
    · exact Or.inr ⟨after, s₁, r, cs, buffer, rfl, hat, hm, hmap⟩

/-- The session is in a state that a run reaches. -/
def Reached (s : Session) : Prop := ∃ acts, Run.run step acts {} = .ok s

theorem reached_init : Reached {} := ⟨[], rfl⟩

theorem Reached.step {a : Act} {s s' : Session} (h : Reached s) (hstep : step a s = .ok s') :
    Reached s' := by
  obtain ⟨acts, hrun⟩ := h
  exact ⟨acts ++ [a], by rw [Run.run_append hrun, Run.run_cons hstep, Run.run_nil]⟩

/-- The handshake of a client, and then the data of its chunks in one read. -/
def clientReads (data : Bytes) : List Act :=
  [.read (List.replicate 1537 0) (some (3 :: List.replicate 3072 0)),
    .read (List.replicate 1536 0) none, .read data none]

/-- A header of type 0 without a timestamp, on chunk stream 3. -/
def plainHeader (len typeId : UInt8) : Bytes := [0x03, 0, 0, 0, 0, 0, len, typeId, 0, 0, 0, 0]

end Session

/-! ## The sessions of the server -/

namespace Heap

/-- All open sessions are in states that runs reach. -/
def AllReached (h : Heap) : Prop := ∀ sid s, h.sessions sid = some s → s.toSession.Reached

theorem AllReached.setSession {h : Heap} (hall : h.AllReached) {s : ServerSession}
    (hs : s.toSession.Reached) (sid : Nat) : (h.setSession sid s).AllReached := by
  intro sid' s' hs'
  replace hs' : Function.update h.sessions sid (some s) sid' = some s' := hs'
  by_cases hsid : sid' = sid
  · rw [hsid, Function.update_self, Option.some.injEq] at hs'
    rw [← hs']
    exact hs
  · rw [Function.update_of_ne hsid] at hs'
    exact hall sid' s' hs'

theorem sessions_deleteWriter (p : Nat) (h : Heap) : (h.deleteWriter p).sessions = h.sessions := by
  unfold deleteWriter
  split
  · rfl
  · rfl

/-- A packet that is sent to the players is written by their sessions. -/
theorem tame_allReached :
    MediaStreamManager.Tame rtmpWriter (fun pkt => packetRoute pkt ≠ none)
      (fun h h' => h.AllReached → h'.AllReached) where
  refl _ := id
  trans h h' := h' ∘ h
  write := by
    intro pkt p h ret h' hroute hw
    obtain ⟨rfl, csid, typeId, sid, s, session, hs, hdata, rfl⟩ := writePacket_ok hroute hw
    refine ⟨Int.le_refl 0, ?_⟩
    intro hall
    apply hall.setSession
    have hstep : Session.step (.write csid (UInt32.ofNat pkt.dts.toNat) typeId pkt.streamid
        pkt.buffer) s.toSession = .ok session := by
      rw [Session.step, hdata]
    exact (hall sid s hs).step hstep
  init := by
    intro flag p h h' hi hall
    obtain ⟨writer, -, hi⟩ := Run.exists_of_bind_ok hi
    cases hi
    exact hall

end Heap

namespace World

/-- A session that closes takes its state with it, whatever it is. -/
theorem close_reached {w w' : World} {sid : Nat}
    (hall : ∀ sid' s, sid' ≠ sid → w.session sid' = some s → s.toSession.Reached)
    (h : w.close sid = .ok w') : w'.heap.AllReached := by
  unfold close at h
  rcases hs : w.session sid with _ | s
  · rw [hs] at h
    cases h
    intro sid' s' hs'
    by_cases hsid : sid' = sid
    · rw [hsid] at hs'
      cases hs.symm.trans hs'
    · exact hall sid' s' hsid hs'
  · -- what the session leaves behind are streams and writers
    have hdestroy : ∀ w₁ : World, w₁.heap.sessions = w.heap.sessions →
        (.ok (w₁.destroy sid) : Except Fault World) = .ok w' → w'.heap.AllReached := by
      intro w₁ hsessions hw'
      cases hw'
      intro sid' s' hs'
      replace hs' : Function.update w₁.heap.sessions sid none sid' = some s' := hs'
      by_cases hsid : sid' = sid
      · rw [hsid, Function.update_self] at hs'
        cases hs'
      · rw [Function.update_of_ne hsid, hsessions] at hs'
        exact hall sid' s' hsid hs'
    simp only [hs] at h
    split_ifs at h
    · rcases hp : s.playWriter with _ | p
      · simp only [hp] at h
        exact hdestroy w rfl h
      · simp only [hp] at h
        obtain ⟨streams, -, h⟩ := Run.exists_of_bind_ok h
        exact hdestroy _ (Heap.sessions_deleteWriter p w.heap) h
    · exact hdestroy { w with
        streams := MediaStreamManager.removePublisher s.req.key w.streams } rfl h
    · exact hdestroy w rfl h

/-- The last thing that a session does is not seen any more. -/
theorem close_setSession_reached {w w₁ w' : World} {sid : Nat} {s : ServerSession}
    (hall : w.heap.AllReached) (hw₁ : w₁.heap = w.heap.setSession sid s)
    (h : w₁.close sid = .ok w') : w'.heap.AllReached := by
  refine close_reached ?_ h
  intro sid' s' hsid hs'
  replace hs' : w₁.heap.sessions sid' = some s' := hs'
  rw [hw₁] at hs'
  replace hs' : Function.update w.heap.sessions sid (some s) sid' = some s' := hs'
  rw [Function.update_of_ne hsid] at hs'
  exact hall sid' s' hs'

theorem endRead_reached {w w' : World} {sid : Nat} {ret : RtmpRet} (hall : w.heap.AllReached)
    (h : w.endRead sid ret = .ok w') : w'.heap.AllReached := by
  unfold endRead at h
  rcases ret with _ | _ | _
  · cases h
    exact hall
  · simp only at h
    rcases hs : ({ w with control := .idle } : World).session sid with _ | s
    · rw [hs] at h
      cases h
      exact hall
    · rw [hs] at h
      cases h
      exact hall.setSession (s := { s with reading := true }) (hall sid s hs) sid
  · exact close_reached (w := { w with control := .idle }) (fun sid' s _ hs => hall sid' s hs) h

theorem perform_reached {w w' : World} {sid : Nat} {req : RtmpRequest} {action : Session.Action}
    (hall : w.heap.AllReached) (hroutable : Routable w.streams)
    (hroute : ∀ pkt, action = .publish pkt → Heap.packetRoute pkt ≠ none)
    (h : w.perform sid req action = .ok w') : w'.heap.AllReached := by
  rcases action with _ | _ | pkt
  · cases h
    exact hall
  · obtain ⟨streams, -, h⟩ := Run.exists_of_bind_ok h
    cases h
    have hwriter : (w.heap.setWriter w.nextWriter { session := sid }).AllReached := hall
    simp only
    rcases hs : (w.heap.setWriter w.nextWriter { session := sid }).sessions sid with _ | s
    · exact hwriter
    · exact hwriter.setSession (s := { s with playWriter := some w.nextWriter })
        (hwriter sid s hs) sid
  · have hpkt := hroute pkt rfl
    obtain ⟨⟨heap, streams⟩, hwrite, h⟩ := Run.exists_of_bind_ok h
    have htame := Heap.tame_allReached.writerMediaPacket hpkt (hroutable.fedStream hpkt) hwrite
    cases h
    exact htame.1 hall

theorem onRead_reached {w w' : World} {sid : Nat} {data : Bytes} {handshake : Option Bytes}
    (hall : w.heap.AllReached) (h : w.onRead sid data handshake = .ok w') :
    w'.heap.AllReached := by
  unfold onRead at h
  rcases hs : w.session sid with _ | s
  · rw [hs] at h
    cases h
    exact hall
  have hput : ∀ {s' : ServerSession}, Session.onRead data handshake s.toSession = .ok s'.toSession →
      (w.setSession sid s').heap.AllReached := by
    intro s' hread
    apply hall.setSession
    exact (hall sid s hs).step (a := .read data handshake) hread
  simp only [hs] at h
  unfold Session.onRead at hput
  rcases hphase : s.serverPhase <;> simp only [hphase] at h hput
  · split_ifs at h hput with hlen
    · exact endRead_reached (hput rfl) h
    · rcases handshake with _ | s0s1s2
      · exact close_setSession_reached hall rfl h
      · exact endRead_reached (hput rfl) h
  · split_ifs at h hput with hlen hempty
    · exact endRead_reached (hput rfl) h
    · exact endRead_reached (hput rfl) h
    · cases h
      exact hput rfl
  all_goals
    cases h
    exact hput rfl

theorem receivePass_reached {w w' : World} {after : Bytes} (hsound : w.view.Sound)
    (hall : w.heap.AllReached) (h : w.receivePass after = .ok w') : w'.heap.AllReached := by
  unfold receivePass at h
  rcases hcontrol : w.control with _ | ⟨sid, afterC2⟩
  · rw [hcontrol] at h
    cases h
    exact hall
  rcases hs : w.session sid with _ | s
  · simp only [hcontrol, hs] at h
    cases h
    exact hall
  simp only [hcontrol, hs] at h
  obtain ⟨⟨m, ret, action, session⟩, hpass, h⟩ := Run.exists_of_bind_ok h
  obtain ⟨w₂, hperform, hend⟩ := Run.exists_of_bind_ok h
  have hroute : ∀ pkt, action = .publish pkt → Heap.packetRoute pkt ≠ none := by
    intro pkt hpkt
    rcases m with _ | m
    · rw [(Session.receivePass_none hpass).2.1] at hpkt
      cases hpkt
    · exact ((Session.receivePass_some hpass).publish pkt hpkt).2.2.1
  by_cases hret : ret = some .error
  · -- nothing is done for a message that is refused
    have hnone : action = .none := by
      rcases m with _ | m
      · exact (Session.receivePass_none hpass).2.1
      · exact ((Session.receivePass_some hpass).refused hret).1
    subst hret hnone
    cases hperform
    exact close_setSession_reached hall rfl hend
  · have hstep : Session.step (.pass after) s.toSession = .ok session := by
      rw [Session.step, hpass]
      exact if_neg hret
    have hall₁ : (w.setSession sid { s with toSession := session }).heap.AllReached :=
      hall.setSession ((hall sid s hs).step hstep) sid
    have hall₂ : w₂.heap.AllReached := by
      refine perform_reached ?_ ?_ hroute hperform
      · exact hall₁
      · exact hsound.routable
    rcases ret with _ | ret
    · cases hend
      exact hall₂
    · exact endRead_reached hall₂ hend

theorem step_reached {w w' : World} {e : Event} (hsound : w.view.Sound)
    (hall : w.heap.AllReached) (h : w.step e = .ok w') : w'.heap.AllReached := by
  unfold step at h
  split_ifs at h
  · cases h
    exact hall
  · cases e with
    | accept sessionKey =>
      cases h
      exact hall.setSession Session.reached_init w.nextSession
    | read sid data handshake => exact onRead_reached hall h
    | pass after => exact receivePass_reached hsound hall h
    | hangup sid => exact close_reached (fun sid' s _ hs => hall sid' s hs) h

/-- **The sessions of the server are sessions.**  Every open session is in a state
that a run of the machine of one session reaches. -/
theorem session_run {events : List Event} {w : World} (hrun : Run.run step events {} = .ok w)
    {sid : Nat} {s : ServerSession} (hs : w.session sid = some s) :
    ∃ acts, Run.run Session.step acts {} = .ok s.toSession := by
  have hkeep : ∀ e w w', w.view.Sound ∧ w.heap.AllReached → World.step e w = .ok w' →
      w'.view.Sound ∧ w'.heap.AllReached := by
    rintro e w w' ⟨hsound, hall⟩ hstep
    exact ⟨hsound.step (step_view hsound hstep), step_reached hsound hall hstep⟩
  have hinit : ({} : World).view.Sound ∧ ({} : World).heap.AllReached := by
    refine ⟨View.sound_init, ?_⟩
    intro sid s hs
    cases hs
  exact (Run.run_preserves hkeep hinit hrun).2 sid s hs

end World

end MediaServer
