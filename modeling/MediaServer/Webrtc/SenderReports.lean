import Mathlib.Logic.Function.Basic
import MediaServer.Lib.Run
import MediaServer.Webrtc.RtcBaseSession
import MediaServer.Webrtc.RtpRecvStream

/-!
# Packets and sender reports of a session

`webrtc_session` hands a decrypted packet to the publisher that `ssrc2publishers_` has for
its number, and a sender report to the one that it has for the number in the report.
`rtc_publisher` makes its `rtp_recv_stream` with the first packet of the media stream.  A
report goes to the stream without a look whether there is one, and without a look at
whether it is about the media stream or about the retransmissions.

The maps of the session stay as they are here, so the state is what `rtp_handler_` points
to, for every publisher.

* `note` keeps beside the state what the packets and reports of a publisher have been.
* `sender_reports_iff`: no report reaches a publisher without a stream, and what the last
  report for the media stream has set stays, exactly along the runs in which every report
  comes behind a packet of the media stream, and no report for the retransmissions comes
  behind one for the media stream.
-/

namespace MediaServer

/-- What ends the handling of a packet and the program with it. -/
inductive Halt where
  /-- `rtp_handler_` is null where it is dereferenced. -/
  | nullHandler
  | fault (f : Fault)
  /-- An exception that nobody catches before `main`. -/
  | thrown (e : RecvError)
  deriving DecidableEq

/-- A text of the room, one character for every byte. -/
def textOf (b : Bytes) : String := String.ofList (b.map fun c => Char.ofNat c.toNat)

namespace RtcPublisher

/-! ## Packets of a publisher -/

/-- The packet belongs to the media stream. -/
def isMedia (p : RtcPublisher) (pkt : Rtp.Packet) : Bool :=
  decide ((Rtp.getSsrc pkt.getData).toNat = p.stream.rtpSsrc) &&
    decide (Rtp.getPayloadType pkt.getData = p.stream.payloadtype)

/-- The packet belongs to the retransmissions. -/
def isRtx (p : RtcPublisher) (pkt : Rtp.Packet) : Bool :=
  p.stream.hasRtx && decide ((Rtp.getSsrc pkt.getData).toNat = p.stream.rtxSsrc) &&
    decide (Rtp.getPayloadType pkt.getData = p.stream.rtxPayloadtype)

/-- What a packet leaves: `rtp_handler_`, and the packet that goes on to the room. -/
structure Delivered where
  rtpHandler : Option RtpRecvStream
  toRoom : Option Rtp.Packet := none

/-- The packet goes on to the room, unless there was an exception. -/
def deliver (h : RtpRecvStream.Handled) : Except Halt Delivered :=
  match h.thrown with
  | some e => .error (.thrown e)
  | none => .ok { rtpHandler := some h.stream, toRoom := some h.packet }

/-- `on_handle_rtppacket`. -/
def onHandleRtppacket (p : RtcPublisher) (nowMs : Int) (pkt : Rtp.Packet)
    (rtpHandler : Option RtpRecvStream) : Except Halt Delivered :=
  if p.isMedia pkt then
    let handler := rtpHandler.getD
      (.new (textOf p.mediaInfo.mediaType) (Rtp.getSsrc pkt.getData) p.stream.payloadtype
        p.stream.clockRate)
    deliver (handler.onHandleRtp nowMs pkt)
  else if p.isRtx pkt then
    match rtpHandler with
    | none => .ok { rtpHandler, toRoom := some pkt }
    | some handler =>
      match handler.onHandleRtxPacket pkt with
      | .error f => .error (.fault f)
      | .ok h => deliver h
  else .ok { rtpHandler }

/-- `on_handle_rtcp_sr`. -/
def onHandleRtcpSr (nowMs : Int) (srPkt : RtcpSrPacket) :
    Option RtpRecvStream → Except Halt RtpRecvStream
  | none => .error .nullHandler
  | some handler => .ok (handler.onHandleRtcpSr nowMs srPkt)

/-- `on_timer`. -/
def onTimer (nowMs : Int) (jitter dlsr : UInt32) :
    Option RtpRecvStream → Except Halt (Option RtpRecvStream)
  | none => .ok none
  | some handler =>
    match handler.onTimer nowMs jitter dlsr with
    | .error f => .error (.fault f)
    | .ok (_, handler) => .ok (some handler)

end RtcPublisher

namespace SenderReports

/-! ## The session -/

/-- What `rtp_handler_` points to, by the id of the publisher. -/
abbrev Handlers := Bytes → Option RtpRecvStream

/-- What is delivered to the publishers. -/
inductive Event where
  | rtp (nowMs : Int) (pkt : Rtp.Packet)
  | sr (nowMs : Int) (srPkt : RtcpSrPacket)
  | timer (pid : Bytes) (nowMs : Int) (jitter dlsr : UInt32)

/-- `get_publisher` by the number of a stream. -/
def getPublisher (s : RtcBaseSession) (ssrc : UInt32) : Option RtcPublisher :=
  s.ssrc2publishers.find? ssrc.toNat

/-- `on_handle_rtp_data` behind the parser, `handle_rtcp_sr` behind the parser, and the
timer of a publisher.  A stream that nobody publishes is only logged. -/
def step (s : RtcBaseSession) : Event → Handlers → Except Halt Handlers
  | .rtp nowMs pkt, hs =>
    match getPublisher s (Rtp.getSsrc pkt.getData) with
    | none => .ok hs
    | some p => (p.onHandleRtppacket nowMs pkt (hs p.pid)).map fun d =>
        Function.update hs p.pid d.rtpHandler
  | .sr nowMs srPkt, hs =>
    match getPublisher s srPkt.ssrc with
    | none => .ok hs
    | some p => (RtcPublisher.onHandleRtcpSr nowMs srPkt (hs p.pid)).map fun handler =>
        Function.update hs p.pid (some handler)
  | .timer pid nowMs jitter dlsr, hs =>
    (RtcPublisher.onTimer nowMs jitter dlsr (hs pid)).map fun handler =>
      Function.update hs pid handler

/-! ## What has come -/

/-- `lsr_` and `last_sr_ms_`. -/
abbrev SrState : Type := UInt32 × Int

/-- What a stream keeps of the last report. -/
def srState (h : RtpRecvStream) : SrState := (h.lsr, h.lastSrMs)

/-- What a report sets. -/
def srStateOf (nowMs : Int) (srPkt : RtcpSrPacket) : SrState :=
  (((srPkt.ntpSec &&& 0xffff) <<< 16) ||| (srPkt.ntpFrac &&& 0xffff), nowMs)

/-- What has come for a publisher. -/
structure Noted where
  /-- A packet of the media stream. -/
  media : Bool := false
  /-- What the last report for the media stream sets.  A report for a stream that is
  neither the media stream nor its retransmissions puts an end to it. -/
  report : Option SrState := none

/-- What a report is about. -/
inductive About where
  | media
  | rtx
  | other
  deriving DecidableEq

/-- What a report for the stream `ssrc` of a publisher is about. -/
def aboutOf (p : RtcPublisher) (ssrc : UInt32) : About :=
  if ssrc.toNat = p.stream.rtpSsrc then .media
  else if p.stream.hasRtx ∧ ssrc.toNat = p.stream.rtxSsrc then .rtx
  else .other

/-- A report is added to what has come. -/
def Noted.addReport (n : Noted) (v : SrState) : About → Noted
  | .media => { n with report := some v }
  | .rtx => n
  | .other => { n with report := none }

/-- What has come, with the event. -/
def note (s : RtcBaseSession) : Event → Handlers → (Bytes → Noted) → Bytes → Noted
  | .rtp _ pkt, _, noted =>
    match getPublisher s (Rtp.getSsrc pkt.getData) with
    | none => noted
    | some p =>
      Function.update noted p.pid
        { noted p.pid with media := (noted p.pid).media || p.isMedia pkt }
  | .sr nowMs srPkt, _, noted =>
    match getPublisher s srPkt.ssrc with
    | none => noted
    | some p =>
      Function.update noted p.pid
        ((noted p.pid).addReport (srStateOf nowMs srPkt) (aboutOf p srPkt.ssrc))
  | .timer _ _ _ _, _, noted => noted

/-- The machine with what has come beside its state. -/
abbrev stepNoted (s : RtcBaseSession) :
    Event → (Bytes → Noted) × Handlers → Except Halt ((Bytes → Noted) × Handlers) :=
  Run.withGhost (note s) (step s)

/-- Nothing has come. -/
def start : (Bytes → Noted) × Handlers := (fun _ => {}, fun _ => none)

/-- What the last report for the media stream has set is there. -/
def Stands (st : (Bytes → Noted) × Handlers) : Prop :=
  ∀ pid v, (st.1 pid).report = some v → ∃ h, st.2 pid = some h ∧ srState h = v

/-- The condition of a step.  A report comes behind a packet of the media stream.  When it
is about the retransmissions and what a report for the media stream has set stands, it sets
the same. -/
def Allowed (s : RtcBaseSession) : Event → (Bytes → Noted) × Handlers → Prop
  | .sr nowMs srPkt, st =>
    ∀ p, getPublisher s srPkt.ssrc = some p →
      (st.1 p.pid).media = true ∧
        (aboutOf p srPkt.ssrc = .rtx →
          ∀ v, (st.1 p.pid).report = some v → srStateOf nowMs srPkt = v)
  | _, _ => True

/-! ## What the handlers leave alone -/

section Frame

variable {h : RtpRecvStream}

@[simp] theorem srState_updateSeq (seq : UInt16) (h : RtpRecvStream) :
    srState (h.updateSeq seq) = srState h := by
  simp only [RtpRecvStream.updateSeq]
  split_ifs
  · rfl
  · rfl
  · rfl
  · rfl
  · rfl

@[simp] theorem srState_takeSeq (seq : UInt16) (h : RtpRecvStream) :
    srState (h.takeSeq seq) = srState h := by
  rw [RtpRecvStream.takeSeq]
  split_ifs
  · rfl
  · exact srState_updateSeq seq h

@[simp] theorem srState_noteNack (seq : UInt16) (h : RtpRecvStream) :
    srState (h.noteNack seq) = srState h := by
  rw [RtpRecvStream.noteNack]
  split_ifs
  · rfl
  · rfl

theorem srState_onHandleRtp (nowMs : Int) (pkt : Rtp.Packet) (h : RtpRecvStream) :
    srState (h.onHandleRtp nowMs pkt).stream = srState h := by
  simp only [RtpRecvStream.onHandleRtp, RtpRecvStream.generateJitter]
  split_ifs
  · exact srState_takeSeq _ _
  · rw [srState_noteNack]
    exact srState_takeSeq _ _

theorem srState_onHandleRtxPacket {pkt : Rtp.Packet} {d : RtpRecvStream.Handled}
    (hd : h.onHandleRtxPacket pkt = .ok d) : srState d.stream = srState h := by
  simp only [RtpRecvStream.onHandleRtxPacket] at hd
  split at hd
  · cases hd
  · cases hd
    rfl
  · cases hd
    rw [srState_noteNack, srState_updateSeq]
    rfl

theorem srState_getPacketLost {lost : Int} {h' : RtpRecvStream}
    (hlost : h.getPacketLost = .ok (lost, h')) : srState h' = srState h := by
  simp only [RtpRecvStream.getPacketLost] at hlost
  split_ifs at hlost
  · cases hlost
    rfl
  · cases hlost
    rfl
  · obtain ⟨fracLost, -, hrest⟩ := Run.exists_of_bind_ok hlost
    cases hrest
    rfl

theorem srState_sendRtcpRr {jitter dlsr : UInt32} {rr : RtcpRrPacket} {h' : RtpRecvStream}
    (hsend : h.sendRtcpRr jitter dlsr = .ok (rr, h')) : srState h' = srState h := by
  rw [RtpRecvStream.sendRtcpRr] at hsend
  obtain ⟨⟨lost, g⟩, hlost, hrest⟩ := Run.exists_of_bind_ok hsend
  cases hrest
  exact srState_getPacketLost hlost

theorem srState_onTimer {nowMs : Int} {jitter dlsr : UInt32} {rr : Option RtcpRrPacket}
    {h' : RtpRecvStream} (htimer : h.onTimer nowMs jitter dlsr = .ok (rr, h')) :
    srState h' = srState h := by
  simp only [RtpRecvStream.onTimer] at htimer
  split_ifs at htimer with hdue hlog hlog
  · obtain ⟨⟨r, g⟩, hsend, hrest⟩ := Run.exists_of_bind_ok htimer
    cases hrest
    have hstate := srState_sendRtcpRr hsend
    exact hstate
  · obtain ⟨⟨r, g⟩, hsend, hrest⟩ := Run.exists_of_bind_ok htimer
    cases hrest
    have hstate := srState_sendRtcpRr hsend
    exact hstate
  · cases htimer
    rfl
  · cases htimer
    rfl

theorem srState_onHandleRtcpSr (nowMs : Int) (srPkt : RtcpSrPacket) (h : RtpRecvStream) :
    srState (h.onHandleRtcpSr nowMs srPkt) = srStateOf nowMs srPkt := rfl

/-- A packet makes the stream if it is one of the media stream, and changes nothing in
what the reports have set. -/
theorem onHandleRtppacket_ok {p : RtcPublisher} {nowMs : Int} {pkt : Rtp.Packet}
    {rtpHandler : Option RtpRecvStream} {d : RtcPublisher.Delivered}
    (hd : p.onHandleRtppacket nowMs pkt rtpHandler = .ok d) :
    d.rtpHandler.isSome = (rtpHandler.isSome || p.isMedia pkt) ∧
      ∀ g, rtpHandler = some g → ∃ g', d.rtpHandler = some g' ∧ srState g' = srState g := by
  have hdeliver : ∀ (handled : RtpRecvStream.Handled) (d : RtcPublisher.Delivered),
      RtcPublisher.deliver handled = .ok d → d.rtpHandler = some handled.stream := by
    intro handled d hdeliver
    rw [RtcPublisher.deliver] at hdeliver
    split at hdeliver
    · cases hdeliver
    · cases hdeliver
      rfl
  simp only [RtcPublisher.onHandleRtppacket] at hd
  split_ifs at hd with hmedia hrtx
  · rw [hdeliver _ _ hd, hmedia, Bool.or_true]
    refine ⟨rfl, ?_⟩
    intro g hg
    subst hg
    exact ⟨_, rfl, srState_onHandleRtp nowMs pkt g⟩
  · rw [Bool.eq_false_of_not_eq_true hmedia, Bool.or_false]
    cases rtpHandler with
    | none =>
      cases hd
      exact ⟨rfl, fun g hg => absurd hg (by simp)⟩
    | some handler =>
      cases hhandled : handler.onHandleRtxPacket pkt with
      | error f =>
        simp only [hhandled] at hd
        cases hd
      | ok handled =>
        simp only [hhandled] at hd
        rw [hdeliver _ _ hd]
        refine ⟨rfl, ?_⟩
        intro g hg
        cases hg
        exact ⟨_, rfl, srState_onHandleRtxPacket hhandled⟩
  · cases hd
    rw [Bool.eq_false_of_not_eq_true hmedia, Bool.or_false]
    exact ⟨rfl, fun g hg => ⟨g, hg, rfl⟩⟩

theorem onHandleRtppacket_avoids (p : RtcPublisher) (nowMs : Int) (pkt : Rtp.Packet)
    (rtpHandler : Option RtpRecvStream) :
    Run.Avoids .nullHandler (p.onHandleRtppacket nowMs pkt rtpHandler) := by
  have hdeliver : ∀ handled, Run.Avoids .nullHandler (RtcPublisher.deliver handled) := by
    intro handled
    rw [RtcPublisher.deliver]
    split
    · exact Run.avoids_of_ne (by simp)
    · exact Run.avoids_ok _ _
  simp only [RtcPublisher.onHandleRtppacket]
  refine Run.avoids_ite (hdeliver _) (Run.avoids_ite ?_ (Run.avoids_ok _ _))
  split
  · exact Run.avoids_ok _ _
  · split
    · exact Run.avoids_of_ne (by simp)
    · exact hdeliver _

theorem onTimer_ok {nowMs : Int} {jitter dlsr : UInt32} {rtpHandler next : Option RtpRecvStream}
    (htimer : RtcPublisher.onTimer nowMs jitter dlsr rtpHandler = .ok next) :
    next.isSome = rtpHandler.isSome ∧
      ∀ g, rtpHandler = some g → ∃ g', next = some g' ∧ srState g' = srState g := by
  cases rtpHandler with
  | none =>
    cases htimer
    exact ⟨rfl, fun g hg => absurd hg (by simp)⟩
  | some handler =>
    rw [RtcPublisher.onTimer] at htimer
    split at htimer
    · cases htimer
    · rename_i hhandler
      cases htimer
      refine ⟨rfl, ?_⟩
      intro g hg
      cases hg
      exact ⟨_, rfl, srState_onTimer hhandler⟩

theorem onTimer_avoids (nowMs : Int) (jitter dlsr : UInt32) (rtpHandler : Option RtpRecvStream) :
    Run.Avoids .nullHandler (RtcPublisher.onTimer nowMs jitter dlsr rtpHandler) := by
  cases rtpHandler with
  | none => exact Run.avoids_ok _ _
  | some handler =>
    rw [RtcPublisher.onTimer]
    split
    · exact Run.avoids_of_ne (by simp)
    · exact Run.avoids_ok _ _

end Frame

/-! ## Steps and runs -/

variable {s : RtcBaseSession} {a : Event} {st st' : (Bytes → Noted) × Handlers}

/-- What holds along the allowed runs.  A publisher has its stream once a packet of the
media stream has come. -/
structure Ready (st : (Bytes → Noted) × Handlers) : Prop where
  handler : ∀ pid, (st.2 pid).isSome = (st.1 pid).media
  stands : Stands st

theorem ready_start : Ready start where
  handler _ := rfl
  stands pid v hv := by cases hv

/-- A publisher whose stream stays, or is made, without a report. -/
theorem Ready.update {noted : Bytes → Noted} {hs : Handlers} (hready : Ready (noted, hs))
    {pid : Bytes} {next : Option RtpRecvStream} {media : Bool}
    (hmedia : next.isSome = media)
    (hkept : ∀ g, hs pid = some g → ∃ g', next = some g' ∧ srState g' = srState g) :
    Ready (Function.update noted pid { noted pid with media }, Function.update hs pid next) := by
  constructor
  · intro q
    by_cases hq : q = pid
    · subst hq
      simpa using hmedia
    · simp only [Function.update_of_ne hq]
      exact hready.handler q
  · intro q v hv
    by_cases hq : q = pid
    · subst hq
      simp only [Function.update_self] at hv ⊢
      obtain ⟨g, hg, hstate⟩ := hready.stands q v hv
      obtain ⟨g', hg', hsame⟩ := hkept g hg
      exact ⟨g', hg', hsame.trans hstate⟩
    · simp only [Function.update_of_ne hq] at hv ⊢
      exact hready.stands q v hv


/-- A packet or a timer never meets a null pointer, and leaves what the reports have
set. -/
theorem step_quiet (hquiet : ∀ nowMs srPkt, a ≠ .sr nowMs srPkt) (hready : Ready st) :
    Run.Avoids .nullHandler (stepNoted s a st) ∧
      ∀ st', stepNoted s a st = .ok st' → Ready st' := by
  have havoids : ∀ {β : Type} (f : β → Handlers) (x : Except Halt β),
      Run.Avoids .nullHandler x → Run.Avoids .nullHandler (x.map f) := by
    intro β f x hx
    cases x with
    | error e => exact Run.avoids_of_ne fun he => hx (by rw [he])
    | ok b => exact Run.avoids_ok _ _
  have hghost : Run.Avoids .nullHandler (step s a st.2) →
      Run.Avoids .nullHandler (stepNoted s a st) := by
    intro hstep
    rw [stepNoted, Run.withGhost]
    cases h : step s a st.2 with
    | error e =>
      rw [h] at hstep
      exact Run.avoids_of_ne fun he => hstep (by rw [he])
    | ok hs => exact Run.avoids_ok _ _
  rcases st with ⟨noted, hs⟩
  cases a with
  | sr nowMs srPkt => exact absurd rfl (hquiet nowMs srPkt)
  | rtp nowMs pkt =>
    refine ⟨hghost ?_, ?_⟩
    · rw [step]
      split
      · exact Run.avoids_ok _ _
      · exact havoids _ _ (onHandleRtppacket_avoids _ _ _ _)
    · rintro ⟨noted', hs'⟩ hstep
      obtain ⟨hstep, hnote⟩ := Run.withGhost_ok.mp hstep
      simp only [step] at hstep
      simp only [note] at hnote
      cases hp : getPublisher s (Rtp.getSsrc pkt.getData) with
      | none =>
        rw [hp] at hstep hnote
        cases hstep
        rw [hnote]
        exact hready
      | some p =>
        rw [hp] at hstep hnote
        obtain ⟨d, hd, rfl⟩ := Run.exists_of_map_ok hstep
        rw [hnote]
        obtain ⟨hmedia, hkept⟩ := onHandleRtppacket_ok hd
        rw [hready.handler p.pid] at hmedia
        exact hready.update hmedia hkept
  | timer pid nowMs jitter dlsr =>
    refine ⟨hghost (havoids _ _ (onTimer_avoids _ _ _ _)), ?_⟩
    rintro ⟨noted', hs'⟩ hstep
    obtain ⟨hstep, hnote⟩ := Run.withGhost_ok.mp hstep
    simp only [note] at hnote
    obtain ⟨next, hnext, rfl⟩ := Run.exists_of_map_ok hstep
    obtain ⟨hsome, hkept⟩ := onTimer_ok hnext
    rw [hready.handler pid] at hsome
    have hupdate := hready.update hsome hkept
    rw [Function.update_eq_self] at hupdate
    rw [hnote]
    exact hupdate

/-- A report is taken where there is a stream. -/
theorem step_sr {nowMs : Int} {srPkt : RtcpSrPacket} {noted : Bytes → Noted} {hs : Handlers}
    {p : RtcPublisher} (hp : getPublisher s srPkt.ssrc = some p) :
    stepNoted s (.sr nowMs srPkt) (noted, hs) =
      match hs p.pid with
      | none => .error .nullHandler
      | some handler => .ok
          (Function.update noted p.pid
            ((noted p.pid).addReport (srStateOf nowMs srPkt) (aboutOf p srPkt.ssrc)),
          Function.update hs p.pid (some (handler.onHandleRtcpSr nowMs srPkt))) := by
  simp only [stepNoted, Run.withGhost, step, note, hp]
  cases hs p.pid with
  | none => rfl
  | some handler => rfl

/-- What stands behind a report. -/
theorem stands_addReport_iff {noted : Bytes → Noted} {hs : Handlers} {pid : Bytes}
    {about : About} {h : RtpRecvStream} {v : SrState} (hstands : Stands (noted, hs))
    (hv : srState h = v) :
    Stands (Function.update noted pid ((noted pid).addReport v about),
        Function.update hs pid (some h)) ↔
      (about = .rtx → ∀ w, (noted pid).report = some w → v = w) := by
  constructor
  · intro hafter habout w hw
    subst habout
    obtain ⟨h', hh', hstate⟩ := hafter pid w (by simpa [Noted.addReport] using hw)
    simp only [Function.update_self, Option.some.injEq] at hh'
    subst hh'
    exact hv.symm.trans hstate
  · intro hsame q w hw
    by_cases hq : q = pid
    · subst hq
      simp only [Function.update_self, Option.some.injEq, exists_eq_left'] at hw ⊢
      rw [hv]
      cases about with
      | media => exact Option.some.inj hw
      | rtx => exact hsame rfl w hw
      | other => cases hw
    · simp only [Function.update_of_ne hq] at hw ⊢
      exact hstands q w hw

/-- One step is safe exactly when it meets the condition. -/
theorem step_safe_iff (hready : Ready st) :
    (Run.Avoids .nullHandler (stepNoted s a st) ∧
        ∀ st', stepNoted s a st = .ok st' → Stands st') ↔ Allowed s a st := by
  cases a with
  | rtp nowMs pkt =>
    obtain ⟨havoids, hnext⟩ := step_quiet (s := s) (a := .rtp nowMs pkt) (by simp) hready
    exact ⟨fun _ => trivial, fun _ => ⟨havoids, fun st' h => (hnext st' h).stands⟩⟩
  | timer pid nowMs jitter dlsr =>
    obtain ⟨havoids, hnext⟩ := step_quiet (s := s) (a := .timer pid nowMs jitter dlsr) (by simp)
      hready
    exact ⟨fun _ => trivial, fun _ => ⟨havoids, fun st' h => (hnext st' h).stands⟩⟩
  | sr nowMs srPkt =>
    rcases st with ⟨noted, hs⟩
    cases hp : getPublisher s srPkt.ssrc with
    | none =>
      have hstep : stepNoted s (.sr nowMs srPkt) (noted, hs) = .ok (noted, hs) := by
        simp only [stepNoted, Run.withGhost, step, note, hp]
        rfl
      rw [hstep]
      refine ⟨fun _ p hp' => ?_, fun _ => ⟨Run.avoids_ok _ _, ?_⟩⟩
      · rw [hp] at hp'
        cases hp'
      · intro st' hst'
        cases hst'
        exact hready.stands
    | some p =>
      have hsome := hready.handler p.pid
      simp only [Allowed, hp, Option.some.injEq, forall_eq', step_sr hp]
      cases hh : hs p.pid with
      | none =>
        simp only [hh, Option.isSome_none] at hsome
        simp [← hsome, Run.Avoids]
      | some handler =>
        simp only [hh, Option.isSome_some] at hsome
        rw [← stands_addReport_iff hready.stands (srState_onHandleRtcpSr nowMs srPkt handler)]
        simp [← hsome, Run.Avoids]

/-- The allowed steps keep what the condition needs. -/
theorem ready_step (hready : Ready st) (hallowed : Allowed s a st)
    (hstep : stepNoted s a st = .ok st') : Ready st' := by
  cases a with
  | rtp nowMs pkt => exact (step_quiet (by simp) hready).2 st' hstep
  | timer pid nowMs jitter dlsr => exact (step_quiet (by simp) hready).2 st' hstep
  | sr nowMs srPkt =>
    refine ⟨?_, ((step_safe_iff hready).mpr hallowed).2 st' hstep⟩
    rcases st with ⟨noted, hs⟩
    cases hp : getPublisher s srPkt.ssrc with
    | none =>
      simp only [stepNoted, Run.withGhost, step, note, hp] at hstep
      cases hstep
      exact hready.handler
    | some p =>
      rw [step_sr hp] at hstep
      have hsome := hready.handler p.pid
      cases hh : hs p.pid with
      | none =>
        rw [hh] at hstep
        cases hstep
      | some handler =>
        rw [hh] at hstep
        cases hstep
        simp only [hh, Option.isSome_some] at hsome
        intro q
        by_cases hq : q = p.pid
        · subst hq
          simp only [Function.update_self, Option.isSome_some]
          rw [hsome]
          cases aboutOf p srPkt.ssrc with
          | media => rfl
          | rtx => rfl
          | other => rfl
        · simp only [Function.update_of_ne hq]
          exact hready.handler q

/-- No report meets a null pointer, and what the last report for the media stream has set
stands in every state, exactly along the runs whose steps all meet the condition. -/
theorem sender_reports_iff (s : RtcBaseSession) (events : List Event) :
    (Run.Avoids .nullHandler (Run.run (stepNoted s) events start) ∧
        ∀ pre st, pre <+: events → Run.run (stepNoted s) pre start = .ok st → Stands st) ↔
      Run.Along (stepNoted s) (Allowed s) events start := by
  rw [Run.avoids_and_forall_prefix_iff ready_start.stands]
  constructor
  · intro h
    refine h.of_invariant Ready ?_ (fun a st hready => (step_safe_iff hready).mp) ready_start
    intro a st st' hready hsafe hstep
    exact ready_step hready ((step_safe_iff hready).mp hsafe) hstep
  · intro h
    refine h.of_invariant Ready ?_ (fun a st hready => (step_safe_iff hready).mpr) ready_start
    intro a st st' hready hallowed hstep
    exact ready_step hready hallowed hstep

/-! ## A report that comes first -/

/-- A section of video, its media stream 1 and its retransmissions 2. -/
def videoMedia : MediaRtcInfo where
  mid := 0
  mediaType := ascii "video"
  port := 9
  rtcpMux := ascii "rtcp-mux"
  setup := ascii "actpass"
  rtcp := { address := ascii "0.0.0.0", ipVer := 4, netType := ascii "IN", port := 9 }
  ssrcGroups := [{ semantics := ascii "FID", ssrcs := [1, 2] }]
  protocol := ascii "UDP/TLS/RTP/SAVPF"
  payloads := [96, 97]
  headerExtentions := []
  rtpEncodings :=
    [{ codec := ascii "H264", payload := 96, clockRate := 90000 },
      { codec := ascii "rtx", payload := 97, clockRate := 90000 }]
  ssrcInfos :=
    [{ attr := ascii "cname", value := ascii "c", ssrc := 1 },
      { attr := ascii "cname", value := ascii "c", ssrc := 2 }]
  fmtps := [{ config := ascii "apt=96", payload := 97 }]

/-- A session with a publisher for it. -/
def oneVideo : RtcBaseSession :=
  RtcBaseSession.addPublisher
    { id := ascii "s", uid := ascii "u", direction := .recv, medias := [videoMedia] }
    { pid := ascii "p", mediaInfo := videoMedia
      stream := { clockRate := 90000, hasRtx := true, payloadtype := 96, rtxPayloadtype := 97
                  rtpSsrc := 1, rtxSsrc := 2 } }

/-- A report about the media stream. -/
def firstReport : RtcpSrPacket := ⟨1, 10, 0, 0, 0, 0⟩

/-- A report about its retransmissions. -/
def rtxReport : RtcpSrPacket := ⟨2, 20, 0, 0, 0, 0⟩

/-- A packet of the media stream with one byte of payload. -/
def firstMedia : Rtp.Packet :=
  { buffer := [0x80, 96, 0, 7, 0, 0, 0, 9, 0, 0, 0, 1, 0xab], ext := none, payload := 12
    payloadLen := 1, padLen := 0, dataLen := 13, localMs := 0, onebyteExtMap := .empty
    twobytesExtMap := .empty }

/-- A report before the first packet is handled with a null pointer, and one for the
retransmissions replaces what the report for the media stream has set. -/
theorem not_sender_reports :
    Run.run (stepNoted oneVideo) [.sr 5 firstReport] start = .error .nullHandler ∧
      ((Run.run (stepNoted oneVideo)
        [.rtp 1 firstMedia, .sr 5 firstReport, .sr 9 rtxReport] start).toOption.map fun st =>
          ((st.1 (ascii "p")).report, (st.2 (ascii "p")).map srState)) =
        some (some (0xa0000, 5), some (0x140000, 9)) := by
  refine ⟨?_, ?_⟩
  · apply Run.eq_error_of_fault
    decide +kernel
  · decide +kernel

end SenderReports

end MediaServer
