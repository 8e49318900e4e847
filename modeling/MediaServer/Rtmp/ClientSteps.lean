import MediaServer.Rtmp.ClientSession
import MediaServer.Rtmp.ServerSteps

/-!
# What the steps of the client do

The functions of the client, each inverted once.  A message is *accepted* in a
phase when its handling does not fail (`acceptedIn`), and the phase after an
accepted message is `phaseAfter`: only a command with the string `_result`
among its values changes it.  `respPass_spec` says what a pass of the loop
does, and `Regular` which phases the session can be in.
-/

namespace MediaServer

namespace ClientSession

/-! ## Commands from the server -/

/-- The values of a command. -/
def decoded (after : Bytes) (m : Message) : List AmfItem :=
  match AmfDecoder.decodePayload m.payload after with
  | .ok items => items
  | .error _ => []

/-- The value is the string `_result`. -/
def saysResult : AmfItem → Bool
  | .string desc => desc = ascii "_result"
  | _ => false

/-- The message is a command with the string `_result` among its values. -/
def bringsResult (after : Bytes) (m : Message) : Bool :=
  m.typeId = 20 && (decoded after m).any saysResult

/-- The phase accepts the value. -/
def itemAccepted (phase : ClientPhase) : AmfItem → Bool
  | .string desc =>
    if awaitsResult phase then desc = ascii "_result" || desc = ascii "onBWDone"
    else if awaitsStatus phase then desc = ascii "_result" || desc = ascii "onStatus"
    else true
  | .object fields => (codeOf fields).all (codeAccepted phase)
  | _ => true

theorem serverItem_eq (request phase : ClientPhase) (item : AmfItem) (next : ClientPhase) :
    serverItem request phase item next =
      if itemAccepted phase item then
        some (if awaitsResult phase && saysResult item then resultPhase request phase else next)
      else none := by
  cases item with
  | string desc =>
    simp only [serverItem, serverString, itemAccepted, saysResult]
    by_cases hawaits : awaitsResult phase = true
    · by_cases hresult : desc = ascii "_result"
      · simp [hawaits, hresult]
      · simp [hawaits, hresult]
    · by_cases hstatus : awaitsStatus phase = true
      · simp [hawaits, hstatus]
      · simp [hawaits, hstatus]
  | object fields =>
    simp only [serverItem, itemAccepted, saysResult, Bool.and_false]
    rcases codeOf fields with _ | desc
    · simp
    · simp
  | _ => simp [serverItem, itemAccepted, saysResult]

theorem serverItems_eq (request phase : ClientPhase) (items : List AmfItem) (next : ClientPhase) :
    serverItems request phase items next =
      if items.all (itemAccepted phase) then
        some (if awaitsResult phase && items.any saysResult then resultPhase request phase else next)
      else none := by
  induction items generalizing next with
  | nil => simp [serverItems]
  | cons item rest ih =>
    rw [serverItems, serverItem_eq]
    rcases hitem : itemAccepted phase item with _ | _
    · simp [hitem]
    · simp only [if_true, ih, List.all_cons, hitem, Bool.true_and, List.any_cons]
      by_cases hawaits : awaitsResult phase = true
      · by_cases hsays : saysResult item = true
        · simp [hawaits, hsays]
        · simp [hawaits, hsays]
      · simp [hawaits]

/-- The phase after an accepted message. -/
def phaseAfter (after : Bytes) (m : Message) (request phase : ClientPhase) : ClientPhase :=
  if awaitsResult phase && bringsResult after m then resultPhase request phase else phase

/-- The message is accepted in the phase. -/
def acceptedIn (phase : ClientPhase) (after : Bytes) (m : Message) : Bool :=
  if 1 ≤ m.typeId ∧ m.typeId ≤ 6 then !Session.controlRefused m
  else if m.typeId = 20 then
    !(decoded after m).isEmpty && (decoded after m).all (itemAccepted phase)
  else if Session.isMedia m.typeId then Session.carriesPacket after m
  else true

/-- The loop may end behind the message. -/
def endsLoop (m : Message) : Bool :=
  decide (1 ≤ m.typeId ∧ m.typeId ≤ 6) || decide (m.typeId = 20)

theorem handleServerCommandMessage_eq {after : Bytes} {m : Message} {s s' : ClientSession}
    {ret : RtmpRet} (htype : m.typeId = 20)
    (h : s.handleServerCommandMessage after m = .ok (ret, s')) :
    (acceptedIn s.clientPhase after m = true ∧ ret = .ok ∧
        s' = { s with clientPhase := phaseAfter after m s.requestPhase s.clientPhase }) ∨
      (acceptedIn s.clientPhase after m = false ∧ ret = .error ∧ s' = s) := by
  obtain ⟨items, hitems, h⟩ := Run.exists_of_bind_ok h
  have hdecoded : decoded after m = items := by rw [decoded, hitems]
  have haccepted : acceptedIn s.clientPhase after m =
      (!items.isEmpty && items.all (itemAccepted s.clientPhase)) := by
    rw [acceptedIn, if_neg (by rw [htype]; decide), if_pos htype, hdecoded]
  split_ifs at h with hempty
  · cases h
    right
    simp [haccepted, hempty]
  · have hne : items.isEmpty = false := by simpa using hempty
    rw [serverItems_eq] at h
    rcases hall : items.all (itemAccepted s.clientPhase) with _ | _
    · simp only [hall, Bool.false_eq_true, if_false] at h
      cases h
      right
      simp [haccepted, hall]
    · simp only [hall, if_true] at h
      cases h
      left
      have hbrings : bringsResult after m = items.any saysResult := by
        simp [bringsResult, htype, hdecoded]
      refine ⟨by rw [haccepted, hne, hall]; rfl, rfl, ?_⟩
      rw [phaseAfter, hbrings]

/-! ## Messages -/

/-- Two states of a session within one callback. -/
structure Kept (s s' : ClientSession) : Prop where
  connected : s'.connected = s.connected
  reading : s'.reading = s.reading
  control : s'.control = s.control
  req : s'.req = s.req

theorem Kept.requestPhase {s s' : ClientSession} (h : Kept s s') :
    s'.requestPhase = s.requestPhase := by
  rw [ClientSession.requestPhase, ClientSession.requestPhase, h.req]

/-- What a message has done. -/
structure Handled (after : Bytes) (m : Message) (ret : Option RtmpRet) (s s' : ClientSession) :
    Prop where
  kept : Kept s s'
  recvBuffer : s'.base.recvBuffer = s.base.recvBuffer
  fmtReady : s'.base.fmtReady = s.base.fmtReady
  log : ∃ pkts : List MediaPacket, s'.log = s.log ++ pkts.map .delivered
  accepted : acceptedIn s.clientPhase after m = true →
    s'.clientPhase = phaseAfter after m s.requestPhase s.clientPhase ∧
      ret = if endsLoop m && s.base.recvBuffer.isEmpty then some .ok else none
  refused : acceptedIn s.clientPhase after m = false →
    s'.clientPhase = s.clientPhase ∧ ret = some .error

theorem handleRtmpControlMessage_kept (m : Message) (s : Session) :
    (s.handleRtmpControlMessage m).2.req = s.req ∧
      (s.handleRtmpControlMessage m).2.base.recvBuffer = s.base.recvBuffer ∧
      (s.handleRtmpControlMessage m).2.base.fmtReady = s.base.fmtReady := by
  unfold Session.handleRtmpControlMessage
  split_ifs
  · exact ⟨rfl, rfl, rfl⟩
  · exact ⟨rfl, rfl, rfl⟩
  · exact ⟨rfl, rfl, rfl⟩
  · exact ⟨rfl, rfl, rfl⟩
  · exact ⟨rfl, rfl, rfl⟩

/-- A message of a type behind which the loop may end. -/
theorem handled_finishMessage {after : Bytes} {m : Message} {ret : RtmpRet}
    {ret' : Option RtmpRet} {s t s' : ClientSession} (h : finishMessage ret t = (ret', s'))
    (hends : endsLoop m = true) (hkept : Kept s t)
    (hbuffer : t.base.recvBuffer = s.base.recvBuffer) (hfmt : t.base.fmtReady = s.base.fmtReady)
    (hlog : t.log = s.log)
    (hcases : (acceptedIn s.clientPhase after m = true ∧ ret = .ok ∧
        t.clientPhase = phaseAfter after m s.requestPhase s.clientPhase) ∨
      (acceptedIn s.clientPhase after m = false ∧ ret = .error ∧
        t.clientPhase = s.clientPhase)) :
    Handled after m ret' s s' := by
  unfold finishMessage at h
  obtain ⟨hyes, rfl, hphase⟩ | ⟨hno, rfl, hphase⟩ := hcases
  · cases h
    refine ⟨⟨hkept.connected, hkept.reading, hkept.control, hkept.req⟩, hbuffer, hfmt,
      ⟨[], by simpa using hlog⟩, fun _ => ⟨hphase, ?_⟩, by simp [hyes]⟩
    show (if 0 < t.base.recvBuffer.length then none else some RtmpRet.ok) = _
    rw [hbuffer, hends]
    rcases s.base.recvBuffer with _ | ⟨b, rest⟩
    · rfl
    · simp
  · cases h
    exact ⟨hkept, hbuffer, hfmt, ⟨[], by simpa using hlog⟩, by simp [hno], fun _ => ⟨hphase, rfl⟩⟩

theorem phaseAfter_of_typeId {m : Message} (h : m.typeId ≠ 20) (after : Bytes)
    (request phase : ClientPhase) : phaseAfter after m request phase = phase := by
  simp [phaseAfter, bringsResult, h]

theorem handleMessage_handled {after : Bytes} {m : Message} {s s' : ClientSession}
    {ret : Option RtmpRet} (h : s.handleMessage after m = .ok (ret, s')) :
    Handled after m ret s s' := by
  unfold handleMessage at h
  split_ifs at h with hctrl hcmd hmedia
  · have htype := Session.typeId_ne_of_control hctrl
    obtain ⟨hreq, hbuffer, hfmt⟩ := handleRtmpControlMessage_kept m s.toSession
    have hret := Session.handleRtmpControlMessage_fst m s.toSession
    have haccepted : acceptedIn s.clientPhase after m = !Session.controlRefused m := by
      rw [acceptedIn, if_pos hctrl]
    refine handled_finishMessage (Except.ok.inj h) (by simp [endsLoop, hctrl])
      ⟨rfl, rfl, rfl, hreq⟩ hbuffer hfmt rfl ?_
    rcases hrefused : Session.controlRefused m with _ | _
    · left
      refine ⟨by rw [haccepted, hrefused]; rfl, by rw [hret, hrefused]; rfl, ?_⟩
      rw [phaseAfter_of_typeId htype]
    · right
      exact ⟨by rw [haccepted, hrefused]; rfl, by rw [hret, hrefused]; rfl, rfl⟩
  · obtain ⟨⟨ret₁, s₁⟩, h₁, h⟩ := Run.exists_of_bind_ok h
    have hends : endsLoop m = true := by simp [endsLoop, hcmd]
    have hfinish := Except.ok.inj h
    obtain ⟨hyes, hret, hs₁⟩ | ⟨hno, hret, hs₁⟩ := handleServerCommandMessage_eq hcmd h₁
    · subst hs₁
      exact handled_finishMessage hfinish hends ⟨rfl, rfl, rfl, rfl⟩ rfl rfl rfl
        (Or.inl ⟨hyes, hret, rfl⟩)
    · subst hs₁
      exact handled_finishMessage hfinish hends ⟨rfl, rfl, rfl, rfl⟩ rfl rfl rfl
        (Or.inr ⟨hno, hret, rfl⟩)
  · obtain ⟨pkt, hpkt, h⟩ := Run.exists_of_bind_ok h
    have haccepted : acceptedIn s.clientPhase after m = Session.carriesPacket after m := by
      simp [acceptedIn, hctrl, hcmd, hmedia]
    have hends : endsLoop m = false := by simp [endsLoop, hctrl, hcmd]
    split_ifs at h with hempty
    · cases h
      have hno := Session.not_carriesPacket_of_empty hpkt hempty
      exact ⟨⟨rfl, rfl, rfl, rfl⟩, rfl, rfl, ⟨[], by simp⟩, by simp [haccepted, hno],
        fun _ => ⟨rfl, rfl⟩⟩
    · cases h
      have hne : pkt.buffer ≠ [] := fun heq => hempty (by simp [heq])
      obtain ⟨-, -, hyes⟩ := Session.getMediaPacket_ok hmedia hpkt hne
      refine ⟨⟨rfl, rfl, rfl, rfl⟩, rfl, rfl, ⟨[pkt], rfl⟩, fun _ => ⟨?_, by simp [hends]⟩,
        by simp [haccepted, hyes]⟩
      rw [phaseAfter_of_typeId hcmd]
      rfl
  · cases h
    refine ⟨⟨rfl, rfl, rfl, rfl⟩, rfl, rfl, ⟨[], by simp⟩, fun _ => ⟨?_, by simp [endsLoop, hctrl, hcmd]⟩,
      by simp [acceptedIn, hctrl, hcmd, hmedia]⟩
    rw [phaseAfter_of_typeId hcmd]

/-! ## A pass -/

/-- The next pass ends the loop with `RTMP_NEED_READ_MORE`: a chunk or a message
is not complete. -/
def waits (s : ClientSession) : Bool :=
  match s.base.readChunkStream with
  | (.needReadMore, _) => true
  | (.ok, base) => !base.currentStream.isReady && base.recvBuffer.isEmpty
  | (.error, _) => false

/-- The session when `read_chunk_stream` has completed the message `m`. -/
def complete (after : Bytes) (m : Message) (s : ClientSession) : ClientSession :=
  { s with base := s.base.readChunkStream.2 }.note (.received after m)

/-- What a pass has done. -/
structure Passed (after : Bytes) (ret : Option RtmpRet) (s s' : ClientSession) : Prop where
  kept : Kept s s'
  waits : ret = some .needReadMore ↔ s.waits = true
  less : ret = none → s'.base.pending < s.base.pending
  quiet : s.base.nextMessage = none →
    s'.clientPhase = s.clientPhase ∧ s'.log = s.log ∧ ret ≠ some .ok
  message : ∀ m, s.base.nextMessage = some m → Handled after m ret (s.complete after m) s'

theorem respPass_spec {after : Bytes} {s s' : ClientSession} {ret : Option RtmpRet}
    (h : s.respPass after = .ok (ret, s')) : Passed after ret s s' := by
  unfold respPass at h
  rcases hr : s.base.readChunkStream with ⟨r, base⟩
  rw [hr] at h
  cases r with
  | ok =>
    obtain ⟨hready, hlt⟩ := SessionBase.readChunkStream_ok hr
    by_cases hmsg : base.currentStream.isReady = true
    · have hnext : s.base.nextMessage = some base.currentStream.message := by
        simp [SessionBase.nextMessage, hr, hmsg]
      have hwaits : s.waits = false := by simp [ClientSession.waits, hr, hmsg]
      simp only [hmsg, Bool.not_true, Bool.false_eq_true, if_false] at h
      have hhandled := handleMessage_handled h
      have hret : ret ≠ some .needReadMore := by
        intro heq
        rcases hacc : acceptedIn s.clientPhase after base.currentStream.message with _ | _
        · have hrefused := (hhandled.refused hacc).2
          rw [heq] at hrefused
          cases hrefused
        · have haccepted := (hhandled.accepted hacc).2
          rw [heq] at haccepted
          split_ifs at haccepted
          cases haccepted
      refine ⟨⟨hhandled.kept.connected, hhandled.kept.reading, hhandled.kept.control,
        hhandled.kept.req⟩, by simp [hret, hwaits], ?_, by simp [hnext], ?_⟩
      · intro _
        have hbuffer : s'.base.recvBuffer = base.recvBuffer := hhandled.recvBuffer
        have hfmt : s'.base.fmtReady = base.fmtReady := hhandled.fmtReady
        rw [SessionBase.pending, hbuffer, hfmt, hready]
        exact hlt
      · intro m hm
        rw [hnext, Option.some.injEq] at hm
        subst hm
        rw [complete, hr]
        exact hhandled
    · have hnext : s.base.nextMessage = none := by simp [SessionBase.nextMessage, hr, hmsg]
      have hwaits : s.waits = base.recvBuffer.isEmpty := by
        simp [ClientSession.waits, hr, hmsg]
      simp only [hmsg, Bool.not_false, if_true] at h
      cases h
      refine ⟨⟨rfl, rfl, rfl, rfl⟩, ?_, ?_, fun _ => ⟨rfl, rfl, ?_⟩, by simp [hnext]⟩
      · rw [hwaits]
        rcases base.recvBuffer with _ | ⟨b, rest⟩
        · simp
        · simp
      · intro _
        show base.recvBuffer.length + (if base.fmtReady then 1 else 0) < _
        rw [hready]
        exact hlt
      · split_ifs
        · simp
        · simp
  | needReadMore =>
    cases h
    exact ⟨⟨rfl, rfl, rfl, rfl⟩, by simp [ClientSession.waits, hr], by simp,
      fun _ => ⟨rfl, rfl, by simp⟩, by simp [SessionBase.nextMessage, hr]⟩
  | error =>
    cases h
    exact ⟨⟨rfl, rfl, rfl, rfl⟩, by simp [ClientSession.waits, hr], by simp,
      fun _ => ⟨rfl, rfl, by simp⟩, by simp [SessionBase.nextMessage, hr]⟩

/-! ## The rest of a callback -/

theorem sendCommand_ok {command : ClientCommand} {data : Bytes} {s s' : ClientSession}
    (h : s.sendCommand command data = .ok s') :
    ∃ sent, s' = { s with sent := sent, log := s.log ++ [.sent command] } := by
  obtain ⟨session, hsession, h⟩ := Run.exists_of_bind_ok h
  cases h
  obtain ⟨sent, rfl⟩ := Session.writeData_ok hsession
  exact ⟨_, rfl⟩

/-- What `resume` does, by the phase that it finds. -/
inductive Resumed (s s' : ClientSession) : Prop where
  | creates (hphase : s.clientPhase = .createStream) (hphase' : s'.clientPhase = .createStreamResp)
      (hlog : s'.log = s.log ++ [.sent .createStream]) (hconnected : s'.connected = s.connected)
      (hreading : s'.reading = true) (hcontrol : s'.control = .idle)
  | requests {command : ClientCommand} (hcommand : command = .play ∨ command = .publish)
      (hphase : awaitsStatus s.clientPhase = true) (hphase' : s'.clientPhase = .mediaHandle)
      (hlog : s'.log = s.log ++ [.sent command]) (hconnected : s'.connected = s.connected)
      (hreading : s'.reading = true) (hcontrol : s'.control = .idle)
  | loops {phase : RespPhase}
      (hphase : (s.clientPhase = .createStreamResp ∧ phase = .createStreamResp) ∨
        (s.clientPhase = .mediaHandle ∧ phase = .mediaHandle))
      (hs' : s' = { s with control := .receiving phase })
  | rests (hphase : s.clientPhase = .initial ∨ s.clientPhase = .c0c1 ∨ s.clientPhase = .connect ∨
        s.clientPhase = .connectResp)
      (hs' : s' = s.done)

theorem resume_resumed {s s' : ClientSession} (h : s.resume = .ok s') : Resumed s s' := by
  unfold resume at h
  rcases hphase : s.clientPhase <;> simp only [hphase] at h
  case createStream =>
    obtain ⟨s₁, hsend, h⟩ := Run.exists_of_bind_ok h
    obtain ⟨sent, rfl⟩ := sendCommand_ok hsend
    cases h
    exact .creates hphase rfl rfl rfl rfl rfl
  case createStreamResp =>
    cases h
    exact .loops (Or.inl ⟨hphase, rfl⟩) (by rw [hphase])
  case createPlay =>
    obtain ⟨s₁, hsend, h⟩ := Run.exists_of_bind_ok h
    obtain ⟨sent, rfl⟩ := sendCommand_ok hsend
    cases h
    exact .requests (Or.inl rfl) (by rw [hphase]; rfl) rfl rfl rfl rfl rfl
  case createPublish =>
    obtain ⟨s₁, hsend, h⟩ := Run.exists_of_bind_ok h
    obtain ⟨sent, rfl⟩ := sendCommand_ok hsend
    cases h
    exact .requests (Or.inr rfl) (by rw [hphase]; rfl) rfl rfl rfl rfl rfl
  case mediaHandle =>
    cases h
    exact .loops (Or.inr ⟨hphase, rfl⟩) (by rw [hphase])
  all_goals
    cases h
    exact .rests (by simp [hphase]) rfl

/-- The handshake waits for more, or ends with the connect command. -/
theorem handleS0s1s2_cases {s s' : ClientSession} (h : s.handleS0s1s2 = .ok s') :
    s' = s.tryRead.done ∨
      (s'.clientPhase = .connectResp ∧ s'.log = s.log ++ [.sent .connect] ∧
        s'.connected = s.connected ∧ s'.reading = true ∧ s'.control = .idle) := by
  unfold handleS0s1s2 at h
  split_ifs at h
  · cases h
    exact Or.inl rfl
  · obtain ⟨s₁, hsend, h⟩ := Run.exists_of_bind_ok h
    obtain ⟨sent, rfl⟩ := sendCommand_ok hsend
    cases h
    exact Or.inr ⟨rfl, rfl, rfl, rfl, rfl⟩

/-! ## The phases of a run -/

/-- The phases in which a loop that was started for a phase can be. -/
def follows : RespPhase → ClientPhase → Bool
  | .connectResp, phase =>
    phase = .connectResp || phase = .createStream || awaitsStatus phase
  | .createStreamResp, phase => phase = .createStreamResp || awaitsStatus phase
  | .mediaHandle, phase => phase = .mediaHandle

theorem awaitsStatus_requestPhase (s : ClientSession) : awaitsStatus s.requestPhase = true := by
  unfold requestPhase
  split
  · rfl
  · rfl

theorem follows_phaseAfter {p : RespPhase} {phase request : ClientPhase}
    (hrequest : awaitsStatus request = true) (h : follows p phase = true) (after : Bytes)
    (m : Message) : follows p (phaseAfter after m request phase) = true := by
  unfold phaseAfter
  split
  · rename_i hresult
    rw [Bool.and_eq_true] at hresult
    have hawaits := hresult.1
    unfold resultPhase
    cases p with
    | connectResp =>
      split
      · rfl
      · simp [follows, hrequest]
    | createStreamResp =>
      split
      · rename_i hconnect
        rcases hconnect with rfl | rfl
        · cases h
        · cases h
      · simp [follows, hrequest]
    | mediaHandle =>
      have hphase : phase = .mediaHandle := by simpa [follows] using h
      rw [hphase] at hawaits
      cases hawaits
  · exact h

/-- No loop runs before the handshake has ended. -/
theorem ne_of_follows {p : RespPhase} {phase : ClientPhase} (h : follows p phase = true) :
    phase ≠ .initial ∧ phase ≠ .connect := by
  constructor
  · intro heq
    rw [heq] at h
    cases p <;> cases h
  · intro heq
    rw [heq] at h
    cases p <;> cases h

/-- A pass leaves the phase among those of its loop. -/
theorem Passed.follows {after : Bytes} {ret : Option RtmpRet} {s s' : ClientSession}
    {p : RespPhase} (h : Passed after ret s s') (hp : follows p s.clientPhase = true) :
    follows p s'.clientPhase = true := by
  rcases hm : s.base.nextMessage with _ | m
  · rw [(h.quiet hm).1]
    exact hp
  · have hhandled := h.message m hm
    rcases hacc : acceptedIn s.clientPhase after m with _ | _
    · rw [(hhandled.refused hacc).1]
      exact hp
    · rw [(hhandled.accepted hacc).1]
      exact follows_phaseAfter (awaitsStatus_requestPhase s) hp after m

/-- The states of a run. -/
structure Regular (s : ClientSession) : Prop where
  busy : ∀ p, s.control = .receiving p →
    s.connected = true ∧ s.reading = false ∧ follows p s.clientPhase = true
  idle : s.connected = true → s.clientPhase ≠ .initial ∧ s.clientPhase ≠ .connect

theorem regular_start (publish : Bool) (tcurl app streamName : Bytes) :
    Regular (start publish tcurl app streamName) where
  busy p hcontrol := by cases hcontrol
  idle hconnected := by cases hconnected

theorem regular_close (s : ClientSession) : Regular s.close where
  busy p hcontrol := by cases hcontrol
  idle hconnected := by cases hconnected

/-- A callback that has returned. -/
theorem regular_of_idle {s : ClientSession} (hcontrol : s.control = .idle)
    (hphase : s.clientPhase ≠ .initial ∧ s.clientPhase ≠ .connect) : Regular s where
  busy p hbusy := by
    rw [hcontrol] at hbusy
    cases hbusy
  idle _ := hphase

theorem Resumed.regular {s s' : ClientSession} (h : Resumed s s') (hconnected : s.connected = true)
    (hreading : s.reading = false ∨ s.clientPhase = .connectResp)
    (hphase : s.clientPhase ≠ .initial ∧ s.clientPhase ≠ .connect) : Regular s' := by
  cases h with
  | creates _ hphase' _ _ _ hcontrol => exact regular_of_idle hcontrol (by simp [hphase'])
  | requests _ _ hphase' _ _ _ hcontrol => exact regular_of_idle hcontrol (by simp [hphase'])
  | @loops p hp hs' =>
    subst hs'
    have hfollows : follows p s.clientPhase = true := by
      rcases hp with ⟨hs, rfl⟩ | ⟨hs, rfl⟩
      · rw [hs]
        rfl
      · rw [hs]
        rfl
    have hnot : s.reading = false := by
      rcases hreading with hnot | hresp
      · exact hnot
      · rcases hp with ⟨hs, -⟩ | ⟨hs, -⟩
        · rw [hs] at hresp
          cases hresp
        · rw [hs] at hresp
          cases hresp
    refine ⟨?_, fun _ => hphase⟩
    intro p' hcontrol
    cases hcontrol
    exact ⟨hconnected, hnot, hfollows⟩
  | rests _ hs' =>
    subst hs'
    exact regular_of_idle rfl hphase

theorem endLoop_regular {p : RespPhase} {ret : RtmpRet} {s s' : ClientSession}
    (hconnected : s.connected = true) (hreading : s.reading = false)
    (hfollows : follows p s.clientPhase = true) (h : s.endLoop p ret = .ok s') : Regular s' := by
  have hphase := ne_of_follows hfollows
  unfold endLoop at h
  split at h
  · cases h
    exact regular_close s
  · cases h
    exact regular_of_idle rfl hphase
  · split_ifs at h with hresp
    · exact (resume_resumed h).regular hconnected (Or.inr hresp) hphase
    · exact (resume_resumed h).regular hconnected (Or.inl hreading) hphase
  · cases h
    exact regular_of_idle rfl hphase
  · refine (resume_resumed h).regular hconnected (Or.inl hreading) ?_
    show s.requestPhase ≠ .initial ∧ s.requestPhase ≠ .connect
    unfold requestPhase
    split
    · simp
    · simp
  · cases h
    exact regular_of_idle rfl hphase

theorem rtmpWrite_ok {pkt : MediaPacket} {s s' : ClientSession} (h : s.rtmpWrite pkt = .ok s') :
    ∃ sent, s' = { s with sent := sent } := by
  unfold rtmpWrite at h
  split_ifs at h
  · cases h
    exact ⟨s.sent, rfl⟩
  · split at h
    · cases h
      exact ⟨s.sent, rfl⟩
    · obtain ⟨session, hsession, h⟩ := Run.exists_of_bind_ok h
      cases h
      obtain ⟨sent, rfl⟩ := Session.writeData_ok hsession
      exact ⟨_, rfl⟩

/-- A pass is made only while a loop is in progress. -/
theorem receivePass_cases {after : Bytes} {p : RespPhase} {s s' : ClientSession}
    (hcontrol : s.control = .receiving p) (h : s.receivePass after = .ok s') :
    ∃ ret s₁, Passed after ret s s₁ ∧
      ((ret = none ∧ s' = s₁) ∨ ∃ r, ret = some r ∧ s₁.endLoop p r = .ok s') := by
  unfold receivePass at h
  simp only [hcontrol] at h
  obtain ⟨⟨ret, s₁⟩, hpass, h⟩ := Run.exists_of_bind_ok h
  refine ⟨ret, s₁, respPass_spec hpass, ?_⟩
  cases ret with
  | none =>
    cases h
    exact Or.inl ⟨rfl, rfl⟩
  | some r => exact Or.inr ⟨r, rfl, h⟩

/-- What a step can do. -/
theorem step_cases {e : Event} {s s' : ClientSession} (h : s.step e = .ok s') :
    (s.enabled e = false ∧ s' = s) ∨
      (∃ c1, e = .connect c1 ∧ s.control = .idle ∧ s' = s.onConnect c1) ∨
      (∃ data, e = .read data ∧ s.connected = true ∧ s.onRead data = .ok s') ∨
      (∃ after p, e = .pass after ∧ s.control = .receiving p ∧ s.receivePass after = .ok s') ∨
      (e = .hangup ∧ s' = s.close) ∨ ∃ pkt sent, e = .write pkt ∧ s' = { s with sent := sent } := by
  unfold ClientSession.step at h
  by_cases henabled : s.enabled e = true
  · rw [henabled] at h
    cases e with
    | connect c1 =>
      simp only [enabled, Bool.and_eq_true, decide_eq_true_eq] at henabled
      cases h
      exact .inr (.inl ⟨c1, rfl, henabled.1, rfl⟩)
    | read data =>
      simp only [enabled, Bool.and_eq_true, decide_eq_true_eq] at henabled
      exact .inr (.inr (.inl ⟨data, rfl, henabled.1.1.2, h⟩))
    | pass after =>
      cases hcontrol : s.control with
      | idle => simp [enabled, hcontrol] at henabled
      | receiving p => exact .inr (.inr (.inr (.inl ⟨after, p, rfl, rfl, h⟩)))
    | hangup =>
      cases h
      exact .inr (.inr (.inr (.inr (.inl ⟨rfl, rfl⟩))))
    | write pkt =>
      obtain ⟨sent, hsent⟩ := rtmpWrite_ok h
      exact .inr (.inr (.inr (.inr (.inr ⟨pkt, sent, rfl, hsent⟩))))
  · rw [Bool.not_eq_true] at henabled
    rw [henabled] at h
    cases h
    exact .inl ⟨henabled, rfl⟩

theorem Regular.step {e : Event} {s s' : ClientSession} (h : Regular s)
    (hstep : s.step e = .ok s') : Regular s' := by
  rcases step_cases hstep with ⟨-, rfl⟩ | ⟨c1, -, hidle, rfl⟩ | ⟨data, -, hconnected, hread⟩ |
    ⟨after, p, -, hcontrol, hpass⟩ | ⟨-, rfl⟩ | ⟨pkt, sent, -, rfl⟩
  · exact h
  · cases c1 with
    | none => exact regular_close s
    | some c1 => exact regular_of_idle hidle (by simp [onConnect, tryRead])
  · have hphase := h.idle hconnected
    simp only [onRead] at hread
    split at hread
    · rename_i hc0c1
      rcases handleS0s1s2_cases hread with hs' | ⟨hphase', -, -, -, hcontrol⟩
      · subst hs'
        exact regular_of_idle rfl hphase
      · exact regular_of_idle hcontrol (by simp [hphase'])
    · rename_i hresp
      cases hread
      refine ⟨?_, fun _ => hphase⟩
      intro p hcontrol
      cases hcontrol
      refine ⟨hconnected, rfl, ?_⟩
      show follows .connectResp s.clientPhase = true
      rw [show s.clientPhase = .connectResp from hresp]
      rfl
    · exact (resume_resumed hread).regular hconnected (Or.inl rfl) hphase
  · obtain ⟨hconnected, hreading, hfollows⟩ := h.busy p hcontrol
    obtain ⟨ret, s₁, hpassed, ⟨-, rfl⟩ | ⟨r, -, hend⟩⟩ := receivePass_cases hcontrol hpass
    · have hfollows' := hpassed.follows hfollows
      refine ⟨?_, ?_⟩
      · intro p' hcontrol'
        rw [hpassed.kept.control, hcontrol] at hcontrol'
        cases hcontrol'
        exact ⟨hpassed.kept.connected.trans hconnected, hpassed.kept.reading.trans hreading,
          hfollows'⟩
      · exact fun _ => ne_of_follows hfollows'
    · exact endLoop_regular (hpassed.kept.connected.trans hconnected)
        (hpassed.kept.reading.trans hreading) (hpassed.follows hfollows) hend
  · exact regular_close s
  · exact ⟨h.busy, h.idle⟩

end ClientSession

end MediaServer
