import MediaServer.Rtmp.History

/-!
# A server session keeps reading

`on_read` asks for more data when `handle_request` returns
`RTMP_NEED_READ_MORE`, closes the session when it returns an error, and does
nothing when it returns `RTMP_OK`.  So everything depends on the code of the
last message in the buffer.  `Session.handledOk` says which messages are
handled with `RTMP_OK`, and `Session.endsOk` that the next pass of the loop is
its last one and ends with that code.

The callbacks of the later phases turn `RTMP_OK` into `RTMP_NEED_READ_MORE`.
The callback of the handshake, whose last bytes may be followed by messages,
does not, and `World.stops` is the step that leaves its session without a
read.
-/

namespace MediaServer

namespace Session

/-! ## The code of a message -/

/-- The command is one that is refused. -/
def refusedCommand (name : Bytes) (items : List AmfItem) : Bool :=
  if name = ascii "connect" then
    decide (items.length < 3) || decide ((connectItems items.tail {}).1 ≠ .ok)
  else
    decide (items.length < 3) &&
      (name = ascii "createStream" || name = ascii "publish" || name = ascii "play")

/-- The message is refused, which closes its session. -/
def refused (after : Bytes) (m : Message) : Bool :=
  if 1 ≤ m.typeId ∧ m.typeId ≤ 6 then controlRefused m
  else if m.typeId = 20 then
    match command after m with
    | some (name, items) => refusedCommand name items
    | none => true
  else if m.typeId = 17 then true
  else isMedia m.typeId && !carriesPacket after m

/-- The session plays after the message. -/
def playsAfter (after : Bytes) (m : Message) (req : RtmpRequest) : Bool :=
  match accepted after m with
  | some (publish, _) => !publish
  | none => req.inPlay

/-- The message is handled with `RTMP_OK`.  A command is so only when the
session plays. -/
def handledOk (after : Bytes) (m : Message) (req : RtmpRequest) : Bool :=
  !refused after m && (m.typeId ≠ 20 || playsAfter after m req)

theorem handleRtmpConnectCommand_ok_iff {items : List AmfItem} {s s' : Session} {ret : RtmpRet}
    (h : s.handleRtmpConnectCommand items = .ok (ret, s')) :
    ret = .ok ↔ refusedCommand (ascii "connect") items = false := by
  have hfst := connectItems_fst items.tail s.req {}
  unfold handleRtmpConnectCommand at h
  split_ifs at h with hlen
  · cases h
    simp [refusedCommand, hlen]
  · rcases hi : connectItems items.tail s.req with ⟨ret₁, req⟩
    rw [hi] at hfst h
    replace hfst : ret₁ = (connectItems items.tail {}).1 := hfst
    have hrefused : refusedCommand (ascii "connect") items = decide (ret₁ ≠ .ok) := by
      simp [refusedCommand, hlen, hfst]
    rw [hrefused]
    cases ret₁ with
    | ok => simp [(sendRtmpConnectResp_ok h).1]
    | needReadMore =>
      cases h
      simp
    | error =>
      cases h
      simp

/-- A command other than connect is refused when it is too short. -/
theorem refusedCommand_eq {name : Bytes} {items : List AmfItem} (hconnect : name ≠ ascii "connect")
    (hname : name = ascii "createStream" ∨ name = ascii "publish" ∨ name = ascii "play") :
    refusedCommand name items = decide (items.length < 3) := by
  rw [refusedCommand, if_neg hconnect]
  rcases hname with h | h | h
  · simp [h]
  · simp [h]
  · simp [h]

theorem handleCommand_ok_iff {name : Bytes} {items : List AmfItem} {s s' : Session}
    {ret : RtmpRet} (h : s.handleCommand name items = .ok (ret, s')) :
    ret = .ok ↔ refusedCommand name items = false := by
  unfold handleCommand at h
  split_ifs at h with hconnect hcreate hpublish hplay
  · rw [hconnect]
    exact handleRtmpConnectCommand_ok_iff h
  · rw [refusedCommand_eq hconnect (Or.inl hcreate)]
    unfold handleRtmpCreatestreamCommand at h
    split_ifs at h with hlen
    · cases h
      simp [hlen]
    · simp [hlen, (sendRtmpCreateStreamResp_ok h).1]
  · rw [refusedCommand_eq hconnect (Or.inr (Or.inl hpublish))]
    unfold handleRtmpPublishCommand at h
    split_ifs at h with hlen
    · cases h
      simp [hlen]
    · simp [hlen, (sendRtmpPublishResp_ok h).1]
  · rw [refusedCommand_eq hconnect (Or.inr (Or.inr hplay))]
    unfold handleRtmpPlayCommand at h
    split_ifs at h with hlen
    · cases h
      simp [hlen]
    · simp [hlen, (sendRtmpPlayResp_ok h).1]
  · cases h
    simp [refusedCommand, hconnect, hcreate, hpublish, hplay]

/-- The mode after a message. -/
theorem Effect.inPlay {after : Bytes} {m : Message} {s s' : Session} (h : Effect after m s s') :
    s'.req.inPlay = playsAfter after m s.req := by
  rcases hacc : Session.accepted after m with _ | ⟨publish, items⟩
  · have hmode := h.other hacc
    simp [playsAfter, hacc, RtmpRequest.inPlay, hmode.isReady, hmode.publishFlag]
  · simp [playsAfter, hacc, RtmpRequest.inPlay, h.accepted publish items hacc, acceptRequest]

theorem handleClientCommandMessage_ok_iff {after : Bytes} {m : Message} {s s' : Session}
    {ret : RtmpRet} (htype : m.typeId = 20)
    (h : s.handleClientCommandMessage after m = .ok (ret, s')) :
    ret = .ok ↔ handledOk after m s.req = true := by
  have heffect := (handleClientCommandMessage_effect htype h).1
  have hrefused : refused after m = match command after m with
      | some (name, items) => refusedCommand name items
      | none => true := by
    rw [refused, if_neg (by rw [htype]; decide), if_pos htype]
  obtain ⟨items, hitems, h⟩ := Run.exists_of_bind_ok h
  rcases items with _ | ⟨item, rest⟩
  · cases h
    have hcmd : command after m = none := by simp [command, htype, hitems]
    simp [handledOk, hrefused, hcmd]
  · cases item with
    | string name =>
      have hcmd : command after m = some (name, .string name :: rest) := by
        simp [command, htype, hitems]
      obtain ⟨⟨ret₁, s₁⟩, h₁, h⟩ := Run.exists_of_bind_ok h
      have hret := handleCommand_ok_iff h₁
      simp only at h
      split_ifs at h with hok hplay
      · cases h
        have hplays : playsAfter after m s.req = true := heffect.inPlay ▸ hplay
        simp [handledOk, hrefused, hcmd, hret.mp hok, hplays]
      · cases h
        have hplays : playsAfter after m s.req = false := by
          rw [← heffect.inPlay]
          simpa [RtmpRequest.inPlay] using hplay
        simp [handledOk, htype, hplays]
      · cases h
        have hyes : refusedCommand name (.string name :: rest) = true := by
          simpa using mt hret.mpr hok
        simp [handledOk, hrefused, hcmd, hyes, hok]
    | _ =>
      cases h
      have hcmd : command after m = none := by simp [command, htype, hitems]
      simp [handledOk, hrefused, hcmd]

/-- The code of a message. -/
theorem handleMessage_ok_iff {after : Bytes} {m : Message} {s s' : Session} {ret : RtmpRet}
    {action : Action} (h : s.handleMessage after m = .ok (ret, action, s')) :
    ret = .ok ↔ handledOk after m s.req = true := by
  have hack := sameRequest_sendRtmpAck (UInt32.ofNat m.payload.length) s
  unfold handleMessage at h
  generalize s.sendRtmpAck (UInt32.ofNat m.payload.length) = t at h hack
  rw [← hack.req]
  split_ifs at h with hctrl hcmd hamf3 hmedia
  · have htype := typeId_ne_of_control hctrl
    have hret := handleRtmpControlMessage_fst m t
    rcases hr : t.handleRtmpControlMessage m with ⟨ret₁, s₁⟩
    rw [hr] at hret
    replace hret : ret₁ = if controlRefused m then .error else .ok := hret
    simp only [hr] at h
    cases h
    have hother : handledOk after m t.req = !controlRefused m := by
      simp [handledOk, htype, refused, hctrl]
    rw [hret, hother]
    rcases controlRefused m with _ | _
    · simp
    · simp
  · obtain ⟨⟨ret₁, s₁⟩, h₁, h⟩ := Run.exists_of_bind_ok h
    have hret := handleClientCommandMessage_ok_iff hcmd h₁
    simp only at h
    split_ifs at h with herr
    · cases h
      rw [← hret, herr]
    · cases h
      exact hret
    · cases h
      exact hret
  · cases h
    simp [handledOk, refused, hamf3]
  · obtain ⟨pkt, hpkt, h⟩ := Run.exists_of_bind_ok h
    have hrefused : refused after m = !carriesPacket after m := by
      simp [refused, hctrl, hcmd, hamf3, hmedia]
    split_ifs at h with hempty
    · cases h
      have hno := not_carriesPacket_of_empty hpkt hempty
      simp [handledOk, hrefused, hno]
    · cases h
      have hne : pkt.buffer ≠ [] := fun heq => hempty (by simp [heq])
      obtain ⟨-, -, hcarries⟩ := getMediaPacket_ok hmedia hpkt hne
      simp [handledOk, hrefused, hcarries, hcmd]
  · cases h
    simp [handledOk, refused, hctrl, hcmd, hamf3, hmedia]

/-! ## The last pass -/

/-- The next pass is the last one of its loop, which ends with `RTMP_OK`. -/
def endsOk (after : Bytes) (s : Session) : Bool :=
  match s.base.nextMessage with
  | some m => s.base.readChunkStream.2.recvBuffer.isEmpty && handledOk after m s.req
  | none => false

/-- The buffer of a session is what the parser has left of it. -/
theorem handleMessage_recvBuffer {after : Bytes} {m : Message} {s s' : Session} {ret : RtmpRet}
    {action : Action} (h : s.handleMessage after m = .ok (ret, action, s')) :
    s'.base.recvBuffer = s.base.recvBuffer ∧ s'.base.fmtReady = s.base.fmtReady := by
  rw [(handleMessage_spec h).1.base]
  exact ⟨rfl, rfl⟩

/-- **How a pass ends.**  Either the loop goes on with less to read, or it ends
with the code that `endsOk` tells. -/
theorem receivePass_ret {after : Bytes} {s s' : Session} {m : Option Message}
    {ret : Option RtmpRet} {action : Action}
    (h : s.receivePass after = .ok (m, ret, action, s')) :
    (ret = some .ok ↔ s.endsOk after = true) ∧
      (ret = none → s'.base.pending < s.base.pending) := by
  unfold receivePass at h
  rcases hr : s.base.readChunkStream with ⟨r, base⟩
  rw [hr] at h
  unfold endsOk
  rw [SessionBase.nextMessage, hr]
  cases r with
  | ok =>
    obtain ⟨hready, hlt⟩ := SessionBase.readChunkStream_ok hr
    have hpending : ∀ {t : Session}, t.base.recvBuffer = base.recvBuffer →
        t.base.fmtReady = base.fmtReady → t.base.pending < s.base.pending := by
      intro t hbuffer hfmt
      rw [SessionBase.pending, hbuffer, hfmt, hready]
      exact hlt
    by_cases hmsg : base.currentStream.isReady = true
    · simp only [hmsg, Bool.not_true, Bool.false_eq_true, if_false] at h
      simp only [hmsg, if_true]
      obtain ⟨⟨ret₁, action₁, s₁⟩, hhandle, h⟩ := Run.exists_of_bind_ok h
      obtain ⟨hbuffer, hfmt⟩ := handleMessage_recvBuffer hhandle
      have hret := handleMessage_ok_iff hhandle
      have hreset : s₁.resetStream.base.recvBuffer = base.recvBuffer := hbuffer
      simp only [hreset] at h
      split_ifs at h with herr hmore
      · cases h
        have hno := mt hret.mpr (by simp [herr])
        simp [hno]
      · cases h
        have hne : base.recvBuffer ≠ [] := List.length_pos_iff.mp hmore
        simp only [List.isEmpty_eq_false_iff.mpr hne, Bool.false_and]
        exact ⟨by simp, fun _ => hpending hreset hfmt⟩
      · cases h
        have hempty : base.recvBuffer = [] := by simpa using hmore
        simp only [hempty, List.isEmpty_nil, Bool.true_and, Option.some.injEq]
        exact ⟨hret, by simp⟩
    · simp only [hmsg, Bool.not_false, if_true] at h
      simp only [hmsg, Bool.false_eq_true, if_false]
      cases h
      refine ⟨by split_ifs <;> simp, fun _ => hpending rfl rfl⟩
  | needReadMore =>
    cases h
    simp
  | error =>
    cases h
    simp

end Session

/-! ## Who reads -/

/-- What matters of a session here: whether a read is outstanding, and how much
its parser has to read. -/
def ServerSession.reader (s : ServerSession) : Bool × Nat := (s.reading, s.base.pending)

namespace Heap

/-- The readers of the sessions. -/
def readers (h : Heap) (sid : Nat) : Option (Bool × Nat) :=
  (h.sessions sid).map ServerSession.reader

@[simp] theorem readers_setSession (sid : Nat) (s : ServerSession) (h : Heap) :
    (h.setSession sid s).readers = Function.update h.readers sid (some s.reader) := by
  funext sid'
  by_cases hsid : sid' = sid
  · simp [readers, setSession, hsid]
  · simp [readers, setSession, hsid]

@[simp] theorem readers_setWriter (p : Nat) (writer : RtmpWriter) (h : Heap) :
    (h.setWriter p writer).readers = h.readers := rfl

@[simp] theorem readers_deleteWriter (p : Nat) (h : Heap) :
    (h.deleteWriter p).readers = h.readers := by
  unfold deleteWriter
  rcases h.writers p with _ | writer
  · rfl
  · rfl

theorem readers_erase (sid : Nat) (h : Heap) :
    ({ h with sessions := Function.update h.sessions sid none } : Heap).readers =
      Function.update h.readers sid none := by
  funext sid'
  by_cases hsid : sid' = sid
  · simp [readers, hsid]
  · simp [readers, hsid]

theorem readers_eq_some {h : Heap} {sid : Nat} {s : ServerSession}
    (hs : h.sessions sid = some s) : h.readers sid = some s.reader := by
  rw [readers, hs, Option.map_some]

theorem readers_eq_none {h : Heap} {sid : Nat} (hs : h.sessions sid = none) :
    h.readers sid = none := by
  rw [readers, hs, Option.map_none]

/-- A session changes in what it has sent. -/
theorem readers_setSession_of_eq {h : Heap} {sid : Nat} {s s' : ServerSession}
    (hs : h.sessions sid = some s) (hp : s'.reader = s.reader) :
    (h.setSession sid s').readers = h.readers := by
  rw [readers_setSession, hp]
  exact Function.update_eq_self_iff.mpr (readers_eq_some hs).symm

/-- A packet that is sent to the players leaves the readers alone. -/
theorem tame_readers : MediaStreamManager.Tame rtmpWriter (fun pkt => packetRoute pkt ≠ none)
    (fun h h' => h'.readers = h.readers) where
  refl _ := rfl
  trans h h' := h'.trans h
  write := by
    intro pkt p h ret h' hroute hw
    obtain ⟨rfl, csid, typeId, sid, s, session, hs, hdata, rfl⟩ := writePacket_ok hroute hw
    obtain ⟨sent, rfl⟩ := Session.writeData_ok hdata
    exact ⟨Int.le_refl 0, readers_setSession_of_eq hs rfl⟩
  init := by
    intro flag p h h' hi
    obtain ⟨writer, -, hi⟩ := Run.exists_of_bind_ok hi
    cases hi
    rfl

end Heap

namespace World

/-- The readers of the sessions. -/
def readers (w : World) : Nat → Option (Bool × Nat) := w.heap.readers

theorem close_readers {w w' : World} {sid : Nat} (h : w.close sid = .ok w') :
    w'.control = w.control ∧ w'.readers = Function.update w.readers sid none := by
  unfold close at h
  rcases hs : w.session sid with _ | s
  · rw [hs] at h
    cases h
    have hnone : w.readers sid = none := Heap.readers_eq_none hs
    exact ⟨rfl, (Function.update_eq_self_iff.mpr hnone.symm).symm⟩
  · simp only [hs] at h
    -- whatever is done to the streams, the session is dropped
    have hdestroy : ∀ w₁ : World, w₁.control = w.control → w₁.readers = w.readers →
        (w₁.destroy sid).control = w.control ∧
          (w₁.destroy sid).readers = Function.update w.readers sid none := by
      intro w₁ hcontrol hreaders
      rw [← hreaders]
      exact ⟨hcontrol, Heap.readers_erase sid w₁.heap⟩
    split_ifs at h with hplay hkey
    · rcases hp : s.playWriter with _ | p
      · simp only [hp] at h
        cases h
        exact hdestroy w rfl rfl
      · simp only [hp] at h
        obtain ⟨streams, -, h⟩ := Run.exists_of_bind_ok h
        cases h
        exact hdestroy _ rfl (Heap.readers_deleteWriter p w.heap)
    · cases h
      exact hdestroy _ rfl rfl
    · cases h
      exact hdestroy w rfl rfl

/-- What the end of a callback makes of its session. -/
def afterRead : RtmpRet → Option (Bool × Nat) → Option (Bool × Nat)
  | .error, _ => none
  | .needReadMore, r => r.map fun r => (true, r.2)
  | .ok, r => r

theorem endRead_readers {w w' : World} {sid : Nat} {ret : RtmpRet}
    (h : w.endRead sid ret = .ok w') :
    w'.control = .idle ∧
      w'.readers = Function.update w.readers sid (afterRead ret (w.readers sid)) := by
  unfold endRead at h
  cases ret with
  | ok =>
    cases h
    exact ⟨rfl, (Function.update_eq_self sid w.readers).symm⟩
  | needReadMore =>
    simp only at h
    rcases hs : ({ w with control := .idle } : World).session sid with _ | s
    · rw [hs] at h
      cases h
      have hnone : w.readers sid = none := Heap.readers_eq_none hs
      refine ⟨rfl, (Function.update_eq_self_iff.mpr ?_).symm⟩
      show afterRead .needReadMore (w.readers sid) = w.readers sid
      rw [hnone]
      rfl
    · rw [hs] at h
      cases h
      have hsome : w.readers sid = some s.reader := Heap.readers_eq_some hs
      refine ⟨rfl, ?_⟩
      rw [hsome]
      exact Heap.readers_setSession sid _ w.heap
  | error => exact close_readers h

theorem perform_readers {w w' : World} {sid : Nat} {req : RtmpRequest} {action : Session.Action}
    (hroutable : Routable w.streams)
    (hroute : ∀ pkt, action = .publish pkt → Heap.packetRoute pkt ≠ none)
    (h : w.perform sid req action = .ok w') :
    w'.control = w.control ∧ w'.readers = w.readers := by
  cases action with
  | none =>
    cases h
    exact ⟨rfl, rfl⟩
  | play =>
    unfold perform at h
    simp only at h
    obtain ⟨streams, -, h⟩ := Run.exists_of_bind_ok h
    cases h
    refine ⟨rfl, ?_⟩
    unfold readers
    split
    · rename_i s hs
      exact Heap.readers_setSession_of_eq hs rfl
    · rfl
  | publish pkt =>
    obtain ⟨⟨heap, streams⟩, hwrite, h⟩ := Run.exists_of_bind_ok h
    obtain ⟨hsame, -⟩ := Heap.tame_readers.writerMediaPacket (hroute pkt rfl)
      (hroutable.fedStream (hroute pkt rfl)) hwrite
    cases h
    exact ⟨rfl, hsame⟩

/-! ## The steps -/

/-- The pass ends the callback of the handshake with `RTMP_OK`. -/
def stops (w : World) : Event → Bool
  | .pass after =>
    match w.control with
    | .receiving sid true => (w.session sid).any fun s => s.endsOk after
    | _ => false
  | _ => false

/-- Every open session waits for data, or its callback is in progress. -/
def Reads (w : World) : Prop :=
  ∀ sid s, w.session sid = some s → s.reading = true ∨ ∃ afterC2, w.control = .receiving sid afterC2

/-- The callback in progress is that of an open session, which does not wait
for data. -/
def Busy (w : World) : Prop :=
  ∀ sid afterC2, w.control = .receiving sid afterC2 → ∃ n, w.readers sid = some (false, n)

/-- What a pass does for the session `sid` of its callback. -/
inductive Passes (sid : Nat) (w w' : World) : Bool → Prop where
  | goOn {n n' : Nat} (hcontrol : w'.control = w.control) (hbefore : w.readers sid = some (false, n))
      (hless : n' < n) (hreaders : w'.readers = Function.update w.readers sid (some (false, n'))) :
      Passes sid w w' false
  | finish {r : Option (Bool × Nat)} (hcontrol : w'.control = .idle) (hr : ∀ n, r ≠ some (false, n))
      (hreaders : w'.readers = Function.update w.readers sid r) : Passes sid w w' false
  | stop {n : Nat} (hcontrol : w'.control = .idle)
      (hreaders : w'.readers = Function.update w.readers sid (some (false, n))) :
      Passes sid w w' true

theorem readers_setSession (sid : Nat) (s : ServerSession) (w : World) :
    (w.setSession sid s).readers = Function.update w.readers sid (some s.reader) :=
  Heap.readers_setSession sid s w.heap

/-- A session whose read has ended otherwise than with `RTMP_OK` is closed or
reads again. -/
theorem afterRead_ne {ret : RtmpRet} (hret : ret ≠ .ok) (r : Option (Bool × Nat)) (n : Nat) :
    afterRead ret r ≠ some (false, n) := by
  cases ret with
  | ok => exact absurd rfl hret
  | needReadMore =>
    cases r with
    | none => simp [afterRead]
    | some r => simp [afterRead]
  | error => simp [afterRead]

theorem receivePass_passes {w w' : World} {after : Bytes} {sid : Nat} {afterC2 : Bool}
    (hsound : w.view.Sound) (hbusy : w.Busy) (hcontrol : w.control = .receiving sid afterC2)
    (h : w.receivePass after = .ok w') : Passes sid w w' (w.stops (.pass after)) := by
  obtain ⟨n, hn⟩ := hbusy sid afterC2 hcontrol
  obtain ⟨s, hs, hreader⟩ := Option.map_eq_some_iff.mp hn
  replace hs : w.session sid = some s := hs
  simp only [ServerSession.reader, Prod.mk.injEq] at hreader
  obtain ⟨hreading, hpending⟩ := hreader
  have hstops : w.stops (.pass after) = (afterC2 && s.endsOk after) := by
    unfold stops
    rw [hcontrol]
    cases afterC2 with
    | false => rfl
    | true => simp [hs]
  unfold receivePass at h
  simp only [hcontrol, hs] at h
  obtain ⟨⟨m, ret, action, session⟩, hpass, h⟩ := Run.exists_of_bind_ok h
  obtain ⟨w₂, hperform, h⟩ := Run.exists_of_bind_ok h
  obtain ⟨hret, hless⟩ := Session.receivePass_ret hpass
  -- the world when the message has been handled
  have hroute : ∀ pkt, action = .publish pkt → Heap.packetRoute pkt ≠ none := by
    intro pkt hpkt
    cases m with
    | none =>
      rw [(Session.receivePass_none hpass).2.1] at hpkt
      cases hpkt
    | some m => exact ((Session.receivePass_some hpass).publish pkt hpkt).2.2.1
  obtain ⟨hcontrol₂, hreaders₂⟩ := perform_readers (by exact hsound.routable) hroute hperform
  replace hcontrol₂ : w₂.control = w.control := hcontrol₂
  replace hreaders₂ : w₂.readers =
      Function.update w.readers sid (some (false, session.base.pending)) := by
    rw [hreaders₂, ← hreading]
    exact readers_setSession sid { s with toSession := session } w
  cases ret with
  | none =>
    cases h
    have hgoes : s.endsOk after = false := by simpa using mt hret.mpr (by simp)
    rw [hstops, hgoes, Bool.and_false]
    exact .goOn hcontrol₂ hn (hpending ▸ hless rfl) hreaders₂
  | some ret =>
    obtain ⟨hcontrol', hreaders'⟩ := endRead_readers h
    rw [hreaders₂, Function.update_self, Function.update_idem] at hreaders'
    rw [Option.some.injEq] at hret
    by_cases hok : ret = .ok
    · subst hok
      rw [hstops, hret.mp rfl]
      cases afterC2 with
      | true => exact .stop hcontrol' hreaders'
      | false => exact .finish hcontrol' (afterRead_ne (by simp) _) hreaders'
    · have hends : s.endsOk after = false := by simpa using mt hret.mpr hok
      rw [hstops, hends, Bool.and_false]
      refine .finish hcontrol' (afterRead_ne ?_ _) hreaders'
      simp [hok]

/-- What a step does to the readers.  The flag says that it is one of
`stops`. -/
inductive ReadStep (w w' : World) : Bool → Prop where
  | stay (hcontrol : w'.control = w.control) (hreaders : w'.readers = w.readers) :
      ReadStep w w' false
  | settle {sid : Nat} {r : Option (Bool × Nat)} (hidle : w.control = .idle)
      (hcontrol : w'.control = .idle) (hr : ∀ n, r ≠ some (false, n))
      (hreaders : w'.readers = Function.update w.readers sid r) : ReadStep w w' false
  | begins {sid n : Nat} {afterC2 : Bool} (hidle : w.control = .idle)
      (hcontrol : w'.control = .receiving sid afterC2)
      (hreaders : w'.readers = Function.update w.readers sid (some (false, n))) :
      ReadStep w w' false
  | pass {sid : Nat} {afterC2 b : Bool} (hcontrol : w.control = .receiving sid afterC2)
      (hpass : Passes sid w w' b) : ReadStep w w' b

theorem onRead_readStep {w w' : World} {sid : Nat} {data : Bytes} {handshake : Option Bytes}
    (hidle : w.control = .idle) (h : w.onRead sid data handshake = .ok w') :
    ReadStep w w' false := by
  unfold onRead at h
  rcases hs : w.session sid with _ | s
  · rw [hs] at h
    cases h
    exact .stay rfl rfl
  · simp only [hs] at h
    have hend : ∀ {s' : ServerSession} {ret : RtmpRet}, ret ≠ .ok →
        (w.setSession sid s').endRead sid ret = .ok w' → ReadStep w w' false := by
      intro s' ret hret hread
      obtain ⟨hcontrol, hreaders⟩ := endRead_readers hread
      rw [readers_setSession, Function.update_idem] at hreaders
      exact .settle hidle hcontrol (afterRead_ne hret _) hreaders
    have hloop : ∀ {s' : ServerSession} {afterC2 : Bool}, s'.reading = false →
        (.ok { w.setSession sid s' with control := .receiving sid afterC2 } :
          Except Fault World) = .ok w' → ReadStep w w' false := by
      intro s' afterC2 hreading hread
      cases hread
      have hreaders := readers_setSession sid s' w
      rw [ServerSession.reader, hreading] at hreaders
      exact .begins hidle rfl hreaders
    rcases hphase : s.serverPhase <;> simp only [hphase] at h
    · split_ifs at h with hlen
      · exact hend (by simp) h
      · rcases handshake with _ | s0s1s2
        · exact hend (by simp) h
        · exact hend (by simp) h
    · split_ifs at h with hlen hempty
      · exact hend (by simp) h
      · exact hend (by simp) h
      · exact hloop rfl h
    all_goals exact hloop rfl h

theorem stops_of_disabled {w : World} {e : Event} (h : w.enabled e = false) :
    w.stops e = false := by
  cases e with
  | pass after =>
    have hidle : w.control = .idle := by simpa [enabled] using h
    simp [stops, hidle]
  | _ => rfl

theorem step_readStep {w w' : World} {e : Event} (hsound : w.view.Sound) (hbusy : w.Busy)
    (h : w.step e = .ok w') : ReadStep w w' (w.stops e) := by
  rcases step_cases h with ⟨hdisabled, rfl⟩ | ⟨sessionKey, rfl, hidle, -, rfl⟩ |
    ⟨sid, data, handshake, rfl, hidle, hread⟩ | ⟨after, sid, afterC2, rfl, hcontrol, hpass⟩ |
    ⟨sid, rfl, hidle, hclose⟩
  · rw [stops_of_disabled hdisabled]
    exact .stay rfl rfl
  · refine .settle hidle hidle ?_ (Heap.readers_setSession _ _ w.heap)
    simp [ServerSession.reader]
  · exact onRead_readStep hidle hread
  · exact .pass hcontrol (receivePass_passes hsound hbusy hcontrol hpass)
  · obtain ⟨hcontrol, hreaders⟩ := close_readers hclose
    exact .settle hidle (hcontrol.trans hidle) (by simp) hreaders

/-! ## Runs -/

theorem reads_iff (w : World) : w.Reads ↔
    ∀ sid n, w.readers sid = some (false, n) → ∃ afterC2, w.control = .receiving sid afterC2 := by
  constructor
  · intro h sid n hreader
    obtain ⟨s, hs, heq⟩ := Option.map_eq_some_iff.mp hreader
    rcases h sid s hs with hreading | hcontrol
    · rw [ServerSession.reader, hreading] at heq
      cases heq
    · exact hcontrol
  · intro h sid s hs
    rcases hreading : s.reading with _ | _
    · right
      apply h sid s.base.pending
      rw [readers, Heap.readers_eq_some hs, ServerSession.reader, hreading]
    · exact Or.inl rfl

theorem Busy.step {w w' : World} {b : Bool} (hbusy : w.Busy) (h : ReadStep w w' b) : w'.Busy := by
  intro sid' afterC2' hcontrol'
  cases h with
  | stay hcontrol hreaders =>
    rw [hcontrol] at hcontrol'
    rw [hreaders]
    exact hbusy sid' afterC2' hcontrol'
  | settle _ hcontrol =>
    rw [hcontrol] at hcontrol'
    cases hcontrol'
  | @begins sid n _ _ hcontrol hreaders =>
    rw [hcontrol] at hcontrol'
    cases hcontrol'
    exact ⟨n, by rw [hreaders, Function.update_self]⟩
  | pass hcontrol hpass =>
    cases hpass with
    | @goOn _ n' hcontrol₁ _ _ hreaders =>
      rw [hcontrol₁, hcontrol] at hcontrol'
      cases hcontrol'
      exact ⟨n', by rw [hreaders, Function.update_self]⟩
    | finish hcontrol₁ =>
      rw [hcontrol₁] at hcontrol'
      cases hcontrol'
    | stop hcontrol₁ =>
      rw [hcontrol₁] at hcontrol'
      cases hcontrol'

/-- The state of one session changes to one in which it is closed or reads. -/
theorem Reads.update {w w' : World} {sid : Nat} {r : Option (Bool × Nat)} (h : w.Reads)
    (hcontrol : ∀ sid' afterC2, w.control = .receiving sid' afterC2 → sid' = sid)
    (hr : ∀ n, r ≠ some (false, n)) (hreaders : w'.readers = Function.update w.readers sid r) :
    w'.Reads := by
  rw [reads_iff] at h ⊢
  intro sid' n hreader
  rw [hreaders] at hreader
  by_cases hsid : sid' = sid
  · rw [hsid, Function.update_self] at hreader
    exact absurd hreader (hr n)
  · rw [Function.update_of_ne hsid] at hreader
    obtain ⟨afterC2, hbusy⟩ := h sid' n hreader
    exact absurd (hcontrol sid' afterC2 hbusy) hsid

theorem Reads.step {w w' : World} (h : w.Reads) (hstep : ReadStep w w' false) : w'.Reads := by
  cases hstep with
  | stay hcontrol hreaders =>
    rw [reads_iff] at h ⊢
    rw [hcontrol, hreaders]
    exact h
  | settle hidle _ hr hreaders =>
    refine h.update ?_ hr hreaders
    rw [hidle]
    simp
  | @begins sid _ afterC2 hidle hcontrol hreaders =>
    rw [reads_iff] at h ⊢
    intro sid' n' hreader
    rw [hreaders] at hreader
    by_cases hsid : sid' = sid
    · rw [hsid]
      exact ⟨afterC2, hcontrol⟩
    · rw [Function.update_of_ne hsid] at hreader
      obtain ⟨_, hbusy⟩ := h sid' n' hreader
      rw [hidle] at hbusy
      cases hbusy
  | @pass sid afterC2 _ hcontrol hpass =>
    cases hpass with
    | @goOn _ _ hcontrol₁ _ _ hreaders =>
      rw [reads_iff] at h ⊢
      intro sid' n hreader
      rw [hreaders] at hreader
      by_cases hsid : sid' = sid
      · rw [hsid, hcontrol₁]
        exact ⟨afterC2, hcontrol⟩
      · rw [Function.update_of_ne hsid] at hreader
        rw [hcontrol₁]
        exact h sid' n hreader
    | finish _ hr hreaders =>
      refine h.update ?_ hr hreaders
      rw [hcontrol]
      simp [eq_comm]

/-- After a step of `stops` a session is open and nobody reads for it. -/
theorem not_reads_of_stops {w w' : World} (hstep : ReadStep w w' true) : ¬ w'.Reads := by
  cases hstep with
  | @pass sid _ _ _ hpass =>
    cases hpass with
    | @stop n hcontrol hreaders =>
      intro h
      rw [reads_iff] at h
      obtain ⟨_, hbusy⟩ := h sid n (by rw [hreaders, Function.update_self])
      rw [hcontrol] at hbusy
      cases hbusy

theorem run_busy {events : List Event} {w : World} (hrun : Run.run step events {} = .ok w) :
    w.view.Sound ∧ w.Busy := by
  refine @Run.run_preserves World Fault Event step (fun w => w.view.Sound ∧ w.Busy) ?_ events {} w
    ?_ hrun
  · rintro e w w' ⟨hsound, hbusy⟩ hstep
    exact ⟨hsound.step (step_view hsound hstep), hbusy.step (step_readStep hsound hbusy hstep)⟩
  · refine ⟨view_init ▸ View.sound_init, ?_⟩
    intro sid afterC2 hcontrol
    cases hcontrol

/-- How much the callback in progress has to read. -/
def toRead (w : World) : Nat :=
  match w.control with
  | .receiving sid _ => ((w.readers sid).map Prod.snd).getD 0
  | .idle => 0

/-- No pass is made when no callback is in progress. -/
theorem step_pass_idle {w w' : World} {after : Bytes} (hidle : w.control = .idle)
    (h : w.step (.pass after) = .ok w') : w' = w := by
  simp only [step, enabled, hidle] at h
  cases h
  rfl

/-- A callback returns: every pass but the last one leaves less to read. -/
theorem run_passes_return {w w' : World} {afters : List Bytes} (hsound : w.view.Sound)
    (hbusy : w.Busy) (hlen : w.toRead < afters.length)
    (hrun : Run.run step (afters.map .pass) w = .ok w') : w'.control = .idle := by
  refine @Run.run_settles World Fault Event step Bytes .pass (fun w => w.view.Sound ∧ w.Busy)
    (fun w => w.control = .idle) toRead ?_ ?_ afters w w' ⟨hsound, hbusy⟩ hlen hrun
  · intro after w w' hidle hstep
    rw [step_pass_idle hidle hstep]
    exact hidle
  · rintro after w w' ⟨hsound, hbusy⟩ hstep
    rcases hcontrol : w.control with _ | ⟨sid, afterC2⟩
    · rw [step_pass_idle hcontrol hstep]
      exact Or.inl hcontrol
    have hpass : w.receivePass after = .ok w' := by simpa [step, enabled, hcontrol] using hstep
    have hpasses := receivePass_passes hsound hbusy hcontrol hpass
    revert hpasses
    generalize w.stops (.pass after) = b
    intro hpasses
    cases hpasses with
    | @goOn n n' hcontrol₁ hbefore hless hreaders =>
      right
      have hn : w.toRead = n := by simp [toRead, hcontrol, hbefore]
      have hn' : w'.toRead = n' := by simp [toRead, hcontrol₁, hcontrol, hreaders]
      exact ⟨⟨hsound.step (step_view hsound hstep),
        hbusy.step (step_readStep hsound hbusy hstep)⟩, by omega⟩
    | finish hcontrol₁ => exact Or.inl hcontrol₁
    | stop hcontrol₁ => exact Or.inl hcontrol₁

/-- **The server keeps reading.**  Every callback returns, unless it ends in a
fault.  In all states of a run every open session waits for data or has its
callback in progress, if and only if no callback that began in the phase of
the handshake ends on a message that is handled with `RTMP_OK`. -/
theorem keeps_reading_iff {events : List Event} {w : World}
    (hrun : Run.run step events {} = .ok w) :
    (∀ (afters : List Bytes) (w' : World), w.toRead < afters.length →
      Run.run step (afters.map .pass) w = .ok w' → w'.control = .idle) ∧
    ((∀ pre w', pre <+: events → Run.run step pre {} = .ok w' → w'.Reads) ↔
      Run.Along step (fun e w => w.stops e = false) events {}) := by
  obtain ⟨hsound, hbusy⟩ := run_busy hrun
  refine ⟨fun afters w' hlen hpasses => run_passes_return hsound hbusy hlen hpasses, ?_⟩
  refine @Run.forall_prefix_iff_along World Fault Event step _ (fun w => w.view.Sound ∧ w.Busy)
    Reads ?_ ?_ events {} w ?_ ?_ hrun
  · rintro e w w' ⟨hsound, hbusy⟩ hstep
    exact ⟨hsound.step (step_view hsound hstep), hbusy.step (step_readStep hsound hbusy hstep)⟩
  · rintro e w w' ⟨hsound, hbusy⟩ hreads hstep
    have hread := step_readStep hsound hbusy hstep
    rcases hstops : w.stops e with _ | _
    · rw [hstops] at hread
      simp [hreads.step hread]
    · rw [hstops] at hread
      simp [not_reads_of_stops hread]
  · exact run_busy (Run.run_nil _)
  · intro sid s hs
    cases hs

/-- A client whose C2 comes alone is read from, message after message. -/
theorem keeps_reading_publish : ∃ w,
    Run.run step (Client.arrive 0 (ascii "a") ++ Client.send 0 1 (Client.publish "s")) {} = .ok w ∧
      ∀ pre w', pre <+: Client.arrive 0 (ascii "a") ++ Client.send 0 1 (Client.publish "s") →
        Run.run step pre {} = .ok w' → w'.Reads := by
  obtain ⟨w, hrun, -⟩ := Run.exists_of_map_toOption (b := ())
    (f := fun _ : World => ())
    (x := Run.run step (Client.arrive 0 (ascii "a") ++ Client.send 0 1 (Client.publish "s")) {})
    (by decide +kernel)
  exact ⟨w, hrun, (keeps_reading_iff hrun).2.mpr (by decide +kernel)⟩

/-- C2 comes with a SET_CHUNK_SIZE message behind it, in one read. -/
def c2AndMessage : List Event :=
  [.accept (ascii "a"), .read 0 (List.replicate 1537 0) (some []),
    .read 0 (List.replicate 1536 0 ++ Client.message 2 1 [0, 0, 0x10, 0]) none, .pass []]

/-- Then the session is open, nothing is in progress, and no read is
outstanding. -/
theorem keeps_reading_c2AndMessage : ∃ w s, Run.run step c2AndMessage {} = .ok w ∧
    w.control = .idle ∧ w.session 0 = some s ∧ s.reading = false := by
  obtain ⟨w, hrun, hw⟩ := Run.exists_of_map_toOption (b := (Control.idle, some false))
    (f := fun w : World => (w.control, (w.session 0).map (·.reading)))
    (x := Run.run step c2AndMessage {})
    (by decide +kernel)
  simp only [Prod.mk.injEq] at hw
  obtain ⟨hcontrol, hsession⟩ := hw
  obtain ⟨s, hs, hreading⟩ := Option.map_eq_some_iff.mp hsession
  exact ⟨w, s, hrun, hcontrol, hs, hreading⟩

end World

end MediaServer
