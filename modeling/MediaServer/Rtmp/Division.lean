import MediaServer.Rtmp.ChunkSizes

/-!
# Division by zero

`write_data_by_chunk_stream` divides by the chunk size of the session it writes
to.  It is called by the responses to commands and, when a packet is published,
by the writers of all players of the stream.  Nothing else in the server
divides.

`chunk_size_nonzero` puts it together: no run divides by zero in which no peer
announces the size zero.  The chunk size of a session is zero in some state of
a run exactly when its peer has announced zero.
-/

namespace MediaServer

open Run

/-! ## The decoder -/

namespace AmfDecoder

theorem avoids_peek (n : Nat) (c : Cursor) : Avoids Fault.divisionByZero (c.peek n) := by
  unfold Cursor.peek
  split_ifs
  · exact avoids_of_ne (by decide)
  · exact avoids_ok _ _

theorem avoids_decodeText (len : Nat) (c : Cursor) :
    Avoids Fault.divisionByZero (decodeText len c) :=
  (avoids_peek len c).bind fun _ _ => avoids_ok _ _

/-- The decoder does not divide. -/
theorem avoids_decode (fuel : Nat) :
    (∀ c, Avoids Fault.divisionByZero (decode fuel c)) ∧
      (∀ fields c, Avoids Fault.divisionByZero (decodeAmfObject fuel fields c)) ∧
      (∀ c, Avoids Fault.divisionByZero (decodeAmfArray fuel c)) ∧
      (∀ count items c, Avoids Fault.divisionByZero (decodeItems fuel count items c)) := by
  induction fuel with
  | zero =>
    refine ⟨fun c => ?_, fun fields c => ?_, fun c => ?_, fun count items c => ?_⟩ <;>
      exact avoids_of_ne (by decide)
  | succ fuel ih =>
    obtain ⟨hdecode, hobject, harray, hitems⟩ := ih
    refine ⟨fun c => ?_, fun fields c => ?_, fun c => ?_, fun count items c => ?_⟩
    · unfold decode
      refine (avoids_peek 1 c).bind fun _ _ => ?_
      refine avoids_ite (avoids_ok _ _) ?_
      refine avoids_ite ((avoids_peek 8 _).bind fun _ _ => avoids_ok _ _) ?_
      refine avoids_ite ((avoids_peek 1 _).bind fun _ _ => avoids_ok _ _) ?_
      refine avoids_ite ((avoids_peek 2 _).bind fun _ _ =>
        (avoids_decodeText _ _).bind fun _ _ => avoids_ok _ _) ?_
      refine avoids_ite ((hobject _ _).bind fun _ _ => avoids_ok _ _) ?_
      refine avoids_ite (avoids_ok _ _) ?_
      refine avoids_ite (avoids_ok _ _) ?_
      refine avoids_ite (avoids_of_ne (by decide)) ?_
      refine avoids_ite ((avoids_peek 4 _).bind fun _ _ =>
        (hobject _ _).bind fun _ _ => avoids_ok _ _) ?_
      refine avoids_ite ((harray _).bind fun _ _ => avoids_ok _ _) ?_
      refine avoids_ite ((avoids_peek 8 _).bind fun _ _ => avoids_ok _ _) ?_
      refine avoids_ite ((avoids_peek 4 _).bind fun _ _ =>
        (avoids_decodeText _ _).bind fun _ _ => avoids_ok _ _) ?_
      exact avoids_ite (avoids_ok _ _) (avoids_ok _ _)
    · unfold decodeAmfObject
      refine avoids_ite (avoids_ok _ _) ((avoids_peek 2 c).bind fun _ _ => ?_)
      refine avoids_ite ((avoids_peek 1 _).bind fun _ _ =>
        avoids_ite (avoids_of_ne (by decide)) (avoids_ok _ _)) ?_
      refine (avoids_decodeText _ _).bind fun _ _ => (avoids_peek 1 _).bind fun _ _ => ?_
      refine avoids_ite (avoids_ok _ _) ((hdecode _).bind fun _ _ => ?_)
      exact avoids_ite (avoids_ok _ _) (hobject _ _)
    · unfold decodeAmfArray
      exact (avoids_peek 4 c).bind fun _ _ => hitems _ _ _
    · rcases count with _ | count
      · exact avoids_ok _ _
      · exact (hdecode _).bind fun _ _ => avoids_ite (avoids_ok _ _) (hitems _ _ _)

theorem avoids_decodeAll (fuel : Nat) (items : List AmfItem) (c : Cursor) :
    Avoids Fault.divisionByZero (decodeAll fuel items c) := by
  induction fuel generalizing items c with
  | zero => exact avoids_of_ne (by decide)
  | succ fuel ih =>
    unfold decodeAll
    exact avoids_ite (((avoids_decode _).1 _).bind fun _ _ => ih _ _) (avoids_ok _ _)

end AmfDecoder

/-! ## Messages -/

namespace Session

theorem avoids_writeData {csid : UInt16} {timestamp : UInt32} {typeId : UInt8}
    {msgStreamId : UInt32} {input : Bytes} {s : Session} (hs : s.base.chunkSize ≠ 0) :
    Avoids Fault.divisionByZero (s.writeData csid timestamp typeId msgStreamId input) :=
  fun h => hs (writeData_error h)

/-- A response in several parts, each with the chunk size of the first. -/
theorem avoids_writeData_bind {α : Type} {csid : UInt16} {timestamp : UInt32} {typeId : UInt8}
    {msgStreamId : UInt32} {input : Bytes} {s : Session} {f : Session → Except Fault α}
    (hs : s.base.chunkSize ≠ 0)
    (hf : ∀ s', s'.base.chunkSize ≠ 0 → Avoids Fault.divisionByZero (f s')) :
    Avoids Fault.divisionByZero (s.writeData csid timestamp typeId msgStreamId input >>= f) := by
  refine (avoids_writeData hs).bind fun s' hs' => hf s' ?_
  rw [(sameRequest_writeData hs').base]
  exact hs

theorem avoids_sendRtmpPlayResp {s : Session} (hs : s.base.chunkSize ≠ 0) :
    Avoids Fault.divisionByZero s.sendRtmpPlayResp := by
  unfold sendRtmpPlayResp
  refine avoids_writeData_bind hs fun s₁ hs₁ => ?_
  refine avoids_writeData_bind hs₁ fun s₂ hs₂ => ?_
  refine avoids_writeData_bind hs₂ fun s₃ hs₃ => ?_
  exact avoids_writeData_bind hs₃ fun _ _ => avoids_ok _ _

/-- The answer to connect is cut by the size that it has just set. -/
theorem avoids_handleRtmpConnectCommand (items : List AmfItem) (s : Session) :
    Avoids Fault.divisionByZero (s.handleRtmpConnectCommand items) := by
  unfold handleRtmpConnectCommand
  refine avoids_ite (avoids_ok _ _) ?_
  rcases connectItems items.tail s.req with ⟨ret, req⟩
  rcases ret with _ | _ | _
  · refine avoids_writeData_bind ?_ fun _ _ => avoids_ok _ _
    show CONFIG_CHUNK_SIZE ≠ 0
    decide
  · exact avoids_ok _ _
  · exact avoids_ok _ _

theorem avoids_handleCommand {name : Bytes} {items : List AmfItem} {s : Session}
    (hs : s.base.chunkSize ≠ 0) : Avoids Fault.divisionByZero (s.handleCommand name items) := by
  unfold handleCommand
  refine avoids_ite (avoids_handleRtmpConnectCommand items s) ?_
  refine avoids_ite (avoids_ite (avoids_ok _ _) ?_) ?_
  · exact avoids_writeData_bind hs fun _ _ => avoids_ok _ _
  refine avoids_ite (avoids_ite (avoids_ok _ _) ?_) ?_
  · exact avoids_writeData_bind hs fun _ _ => avoids_ok _ _
  exact avoids_ite (avoids_ite (avoids_ok _ _) (avoids_sendRtmpPlayResp hs)) (avoids_ok _ _)

theorem avoids_handleClientCommandMessage {after : Bytes} {m : Message} {s : Session}
    (hs : s.base.chunkSize ≠ 0) :
    Avoids Fault.divisionByZero (s.handleClientCommandMessage after m) := by
  refine (AmfDecoder.avoids_decodeAll _ _ _).bind fun items _ => ?_
  rcases items with _ | ⟨item, rest⟩
  · exact avoids_ok _ _
  · cases item with
    | string name =>
      refine (avoids_handleCommand hs).bind fun _ _ => ?_
      exact avoids_ite (avoids_ite (avoids_ok _ _) (avoids_ok _ _)) (avoids_ok _ _)
    | _ => exact avoids_ok _ _

theorem avoids_getMediaPacket (after : Bytes) (m : Message) (s : Session) :
    Avoids Fault.divisionByZero (s.getMediaPacket after m) := by
  unfold getMediaPacket
  rcases m.payload with _ | ⟨p0, _ | ⟨p1, rest⟩⟩
  · exact avoids_of_ne (by decide)
  · exact avoids_of_ne (by decide)
  · refine avoids_ite ?_ (avoids_ite ?_ (avoids_ok _ _))
    · rcases videoCodec p0 with _ | codec
      · exact avoids_of_ne (by decide)
      · exact avoids_ite (avoids_ok _ _) (avoids_ite (avoids_of_ne (by decide)) (avoids_ok _ _))
    · rcases audioCodec p0 with _ | codec
      · exact avoids_of_ne (by decide)
      · exact avoids_ok _ _

theorem avoids_handleMessage {after : Bytes} {m : Message} {s : Session}
    (hs : s.base.chunkSize ≠ 0) : Avoids Fault.divisionByZero (s.handleMessage after m) := by
  have hack : (s.sendRtmpAck (UInt32.ofNat m.payload.length)).base.chunkSize ≠ 0 := by
    rw [(sameRequest_sendRtmpAck _ s).base]
    exact hs
  unfold handleMessage
  refine avoids_ite (avoids_ok _ _) ?_
  refine avoids_ite ((avoids_handleClientCommandMessage hack).bind fun _ _ => ?_) ?_
  · exact avoids_ite (avoids_ok _ _) (avoids_ok _ _)
  refine avoids_ite (avoids_ok _ _) ?_
  refine avoids_ite ((avoids_getMediaPacket after m _).bind fun _ _ => ?_) (avoids_ok _ _)
  exact avoids_ite (avoids_ok _ _) (avoids_ok _ _)

theorem avoids_receivePass {after : Bytes} {s : Session} (hs : s.base.chunkSize ≠ 0) :
    Avoids Fault.divisionByZero (s.receivePass after) := by
  unfold receivePass
  rcases hr : s.base.readChunkStream with ⟨ret, base⟩
  have hbase : base.chunkSize ≠ 0 := by
    rw [(SessionBase.readChunkStream_frame hr).1]
    exact hs
  rcases ret with _ | _ | _
  · refine avoids_ite (avoids_ok _ _) ?_
    refine Avoids.bind (avoids_handleMessage hbase) fun _ _ => ?_
    exact avoids_ite (avoids_ok _ _) (avoids_ok _ _)
  · exact avoids_ok _ _
  · exact avoids_ok _ _

end Session

/-! ## Writers -/

namespace Heap

/-- The chunk sizes of the open sessions are not zero. -/
def NonzeroSizes (h : Heap) : Prop := ∀ sid v, h.profile sid = some v → v.chunkSize ≠ 0

theorem avoids_derefWriter (p : Nat) (h : Heap) :
    Avoids Fault.divisionByZero (h.derefWriter p) := by
  unfold derefWriter
  rcases h.writers p with _ | writer
  · exact avoids_of_ne (by decide)
  · exact avoids_ite (avoids_of_ne (by decide)) (avoids_ok _ _)

theorem avoids_sessionOf (p : Nat) (h : Heap) : Avoids Fault.divisionByZero (h.sessionOf p) := by
  refine (avoids_derefWriter p h).bind fun writer _ => Avoids.bind ?_ fun _ _ => avoids_ok _ _
  unfold derefSession
  rcases h.sessions writer.session with _ | s
  · exact avoids_of_ne (by decide)
  · exact avoids_ok _ _

theorem neverFaults_rtmpWriter :
    MediaStreamManager.NeverFaults rtmpWriter .divisionByZero NonzeroSizes where
  write := by
    intro pkt p h hsizes
    refine (avoids_derefWriter p h).bind fun _ _ => ?_
    rcases packetRoute pkt with _ | ⟨csid, typeId⟩
    · exact avoids_ok _ _
    · refine (avoids_sessionOf p h).bind fun o ho => ?_
      obtain ⟨-, hs⟩ := sessionOf_ok ho
      have hsize : o.2.base.chunkSize ≠ 0 := hsizes o.1 o.2.profile (profile_eq_some hs)
      exact (Session.avoids_writeData hsize).bind fun _ _ => avoids_ok _ _
  key := (avoids_sessionOf _ _).bind fun _ _ => avoids_ok _ _
  writerid := (avoids_sessionOf _ _).bind fun _ _ => avoids_ok _ _
  inited := (avoids_derefWriter _ _).bind fun _ _ => avoids_ok _ _
  init := (avoids_derefWriter _ _).bind fun _ _ => avoids_ok _ _

end Heap

/-! ## Steps -/

namespace World

theorem avoids_close (sid : Nat) (w : World) : Avoids Fault.divisionByZero (w.close sid) := by
  unfold close
  rcases w.session sid with _ | s
  · exact avoids_ok _ _
  · refine avoids_ite ?_ (avoids_ite (avoids_ok _ _) (avoids_ok _ _))
    rcases s.playWriter with _ | p
    · exact avoids_ok _ _
    · exact Avoids.bind Heap.neverFaults_rtmpWriter.removePlayer fun _ _ => avoids_ok _ _

theorem avoids_endRead (sid : Nat) (ret : RtmpRet) (w : World) :
    Avoids Fault.divisionByZero (w.endRead sid ret) := by
  unfold endRead
  rcases ret with _ | _ | _
  · exact avoids_ok _ _
  · simp only
    rcases ({ w with control := .idle } : World).session sid with _ | s
    · exact avoids_ok _ _
    · exact avoids_ok _ _
  · exact avoids_close sid _

theorem avoids_onRead (sid : Nat) (data : Bytes) (handshake : Option Bytes) (w : World) :
    Avoids Fault.divisionByZero (w.onRead sid data handshake) := by
  unfold onRead
  rcases w.session sid with _ | s
  · exact avoids_ok _ _
  · simp only
    rcases s.serverPhase
    · refine avoids_ite (avoids_endRead _ _ _) ?_
      rcases handshake with _ | s0s1s2
      · exact avoids_endRead _ _ _
      · exact avoids_endRead _ _ _
    · exact avoids_ite (avoids_endRead _ _ _) (avoids_ite (avoids_endRead _ _ _) (avoids_ok _ _))
    all_goals exact avoids_ok _ _

theorem avoids_perform {w : World} {sid : Nat} {req : RtmpRequest} {action : Session.Action}
    (hsizes : w.heap.NonzeroSizes) (hroutable : Routable w.streams)
    (hroute : ∀ pkt, action = .publish pkt → Heap.packetRoute pkt ≠ none) :
    Avoids Fault.divisionByZero (w.perform sid req action) := by
  rcases action with _ | _ | pkt
  · exact avoids_ok _ _
  · exact Avoids.bind Heap.neverFaults_rtmpWriter.addPlayer fun _ _ => avoids_ok _ _
  · refine Avoids.bind ?_ fun _ _ => avoids_ok _ _
    refine Heap.neverFaults_rtmpWriter.writerMediaPacket Heap.tame_rtmpWriter ?_ (hroute pkt rfl)
      (hroutable.fedStream (hroute pkt rfl)) hsizes
    intro h h' hsame hh
    rw [Heap.NonzeroSizes, hsame.profile]
    exact hh

/-- The message that the event makes the server handle does not announce the
chunk size zero. -/
def AnnouncesNonzero (w : World) (e : Event) : Prop :=
  ∀ sid after m, w.incoming e = some (sid, after, m) → Session.announced m ≠ some 0

instance (w : World) (e : Event) : Decidable (w.AnnouncesNonzero e) :=
  decidable_of_iff (∀ i ∈ w.incoming e, Session.announced i.2.2 ≠ some 0)
    ⟨fun h sid after m hm => h (sid, after, m) hm, fun h i hi => h i.1 i.2.1 i.2.2 hi⟩

theorem chunkSizeAfter_ne_zero {after : Bytes} {m : Message} {c : UInt32} (hc : c ≠ 0)
    (hm : Session.announced m ≠ some 0) : Session.chunkSizeAfter after m c ≠ 0 := by
  unfold Session.chunkSizeAfter
  rcases hann : Session.announced m with _ | n
  · simp only
    split
    · decide
    · exact hc
  · rintro rfl
    exact hm hann

theorem avoids_receivePass {w : World} {after : Bytes} (hsound : w.view.Sound)
    (hsizes : w.heap.NonzeroSizes) (hcond : w.AnnouncesNonzero (.pass after)) :
    Avoids Fault.divisionByZero (w.receivePass after) := by
  unfold receivePass
  rcases hcontrol : w.control with _ | ⟨sid, afterC2⟩
  · exact avoids_ok _ _
  simp only
  rcases hs : w.session sid with _ | s
  · exact avoids_ok _ _
  have hsize : s.base.chunkSize ≠ 0 := hsizes sid s.profile (Heap.profile_eq_some hs)
  refine Avoids.bind (Session.avoids_receivePass hsize) fun r hr => ?_
  obtain ⟨m, ret, action, session⟩ := r
  have hsize' : session.base.chunkSize ≠ 0 := by
    rcases m with _ | m
    · rw [(Session.receivePass_none hr).2.2.2.1]
      exact hsize
    · have hpassed := Session.receivePass_some hr
      rw [hpassed.chunkSize]
      refine chunkSizeAfter_ne_zero hsize (hcond sid after m ?_)
      simp [incoming, hcontrol, hs, hpassed.next]
  refine Avoids.bind (avoids_perform ?_ hsound.routable ?_) fun w₂ _ => ?_
  · intro sid' v hv
    replace hv : (w.heap.setSession sid { s with toSession := session }).profile sid' = some v := hv
    rw [Heap.profile_setSession] at hv
    by_cases hsid : sid' = sid
    · rw [hsid, Function.update_self, Option.some.injEq] at hv
      rw [← hv]
      exact hsize'
    · rw [Function.update_of_ne hsid] at hv
      exact hsizes sid' v hv
  · rintro pkt rfl
    rcases m with _ | m
    · have haction := (Session.receivePass_none hr).2.1
      cases haction
    · exact ((Session.receivePass_some hr).publish pkt rfl).2.2.1
  · rcases ret with _ | ret
    · exact avoids_ok _ _
    · exact avoids_endRead _ _ _

theorem avoids_step {w : World} {e : Event} (hsound : w.view.Sound)
    (hsizes : w.heap.NonzeroSizes) (hcond : w.AnnouncesNonzero e) :
    Avoids Fault.divisionByZero (w.step e) := by
  unfold step
  refine avoids_ite (avoids_ok _ _) ?_
  cases e with
  | accept sessionKey => exact avoids_ok _ _
  | read sid data handshake => exact avoids_onRead _ _ _ _
  | pass after => exact avoids_receivePass hsound hsizes hcond
  | hangup sid => exact avoids_close _ _

/-- The sizes stay different from zero. -/
theorem nonzeroSizes_step {w w' : World} {e : Event} (hsound : w.view.Sound)
    (hsizes : w.heap.NonzeroSizes) (hcond : w.AnnouncesNonzero e) (h : w.step e = .ok w') :
    w'.heap.NonzeroSizes := by
  intro sid v' hv'
  have hstep := step_view hsound h
  rcases hstep.session_cases hv' with ⟨-, v, csMap, hv, rfl, -⟩ |
    ⟨v, after, m, hv, hincoming, hhandled, -⟩ | ⟨-, -, hfresh⟩
  · exact hsizes sid v hv
  · rw [hhandled.chunkSize]
    exact chunkSizeAfter_ne_zero (hsizes sid v hv) (hcond sid after m hincoming)
  · rw [hfresh]
    show CHUNK_DEF_SIZE ≠ 0
    decide

theorem chunkSizeOf_ne_zero {h : History} (hh : ∀ x ∈ h, Session.announced x.2 ≠ some 0) :
    h.chunkSizeOf ≠ 0 := by
  induction h using List.reverseRecOn with
  | nil => decide
  | append_singleton h x ih =>
    have hbefore := ih fun y hy => hh y (List.mem_append_left _ hy)
    rw [History.chunkSizeOf, List.foldl_append]
    exact chunkSizeAfter_ne_zero hbefore (hh x (by simp))

/-- **No division by zero.**  A run in which no message announces the chunk
size zero does not end in a division by zero.  In a run that goes on, the chunk
sizes of all sessions differ from zero in all states exactly when none of the
messages that were handled announced zero. -/
theorem chunk_size_nonzero (events : List Event) :
    (Run.Along step (fun e w => w.AnnouncesNonzero e) events {} →
      Run.run step events {} ≠ .error .divisionByZero) ∧
    ∀ w, Run.run step events {} = .ok w →
      ((∀ pre w' sid s, pre <+: events → Run.run step pre {} = .ok w' →
          w'.session sid = some s → s.base.chunkSize ≠ 0) ↔
        ∀ sid, ∀ x ∈ history sid w.log, Session.announced x.2 ≠ some 0) := by
  constructor
  · intro halong
    refine @Run.run_avoids World Fault Event step (fun e w => w.AnnouncesNonzero e)
      (fun w => w.view.Sound ∧ w.heap.NonzeroSizes) .divisionByZero ?_ ?_ events {} ?_ halong
    · rintro e w w' ⟨hsound, hsizes⟩ hcond hstep
      exact ⟨hsound.step (step_view hsound hstep), nonzeroSizes_step hsound hsizes hcond hstep⟩
    · rintro e w ⟨hsound, hsizes⟩ hcond
      exact avoids_step hsound hsizes hcond
    · refine ⟨View.sound_init, ?_⟩
      intro sid v hv
      cases hv
  · intro w hrun
    constructor
    · intro hall sid
      refine run_history_induction
        (fun w' => ∀ s, w'.session sid = some s → s.base.chunkSize ≠ 0) ?_ hrun
        (fun pre w' hpre hrun' s hs => hall pre w' sid s hpre hrun' hs)
      intro pre w₁ w₂ after m _ _ _ hsize hstep
      rcases hstep.handled with hrefused | ⟨v, v', -, hv', hhandled⟩
      · have hchanges := hrefused.changes
        simp only [Session.changes, Bool.or_eq_false_iff, Option.isSome_eq_false_iff,
          Option.isNone_iff_eq_none] at hchanges
        simp [hchanges.2]
      · obtain ⟨s₂, hs₂, rfl⟩ := Option.map_eq_some_iff.mp hv'
        intro hzero
        have hsize₂ : s₂.base.chunkSize = 0 := by
          have heq := hhandled.chunkSize
          rw [Session.chunkSizeAfter, hzero] at heq
          exact heq
        exact hsize s₂ hs₂ hsize₂
    · intro hnonzero pre w' sid s hpre hrun' hs
      have hlog := run_history_grows hpre hrun' hrun sid
      have hv : w'.view.profile sid = some s.profile := Heap.profile_eq_some hs
      have hsize : s.base.chunkSize = (history sid w'.log).chunkSizeOf :=
        ((run_told hrun').2 sid s.profile hv).1
      rw [hsize]
      exact chunkSizeOf_ne_zero fun x hx => hnonzero sid x (hlog.subset hx)

/-- The size that an observation announces. -/
def announcedIn : Obs → Option UInt32
  | .received _ _ m => Session.announced m
  | .played _ _ | .published _ _ _ | .closed _ => none

theorem announced_mem {sid : Nat} {log : List Obs} {x : Bytes × Message}
    (h : x ∈ history sid log) : Session.announced x.2 ∈ log.map announcedIn := by
  obtain ⟨o, ho, hx⟩ := List.mem_filterMap.mp h
  cases o with
  | received sid' after m =>
    simp only [Option.ite_none_right_eq_some, Option.some.injEq] at hx
    rw [← hx.2]
    exact List.mem_map_of_mem ho
  | played _ _ | published _ _ _ | closed _ => cases hx

/-- A client announces the size 4096, which is repeated, and sends a command that is answered. -/
def announcingClient : List Event :=
  Client.arrive 0 [] ++ Client.send 0 2
    (Client.message 2 1 [0, 0, 16, 0] ++ Client.command 2 "createStream" [0x05])

theorem chunk_size_nonzero_announced :
    Run.run step announcingClient {} ≠ .error .divisionByZero ∧
      ∃ w s, Run.run step announcingClient {} = .ok w ∧
        w.log.map announcedIn = [some 4096, none] ∧ w.session 0 = some s ∧
        s.sent.length = 3 ∧ s.base.chunkSize ≠ 0 := by
  have halong : Run.Along step (fun e w => w.AnnouncesNonzero e) announcingClient {} := by
    decide +kernel
  obtain ⟨w, hrun, hf⟩ := Run.exists_of_map_toOption
    (f := fun w : World => (w.log.map announcedIn, (w.session 0).map (·.sent.length)))
    (b := ([some 4096, none], some 3)) (x := Run.run step announcingClient {})
    (by decide +kernel)
  rw [Prod.mk.injEq, Option.map_eq_some_iff] at hf
  obtain ⟨hlog, s, hs, hsent⟩ := hf
  refine ⟨(chunk_size_nonzero _).1 halong, w, s, hrun, hlog, hs, hsent, ?_⟩
  refine ((chunk_size_nonzero _).2 w hrun).mpr ?_ _ w 0 s (List.prefix_refl _) hrun hs
  intro sid x hx hzero
  have hmem := announced_mem hx
  rw [hlog, hzero] at hmem
  revert hmem
  decide

/-- A client announces the size zero and sends a command that is answered. -/
theorem chunk_size_zero_announced :
    Run.run step (Client.arrive 0 [] ++ Client.send 0 2
      (Client.message 2 1 [0, 0, 0, 0] ++ Client.command 2 "createStream" [0x05])) {} =
        .error .divisionByZero :=
  Run.eq_error_of_fault (by decide +kernel)

end World

end MediaServer
