import MediaServer.Rtmp.SessionRuns

/-!
# Acknowledgements

`send_rtmp_ack` of `net/rtmp/rtmp_control_handler` counts the payload bytes that
have come since its last message in 32 bits, and sends a message when the count
is above the window of the peer.  The message carries the chunk size of the
session and not the number of bytes.

The acknowledgements of a session are read off the buffers that it has sent.
No other message of a session looks like one (`Silent`), so what a pass
acknowledges is what `send_rtmp_ack` sends in it.

`Session.acknowledges_iff` says in which runs every acknowledgement is sent when
it is due and carries the number of bytes that were received.
-/

namespace MediaServer

namespace Session

/-! ## What an acknowledgement is -/

/-- The value of an acknowledgement: a message of type 3 on chunk stream 3. -/
def ackValue (buffer : Bytes) : Option UInt32 :=
  if buffer.headD 0 = 0x03 ∧ (buffer.drop 7).headD 0 = 3 then some (read4bytes (buffer.drop 12))
  else none

/-- The values of the acknowledgements that were sent, oldest first. -/
def acks (s : Session) : List UInt32 := s.sent.filterMap ackValue

/-- The bytes of a chunk with a full header on a new chunk stream, whose id `b` is. -/
theorem genData_full {cs : ChunkStream} {b : UInt8} (hempty : cs.chunkAll = []) (hfmt : cs.fmt = 0)
    (hcsid : cs.csid < 64 ∧ (cs.csid &&& 0x3f).toUInt8 = b) (data : Bytes) :
    (cs.genData data).2.chunkAll = b :: (write3bytes cs.timestamp32 ++ write3bytes cs.msgLen ++
      [cs.typeId] ++ write4bytes cs.msgStreamId ++ data) := by
  simp [ChunkStream.genData, ChunkStream.genBasicHeader, ChunkStream.genMessageHeader, hcsid,
    hempty, hfmt, DataBuffer.appendData]

theorem csid_three : (3 : UInt16) < 64 ∧ ((3 : UInt16) &&& 0x3f).toUInt8 = 3 := by decide

/-- The bytes of a control message. -/
theorem genControlMessage_eq (ctrlType : UInt8) (size : Nat) (value chunkSize : UInt32) :
    genControlMessage ctrlType size value chunkSize =
      0x03 :: (write3bytes 0 ++ write3bytes (UInt32.ofNat size) ++ [ctrlType] ++ write4bytes 0 ++
        controlData size value) := by
  rw [genControlMessage, genData_full rfl rfl csid_three]
  rfl

theorem ackValue_ack (value chunkSize : UInt32) :
    ackValue (genControlMessage 3 4 value chunkSize) = some value := by
  have hvalue := read4bytes_write4bytes value []
  rw [List.append_nil] at hvalue
  rw [genControlMessage_eq]
  show some (read4bytes (write4bytes value)) = some value
  rw [hvalue]

/-- Control messages of other types are no acknowledgements. -/
theorem ackValue_control {ctrlType : UInt8} (h : ctrlType ≠ 3) (size : Nat)
    (value chunkSize : UInt32) :
    ackValue (genControlMessage ctrlType size value chunkSize) = none := by
  rw [genControlMessage_eq, ackValue]
  exact if_neg fun hack => h hack.2

theorem ackValue_userControl (event : UInt8) (chunkSize : UInt32) :
    ackValue (genUserControl event chunkSize) = none := by
  have hcsid : (2 : UInt16) < 64 ∧ ((2 : UInt16) &&& 0x3f).toUInt8 = 2 := by decide
  rw [genUserControl, genData_full rfl rfl hcsid]
  rfl

/-- A chunk of a command is no acknowledgement: the first one is of type 20, and the
others have no type. -/
theorem ackValue_command (timestamp msgStreamId chunkSize : UInt32) (input : Bytes) (index : Nat) :
    ackValue (writeChunk 3 timestamp 20 msgStreamId chunkSize input index) = none := by
  by_cases hfirst : index = 0
  · subst hfirst
    rw [writeChunk, genData_full rfl rfl csid_three]
    simp [ackValue, write3bytes, BigEndian.digits]
  · have hbyte : (3 : UInt8) <<< 6 ||| 3 &&& 63 ≠ 3 := by decide
    simp [writeChunk, hfirst, ChunkStream.genData, ChunkStream.genBasicHeader, ChunkStream.new,
      csid_three, ackValue, hbyte, DataBuffer.appendData]

/-! ## Everything else is silent -/

/-- Nothing is acknowledged between `s` and `s'`, and the count stays. -/
structure Silent (s s' : Session) : Prop where
  acks : s'.acks = s.acks
  ackReceived : s'.ackReceived = s.ackReceived

theorem Silent.refl (s : Session) : Silent s s := ⟨rfl, rfl⟩

theorem Silent.trans {s t u : Session} (h : Silent s t) (h' : Silent t u) : Silent s u :=
  ⟨h'.acks.trans h.acks, h'.ackReceived.trans h.ackReceived⟩

theorem Silent.rtmpSend {s t : Session} (h : Silent s t) {data : Bytes}
    (hdata : ackValue data = none) : Silent s (t.rtmpSend data) := by
  refine ⟨?_, h.ackReceived⟩
  have hsent : (t.rtmpSend data).acks = t.acks := by
    show (t.sent ++ [data]).filterMap ackValue = t.sent.filterMap ackValue
    rw [List.filterMap_append, List.filterMap_cons_none hdata, List.filterMap_nil, List.append_nil]
  exact hsent.trans h.acks

/-- A command in chunks. -/
theorem Silent.writeData {s t u : Session} (h : Silent s t) {timestamp msgStreamId : UInt32}
    {input : Bytes} (hw : t.writeData 3 timestamp 20 msgStreamId input = .ok u) : Silent s u := by
  obtain ⟨chunks, hchunks, hw⟩ := Run.exists_of_bind_ok hw
  cases hw
  have hnone : chunks.filterMap ackValue = [] := by
    unfold writeDataByChunkStream at hchunks
    split_ifs at hchunks
    cases hchunks
    rw [List.filterMap_eq_nil_iff]
    intro chunk hchunk
    obtain ⟨index, -, rfl⟩ := List.mem_map.mp hchunk
    exact ackValue_command _ _ _ _ _
  refine ⟨?_, h.ackReceived⟩
  show (t.sent ++ chunks).filterMap ackValue = s.acks
  rw [List.filterMap_append, hnone, List.append_nil]
  exact h.acks

theorem silent_playResp {s s' : Session} {ret : RtmpRet}
    (h : s.sendRtmpPlayResp = .ok (ret, s')) : Silent s s' := by
  obtain ⟨s₁, h₁, h⟩ := Run.exists_of_bind_ok h
  obtain ⟨s₂, h₂, h⟩ := Run.exists_of_bind_ok h
  obtain ⟨s₃, h₃, h⟩ := Run.exists_of_bind_ok h
  obtain ⟨s₄, h₄, h⟩ := Run.exists_of_bind_ok h
  cases h
  have hcontrol : Silent s ((s.rtmpSend (genUserControl 4 6)).rtmpSend (genUserControl 0 6)) :=
    ((Silent.refl s).rtmpSend (ackValue_userControl 4 6)).rtmpSend (ackValue_userControl 0 6)
  exact (((hcontrol.writeData h₁).writeData h₂).writeData h₃).writeData h₄

theorem silent_publishResp {s s' : Session} {ret : RtmpRet}
    (h : s.sendRtmpPublishResp = .ok (ret, s')) : Silent s s' := by
  obtain ⟨s₁, h₁, h⟩ := Run.exists_of_bind_ok h
  cases h
  have hsilent := (Silent.refl s).writeData h₁
  exact ⟨hsilent.acks, hsilent.ackReceived⟩

theorem silent_createStreamResp {id : UInt64} {s s' : Session} {ret : RtmpRet}
    (h : s.sendRtmpCreateStreamResp id = .ok (ret, s')) : Silent s s' := by
  obtain ⟨s₁, h₁, h⟩ := Run.exists_of_bind_ok h
  cases h
  have hsilent := (Silent.refl s).writeData h₁
  exact ⟨hsilent.acks, hsilent.ackReceived⟩

theorem silent_connectResp {streamId : UInt32} {s s' : Session} {ret : RtmpRet}
    (h : s.sendRtmpConnectResp streamId = .ok (ret, s')) : Silent s s' := by
  obtain ⟨s₁, h₁, h⟩ := Run.exists_of_bind_ok h
  cases h
  have hset : Silent s (s.setChunkSize CONFIG_CHUNK_SIZE) := ⟨rfl, rfl⟩
  have hcontrol := ((hset.rtmpSend (ackValue_control (by decide : (5 : UInt8) ≠ 3) 4 2500000
    s.getChunkSize)).rtmpSend (ackValue_control (by decide : (6 : UInt8) ≠ 3) 5 2500000
    s.getChunkSize)).rtmpSend (ackValue_control (by decide : (1 : UInt8) ≠ 3) 4 CONFIG_CHUNK_SIZE
    s.getChunkSize)
  have hall := hcontrol.writeData h₁
  exact ⟨hall.acks, hall.ackReceived⟩

theorem silent_connectCommand {items : List AmfItem} {s s' : Session} {ret : RtmpRet}
    (h : s.handleRtmpConnectCommand items = .ok (ret, s')) : Silent s s' := by
  unfold handleRtmpConnectCommand at h
  split_ifs at h
  · cases h
    exact Silent.refl s
  · rcases hitems : connectItems items.tail s.req with ⟨ret₁, req⟩
    have hreq : Silent s { s with req := req } := ⟨rfl, rfl⟩
    rw [hitems] at h
    rcases ret₁ with _ | _ | _
    · exact hreq.trans (silent_connectResp h)
    · cases h
      exact hreq
    · cases h
      exact hreq

theorem silent_command {name : Bytes} {items : List AmfItem} {s s' : Session} {ret : RtmpRet}
    (h : s.handleCommand name items = .ok (ret, s')) : Silent s s' := by
  have haccept : ∀ publish, Silent s { s with req := acceptRequest publish items s.req } :=
    fun _ => ⟨rfl, rfl⟩
  unfold handleCommand handleRtmpCreatestreamCommand handleRtmpPublishCommand
    handleRtmpPlayCommand at h
  split_ifs at h
  · exact silent_connectCommand h
  · cases h
    exact Silent.refl s
  · exact silent_createStreamResp h
  · cases h
    exact Silent.refl s
  · exact (haccept true).trans (silent_publishResp h)
  · cases h
    exact Silent.refl s
  · exact (haccept false).trans (silent_playResp h)
  · cases h
    exact Silent.refl s

theorem silent_clientCommand {after : Bytes} {m : Message} {s s' : Session} {ret : RtmpRet}
    (h : s.handleClientCommandMessage after m = .ok (ret, s')) : Silent s s' := by
  obtain ⟨items, hitems, h⟩ := Run.exists_of_bind_ok h
  rcases items with _ | ⟨item, rest⟩
  · cases h
    exact Silent.refl s
  · cases item with
    | string name =>
      obtain ⟨⟨ret₁, s₁⟩, h₁, h⟩ := Run.exists_of_bind_ok h
      have hsilent := silent_command h₁
      simp only at h
      split_ifs at h
      · cases h
        exact hsilent
      · cases h
        exact hsilent
      · cases h
        exact hsilent
    | _ =>
      cases h
      exact Silent.refl s

theorem silent_controlMessage (m : Message) (s : Session) :
    Silent s (s.handleRtmpControlMessage m).2 := by
  unfold handleRtmpControlMessage
  split_ifs
  · exact Silent.refl s
  · have hset : Silent s (s.setChunkSize (read4bytes m.payload)) := ⟨rfl, rfl⟩
    exact hset.rtmpSend (ackValue_control (by decide : (1 : UInt8) ≠ 3) 4 _ _)
  · exact Silent.refl s
  · exact ⟨rfl, rfl⟩
  · exact Silent.refl s

/-- Behind `send_rtmp_ack` the handling of a message is silent. -/
theorem handleMessage_silent {after : Bytes} {m : Message} {s s' : Session} {ret : RtmpRet}
    {action : Action} (h : s.handleMessage after m = .ok (ret, action, s')) :
    Silent (s.sendRtmpAck (UInt32.ofNat m.payload.length)) s' := by
  unfold handleMessage at h
  generalize s.sendRtmpAck (UInt32.ofNat m.payload.length) = t at h
  split_ifs at h
  · cases h
    exact silent_controlMessage m t
  · obtain ⟨⟨ret₁, s₁⟩, h₁, h⟩ := Run.exists_of_bind_ok h
    have hsilent := silent_clientCommand h₁
    simp only at h
    split_ifs at h
    · cases h
      exact hsilent
    · cases h
      exact hsilent
    · cases h
      exact hsilent
  · cases h
    exact Silent.refl _
  · obtain ⟨pkt, -, h⟩ := Run.exists_of_bind_ok h
    split_ifs at h
    · cases h
      exact Silent.refl _
    · cases h
      exact Silent.refl _
  · cases h
    exact Silent.refl _

/-! ## The counts of a session -/

theorem sendRtmpAck_cases (size : UInt32) (s : Session) :
    (s.remoteWindowAcksize < s.ackReceived + size ∧
      (s.sendRtmpAck size).acks = s.acks ++ [s.base.chunkSize] ∧
      (s.sendRtmpAck size).ackReceived = 0) ∨
      (s.ackReceived + size ≤ s.remoteWindowAcksize ∧ (s.sendRtmpAck size).acks = s.acks ∧
        (s.sendRtmpAck size).ackReceived = s.ackReceived + size) := by
  by_cases hdue : s.remoteWindowAcksize < s.ackReceived + size
  · left
    have hsend : s.sendRtmpAck size =
        { s with
          ackReceived := 0
          sent := s.sent ++ [genControlMessage 3 4 s.base.chunkSize s.base.chunkSize] } := by
      unfold sendRtmpAck
      exact if_pos hdue
    rw [hsend]
    refine ⟨hdue, ?_, rfl⟩
    show (s.sent ++ [_]).filterMap ackValue = s.sent.filterMap ackValue ++ _
    rw [List.filterMap_append, List.filterMap_cons_some (ackValue_ack _ _), List.filterMap_nil]
  · right
    have hkeep : s.sendRtmpAck size = { s with ackReceived := s.ackReceived + size } := by
      unfold sendRtmpAck
      exact if_neg hdue
    rw [hkeep]
    exact ⟨UInt32.not_lt.mp hdue, rfl, rfl⟩

/-- What a pass acknowledges that handles a message. -/
theorem receivePass_acks {after : Bytes} {s s' : Session} {m : Message} {ret : Option RtmpRet}
    {action : Action} (h : s.receivePass after = .ok (some m, ret, action, s')) :
    (s.remoteWindowAcksize < s.ackReceived + UInt32.ofNat m.payload.length ∧
      s'.acks = s.acks ++ [s.base.chunkSize] ∧ s'.ackReceived = 0) ∨
      (s.ackReceived + UInt32.ofNat m.payload.length ≤ s.remoteWindowAcksize ∧
        s'.acks = s.acks ∧ s'.ackReceived = s.ackReceived + UInt32.ofNat m.payload.length) := by
  obtain ⟨r, base, hr, -, ⟨hm, -⟩ | ⟨m₀, ret₁, action₁, s₁, hm, -, hhandle, hend⟩⟩ :=
    receivePass_cases h
  · cases hm
  cases hm
  obtain ⟨hsize, -⟩ := SessionBase.readChunkStream_frame hr
  have hs' : s'.acks = s₁.acks ∧ s'.ackReceived = s₁.ackReceived := by
    rcases hend with ⟨-, -, -, hs'⟩ | ⟨-, -, -, hs'⟩
    · rw [hs']
      exact ⟨rfl, rfl⟩
    · rw [hs']
      exact ⟨rfl, rfl⟩
  have hsilent := handleMessage_silent hhandle
  rw [hs'.1, hs'.2, hsilent.acks, hsilent.ackReceived, ← hsize]
  exact sendRtmpAck_cases (UInt32.ofNat m.payload.length) { s with base := base }

/-- A pass that handles no message acknowledges nothing. -/
theorem receivePass_quiet {after : Bytes} {s s' : Session} {ret : Option RtmpRet} {action : Action}
    (h : s.receivePass after = .ok (none, ret, action, s')) : Silent s s' := by
  obtain ⟨r, base, -, -, ⟨-, -, hs'⟩ | ⟨m₀, ret₁, action₁, s₁, hm, -⟩⟩ := receivePass_cases h
  · rw [hs']
    exact ⟨rfl, rfl⟩
  · cases hm

/-- The payload bytes that a session has received: all of them, and those since its
last acknowledgement. -/
structure Received where
  since : Nat := 0
  total : Nat := 0
  deriving DecidableEq, Repr

/-- The bytes of a message count when it is handled, and an acknowledgement that is
sent in the pass covers them. -/
def noteReceived : Act → Session → Received → Received
  | .pass after, s, r =>
    match s.receivePass after with
    | .ok (some m, _, _, s') =>
      { since := if s'.acks = s.acks then r.since + m.payload.length else 0
        total := r.total + m.payload.length }
    | _ => r
  | _, _, r => r

/-- The acknowledgement that is due for a message: the bytes since the last one exceed
the window of the peer. -/
def due (m : Message) (r : Received) (s : Session) : List UInt32 :=
  if s.remoteWindowAcksize.toNat < r.since + m.payload.length then
    [UInt32.ofNat (r.total + m.payload.length)]
  else []

/-- The pass sends the acknowledgement that is due and no other.  A pass that ends in a
fault sends nothing any more. -/
def acknowledges : Act → Received × Session → Bool
  | .pass after, (r, s) =>
    match s.receivePass after with
    | .ok (some m, _, _, s') => s'.acks = s.acks ++ due m r s
    | .ok (none, _, _, s') => s'.acks = s.acks
    | .error _ => true
  | _, _ => true

/-- When the window is exceeded, the count has not gone round past it, and the chunk
size of the session is the number of bytes that were received. -/
def acksRight : Act → Received × Session → Bool
  | .pass after, (r, s) =>
    match s.base.nextMessage with
    | some m =>
      (s.receivePass after).toOption.isNone ||
        decide (s.remoteWindowAcksize.toNat < r.since + m.payload.length →
          s.remoteWindowAcksize.toNat < (r.since + m.payload.length) % 2 ^ 32 ∧
            s.base.chunkSize = UInt32.ofNat (r.total + m.payload.length))
    | none => true
  | _, _ => true

/-- The count of the session is the number of bytes in 32 bits. -/
def Counted (t : Received × Session) : Prop := t.2.ackReceived.toNat = t.1.since % 2 ^ 32

theorem Counted.add {t : Received × Session} (h : Counted t) (n : Nat) :
    (t.2.ackReceived + UInt32.ofNat n).toNat = (t.1.since + n) % 2 ^ 32 := by
  replace h : t.2.ackReceived.toNat = t.1.since % 2 ^ 32 := h
  rw [UInt32.toNat_add, UInt32.toNat_ofNat', h]
  omega

theorem Counted.step {a : Act} {t t' : Received × Session} (h : Counted t)
    (hstep : Run.withGhost noteReceived step a t = .ok t') : Counted t' := by
  obtain ⟨hs', hr'⟩ := Run.withGhost_ok.mp hstep
  cases a with
  | read data handshake =>
    obtain ⟨buffer, phase, sent, hs'⟩ := step_read hs'
    rw [Counted, hr', hs']
    exact h
  | write csid timestamp typeId msgStreamId input =>
    obtain ⟨sent, hs'⟩ := step_write hs'
    rw [Counted, hr', hs']
    exact h
  | pass after =>
    obtain ⟨m, ret, action, hpass, -⟩ := step_pass hs'
    rw [Counted, hr', noteReceived, hpass]
    rcases m with _ | m
    · rw [(receivePass_quiet hpass).ackReceived]
      exact h
    · rcases receivePass_acks hpass with ⟨-, hacks, hcount⟩ | ⟨-, hacks, hcount⟩
      · simp [hacks, hcount]
      · simp only [hacks, hcount, if_true]
        exact h.add m.payload.length

/-- **One step.**  It follows the law exactly when the chunk size and the count happen
to be right. -/
theorem Counted.step_iff {a : Act} {t : Received × Session} (h : Counted t) :
    acknowledges a t = true ↔ acksRight a t = true := by
  obtain ⟨r, s⟩ := t
  cases a with
  | pass after =>
    rcases hpass : s.receivePass after with f | ⟨m, ret, action, s'⟩
    · simp only [acknowledges, acksRight, hpass, Except.toOption, Option.isNone_none, Bool.true_or]
      rcases s.base.nextMessage with _ | m <;> simp
    · obtain ⟨-, -, -, hnext, -⟩ := receivePass_cases hpass
      rcases m with _ | m
      · simp [acknowledges, acksRight, hpass, hnext, (receivePass_quiet hpass).acks]
      · have hcount := h.add m.payload.length
        have hwindow := s.remoteWindowAcksize.toNat_lt
        simp only [acknowledges, acksRight, hpass, hnext, Except.toOption, Option.isNone_some,
          Bool.false_or, decide_eq_true_eq, due]
        rcases receivePass_acks hpass with ⟨hdue, hacks, -⟩ | ⟨hwait, hacks, -⟩
        · -- the count exceeds the window, so the bytes do
          have hgt : s.remoteWindowAcksize.toNat < (r.since + m.payload.length) % 2 ^ 32 := by
            rw [← hcount]
            exact UInt32.lt_iff_toNat_lt.mp hdue
          have hsince : s.remoteWindowAcksize.toNat < r.since + m.payload.length := by omega
          simp only [hacks, hsince, hgt, if_true, true_and, forall_const,
            List.append_cancel_left_eq, List.cons.injEq, and_true, decide_eq_true_eq]
        · have hle : (r.since + m.payload.length) % 2 ^ 32 ≤ s.remoteWindowAcksize.toNat := by
            rw [← hcount]
            exact UInt32.le_iff_toNat_le.mp hwait
          by_cases hsince : s.remoteWindowAcksize.toNat < r.since + m.payload.length
          · simp only [hacks, hsince, Nat.not_lt.mpr hle, if_true, false_and, forall_const,
              List.self_eq_append_right, List.cons_ne_nil, decide_eq_true_eq]
          · simp [hacks, hsince]
  | _ => exact Iff.rfl

/-- **The law of acknowledgements.**  In a run every message is acknowledged when the
bytes since the last acknowledgement exceed the window, with the number of all bytes, if
and only if at each such message the count has not gone round and the chunk size of the
session is that number. -/
theorem acknowledges_iff (acts : List Act) :
    Run.Along (Run.withGhost noteReceived step) (fun a t => acknowledges a t = true) acts ({}, {}) ↔
      Run.Along (Run.withGhost noteReceived step) (fun a t => acksRight a t = true) acts ({}, {}) := by
  have hinit : Counted ({}, {}) := rfl
  exact Run.along_iff_along (fun _ _ _ h hstep => h.step hstep) (fun _ _ h => h.step_iff)
    hinit

/-- The client announces a window of one byte, twice. -/
def windowRun : List Act :=
  clientReads (plainHeader 4 5 ++ [0, 0, 0, 1] ++ plainHeader 4 5 ++ [0, 0, 0, 1]) ++
    [.pass [], .pass []]

/-- The second message is acknowledged with 128, the chunk size.  Eight bytes were
received. -/
theorem acknowledges_chunk_size :
    ¬ Run.Along (Run.withGhost noteReceived step) (fun a t => acknowledges a t = true) windowRun
      ({}, {}) ∧ ∃ t, Run.run (Run.withGhost noteReceived step) windowRun ({}, {}) = .ok t ∧
        (t.1.total, t.2.acks) = (8, [128]) :=
  ⟨by decide +kernel, Run.exists_of_map_toOption (by decide +kernel)⟩

end Session

end MediaServer
