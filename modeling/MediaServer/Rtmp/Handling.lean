import MediaServer.Lib.Run
import MediaServer.Rtmp.Readers
import MediaServer.Rtmp.ServerSession

/-!
# What a message does to its session

A message changes two things of its session that matter later: the chunk size
and the request.  Both changes are functions of the message and of the memory
behind its payload, and this file states them as such, so that the rest of the
development does not look into the handlers again.

* `announced` is the size that a SET_CHUNK_SIZE message carries and
  `answersConnect` says that the message is a connect command that is
  answered.  `chunkSizeAfter` puts the two together.
* `accepted` is the play or publish command that the message is.

`handleMessage_spec` is the result.  A handler fails only by dividing by a
chunk size of zero, by the decoder, or by `get_media_packet`.
-/

namespace MediaServer

namespace Session

/-! ## The commands in a message -/

/-- The name and the values of the command that a message carries. -/
def command (after : Bytes) (m : Message) : Option (Bytes × List AmfItem) :=
  if m.typeId = 20 then
    match AmfDecoder.decodePayload m.payload after with
    | .ok (.string name :: rest) => some (name, .string name :: rest)
    | _ => none
  else none

/-- The size that a SET_CHUNK_SIZE message announces. -/
def announced (m : Message) : Option UInt32 :=
  if m.typeId = 1 ∧ 4 ≤ m.payload.length then some (read4bytes m.payload) else none

/-- The message is a connect command that is answered. -/
def answersConnect (after : Bytes) (m : Message) : Bool :=
  match command after m with
  | some (name, items) =>
    name = ascii "connect" && decide (3 ≤ items.length) &&
      decide ((connectItems items.tail {}).1 = .ok)
  | none => false

/-- The message is an accepted publish (`true`) or play (`false`) command. -/
def accepted (after : Bytes) (m : Message) : Option (Bool × List AmfItem) :=
  match command after m with
  | some (name, items) =>
    if items.length < 3 then none
    else if name = ascii "publish" then some (true, items)
    else if name = ascii "play" then some (false, items)
    else none
  | none => none

/-- The chunk size after a message. -/
def chunkSizeAfter (after : Bytes) (m : Message) (chunkSize : UInt32) : UInt32 :=
  match announced m with
  | some size => size
  | none => if answersConnect after m then CONFIG_CHUNK_SIZE else chunkSize

/-- The message changes the chunk size, the mode or the key. -/
def changes (after : Bytes) (m : Message) : Bool :=
  (accepted after m).isSome || answersConnect after m || (announced m).isSome

/-- The message is audio, video or metadata from which a packet is made. -/
def carriesPacket (after : Bytes) (m : Message) : Bool :=
  isMedia m.typeId &&
    match getMediaPacket after m {} with
    | .ok pkt => !pkt.buffer.isEmpty
    | .error _ => false

/-! ## Responses -/

/-- `s'` differs from `s` in what was sent and in the counters. -/
structure SameRequest (s s' : Session) : Prop where
  base : s'.base = s.base
  req : s'.req = s.req

theorem SameRequest.refl (s : Session) : SameRequest s s := ⟨rfl, rfl⟩

theorem SameRequest.trans {s t u : Session} (h : SameRequest s t) (h' : SameRequest t u) :
    SameRequest s u :=
  ⟨h'.base.trans h.base, h'.req.trans h.req⟩

theorem sameRequest_sendRtmpAck (size : UInt32) (s : Session) :
    SameRequest s (s.sendRtmpAck size) := by
  unfold sendRtmpAck
  simp only
  split
  · exact ⟨rfl, rfl⟩
  · exact ⟨rfl, rfl⟩

theorem writeData_ok {csid : UInt16} {timestamp : UInt32} {typeId : UInt8}
    {msgStreamId : UInt32} {input : Bytes} {s s' : Session}
    (h : s.writeData csid timestamp typeId msgStreamId input = .ok s') :
    ∃ sent, s' = { s with sent := sent } := by
  obtain ⟨chunks, -, h⟩ := Run.exists_of_bind_ok h
  cases h
  exact ⟨_, rfl⟩

theorem sameRequest_writeData {csid : UInt16} {timestamp : UInt32} {typeId : UInt8}
    {msgStreamId : UInt32} {input : Bytes} {s s' : Session}
    (h : s.writeData csid timestamp typeId msgStreamId input = .ok s') : SameRequest s s' := by
  obtain ⟨sent, rfl⟩ := writeData_ok h
  exact ⟨rfl, rfl⟩

/-- A response fails only by a division by zero. -/
theorem writeData_error {csid : UInt16} {timestamp : UInt32} {typeId : UInt8}
    {msgStreamId : UInt32} {input : Bytes} {s : Session} {fault : Fault}
    (h : s.writeData csid timestamp typeId msgStreamId input = .error fault) :
    s.base.chunkSize = 0 := by
  rcases Run.error_of_bind_error h with h | ⟨chunks, -, h⟩
  · unfold writeDataByChunkStream at h
    split at h
    · assumption
    · cases h
  · cases h

theorem sendRtmpPlayResp_ok {s s' : Session} {ret : RtmpRet}
    (h : s.sendRtmpPlayResp = .ok (ret, s')) : ret = .ok ∧ SameRequest s s' := by
  obtain ⟨s₁, h₁, h⟩ := Run.exists_of_bind_ok h
  obtain ⟨s₂, h₂, h⟩ := Run.exists_of_bind_ok h
  obtain ⟨s₃, h₃, h⟩ := Run.exists_of_bind_ok h
  obtain ⟨s₄, h₄, h⟩ := Run.exists_of_bind_ok h
  cases h
  have hall := (((sameRequest_writeData h₁).trans (sameRequest_writeData h₂)).trans
    (sameRequest_writeData h₃)).trans (sameRequest_writeData h₄)
  exact ⟨rfl, hall.base, hall.req⟩

theorem sendRtmpPublishResp_ok {s s' : Session} {ret : RtmpRet}
    (h : s.sendRtmpPublishResp = .ok (ret, s')) : ret = .ok ∧ SameRequest s s' := by
  obtain ⟨s₁, h₁, h⟩ := Run.exists_of_bind_ok h
  cases h
  have hsame := sameRequest_writeData h₁
  exact ⟨rfl, hsame.base, hsame.req⟩

theorem sendRtmpCreateStreamResp_ok {id : UInt64} {s s' : Session} {ret : RtmpRet}
    (h : s.sendRtmpCreateStreamResp id = .ok (ret, s')) : ret = .ok ∧ SameRequest s s' := by
  obtain ⟨s₁, h₁, h⟩ := Run.exists_of_bind_ok h
  cases h
  have hsame := sameRequest_writeData h₁
  exact ⟨rfl, hsame.base, hsame.req⟩

theorem sendRtmpConnectResp_ok {streamId : UInt32} {s s' : Session} {ret : RtmpRet}
    (h : s.sendRtmpConnectResp streamId = .ok (ret, s')) :
    ret = .ok ∧ s'.base = s.base.setChunkSize CONFIG_CHUNK_SIZE ∧ s'.req = s.req := by
  obtain ⟨s₁, h₁, h⟩ := Run.exists_of_bind_ok h
  cases h
  have hsame := sameRequest_writeData h₁
  exact ⟨rfl, hsame.base, hsame.req⟩

/-! ## Commands -/

/-- The requests agree in mode and key. -/
structure SameMode (r r' : RtmpRequest) : Prop where
  isReady : r'.isReady = r.isReady
  publishFlag : r'.publishFlag = r.publishFlag
  key : r'.key = r.key

theorem SameMode.refl (r : RtmpRequest) : SameMode r r := ⟨rfl, rfl, rfl⟩

theorem SameMode.trans {r s t : RtmpRequest} (h : SameMode r s) (h' : SameMode s t) :
    SameMode r t :=
  ⟨h'.isReady.trans h.isReady, h'.publishFlag.trans h.publishFlag, h'.key.trans h.key⟩

/-- Whether a field is refused does not depend on the request. -/
theorem connectField_fst (name : Bytes) (set : Bytes → RtmpRequest → RtmpRequest)
    (fields : List (Bytes × AmfItem)) (req req' : RtmpRequest) :
    (connectField name set fields req).1 = (connectField name set fields req').1 := by
  unfold connectField
  split <;> rfl

theorem connectField_sameMode {name : Bytes} {set : Bytes → RtmpRequest → RtmpRequest}
    (hset : ∀ v r, SameMode r (set v r)) (fields : List (Bytes × AmfItem)) (req : RtmpRequest) :
    SameMode req (connectField name set fields req).2 := by
  unfold connectField
  split
  · exact hset _ _
  · exact SameMode.refl req
  · exact SameMode.refl req

theorem connectObject_fst (fields : List (Bytes × AmfItem)) (req req' : RtmpRequest) :
    (connectObject fields req).1 = (connectObject fields req').1 := by
  have happ := connectField_fst (ascii "app") (fun v r => { r with app := v }) fields req req'
  unfold connectObject
  rcases h₁ : connectField (ascii "app") (fun v r => { r with app := v }) fields req with ⟨ret, r₁⟩
  rcases h₂ : connectField (ascii "app") (fun v r => { r with app := v }) fields req' with
    ⟨ret', r₂⟩
  rw [h₁, h₂] at happ
  simp only at happ
  subst happ
  rcases ret with _ | _ | _
  · have htc := connectField_fst (ascii "tcUrl") (fun v r => { r with tcurl := v }) fields r₁ r₂
    simp only
    rcases h₃ : connectField (ascii "tcUrl") (fun v r => { r with tcurl := v }) fields r₁ with
      ⟨ret, r₃⟩
    rcases h₄ : connectField (ascii "tcUrl") (fun v r => { r with tcurl := v }) fields r₂ with
      ⟨ret', r₄⟩
    rw [h₃, h₄] at htc
    simp only at htc
    subst htc
    rcases ret with _ | _ | _
    · exact connectField_fst _ _ _ _ _
    · rfl
    · rfl
  · rfl
  · rfl

theorem connectObject_sameMode (fields : List (Bytes × AmfItem)) (req : RtmpRequest) :
    SameMode req (connectObject fields req).2 := by
  have happ : SameMode req
      (connectField (ascii "app") (fun v r => { r with app := v }) fields req).2 := by
    apply connectField_sameMode
    exact fun v r => ⟨rfl, rfl, rfl⟩
  unfold connectObject
  rcases h₁ : connectField (ascii "app") (fun v r => { r with app := v }) fields req with ⟨ret, r₁⟩
  rw [h₁] at happ
  rcases ret with _ | _ | _
  · have htc : SameMode r₁
        (connectField (ascii "tcUrl") (fun v r => { r with tcurl := v }) fields r₁).2 := by
      apply connectField_sameMode
      exact fun v r => ⟨rfl, rfl, rfl⟩
    simp only
    rcases h₂ : connectField (ascii "tcUrl") (fun v r => { r with tcurl := v }) fields r₁ with
      ⟨ret, r₂⟩
    rw [h₂] at htc
    rcases ret with _ | _ | _
    · refine (happ.trans htc).trans ?_
      apply connectField_sameMode
      exact fun v r => ⟨rfl, rfl, rfl⟩
    · exact happ.trans htc
    · exact happ.trans htc
  · exact happ
  · exact happ

theorem connectItems_fst (items : List AmfItem) (req req' : RtmpRequest) :
    (connectItems items req).1 = (connectItems items req').1 := by
  induction items generalizing req req' with
  | nil => rfl
  | cons item rest ih =>
    cases item with
    | object fields =>
      have hobj := connectObject_fst fields req req'
      unfold connectItems
      rcases h₁ : connectObject fields req with ⟨ret, r₁⟩
      rcases h₂ : connectObject fields req' with ⟨ret', r₂⟩
      rw [h₁, h₂] at hobj
      simp only at hobj
      subst hobj
      rcases ret with _ | _ | _
      · exact ih r₁ r₂
      · rfl
      · rfl
    | _ => exact ih req req'

theorem connectItems_sameMode (items : List AmfItem) (req : RtmpRequest) :
    SameMode req (connectItems items req).2 := by
  induction items generalizing req with
  | nil => exact SameMode.refl req
  | cons item rest ih =>
    cases item with
    | object fields =>
      have hobj := connectObject_sameMode fields req
      unfold connectItems
      rcases h₁ : connectObject fields req with ⟨ret, r₁⟩
      rw [h₁] at hobj
      rcases ret with _ | _ | _
      · exact hobj.trans (ih r₁)
      · exact hobj
      · exact hobj
    | _ => exact ih req

/-- What a message has done to its session. -/
structure Effect (after : Bytes) (m : Message) (s s' : Session) : Prop where
  base : s'.base = { s.base with chunkSize := chunkSizeAfter after m s.base.chunkSize }
  accepted : ∀ publish items, accepted after m = some (publish, items) →
    s'.req = acceptRequest publish items s.req
  other : Session.accepted after m = none → SameMode s.req s'.req

/-- A message that is no command and announces no size. -/
theorem effect_of_sameRequest {after : Bytes} {m : Message} {s s' : Session}
    (hcmd : command after m = none) (hann : announced m = none) (h : SameRequest s s') :
    Effect after m s s' where
  base := by simp [chunkSizeAfter, hann, answersConnect, hcmd, h.base]
  accepted publish items hacc := by simp [Session.accepted, hcmd] at hacc
  other _ := h.req ▸ SameMode.refl _

theorem command_typeId {after : Bytes} {m : Message} {name : Bytes} {items : List AmfItem}
    (h : command after m = some (name, items)) : m.typeId = 20 := by
  unfold command at h
  split at h
  · assumption
  · cases h

theorem announced_of_command {after : Bytes} {m : Message} {name : Bytes} {items : List AmfItem}
    (h : command after m = some (name, items)) : announced m = none := by
  have htype := command_typeId h
  simp [announced, htype]

/-- A command that is not connect leaves the chunk size alone. -/
theorem chunkSizeAfter_of_ne_connect {after : Bytes} {m : Message} {name : Bytes}
    {items : List AmfItem} (h : command after m = some (name, items))
    (hname : name ≠ ascii "connect") (c : UInt32) : chunkSizeAfter after m c = c := by
  simp [chunkSizeAfter, announced_of_command h, answersConnect, h, hname]

theorem handleRtmpConnectCommand_effect {after : Bytes} {m : Message} {items : List AmfItem}
    {s s' : Session} {ret : RtmpRet} (hcmd : command after m = some (ascii "connect", items))
    (h : s.handleRtmpConnectCommand items = .ok (ret, s')) : Effect after m s s' := by
  have hacc : Session.accepted after m = none := by
    have h₁ : ascii "connect" ≠ ascii "publish" := by decide
    have h₂ : ascii "connect" ≠ ascii "play" := by decide
    simp [Session.accepted, hcmd, h₁, h₂]
  have hann := announced_of_command hcmd
  have hfst := connectItems_fst items.tail s.req {}
  have hmode := connectItems_sameMode items.tail s.req
  unfold handleRtmpConnectCommand at h
  split_ifs at h with hlen
  · cases h
    refine ⟨?_, by simp [hacc], fun _ => SameMode.refl _⟩
    simp [chunkSizeAfter, hann, answersConnect, hcmd, Nat.not_le.mpr hlen]
  · rcases hi : connectItems items.tail s.req with ⟨ret₁, req⟩
    rw [hi] at hfst hmode
    simp only [hi] at h
    rcases ret₁ with _ | _ | _
    · obtain ⟨-, hbase, hreq⟩ := sendRtmpConnectResp_ok h
      refine ⟨?_, by simp [hacc], fun _ => ?_⟩
      · rw [hbase]
        simp [chunkSizeAfter, hann, answersConnect, hcmd, Nat.not_lt.mp hlen, ← hfst,
          SessionBase.setChunkSize]
      · rw [hreq]
        exact hmode
    · cases h
      refine ⟨?_, by simp [hacc], fun _ => hmode⟩
      simp [chunkSizeAfter, hann, answersConnect, hcmd, ← hfst]
    · cases h
      refine ⟨?_, by simp [hacc], fun _ => hmode⟩
      simp [chunkSizeAfter, hann, answersConnect, hcmd, ← hfst]

/-- A play or publish command that is too short is refused, and a longer one is
accepted with its mode and key. -/
theorem effect_of_accept {after : Bytes} {m : Message} {name : Bytes} {items : List AmfItem}
    {publish : Bool} {s s' : Session} (hcmd : command after m = some (name, items))
    (hname : name ≠ ascii "connect")
    (hacc : Session.accepted after m = some (publish, items))
    (hsame : SameRequest { s with req := acceptRequest publish items s.req } s') :
    Effect after m s s' where
  base := by
    rw [chunkSizeAfter_of_ne_connect hcmd hname, hsame.base]
  accepted publish' items' h := by
    rw [hacc, Option.some.injEq, Prod.mk.injEq] at h
    rw [← h.1, ← h.2, hsame.req]
  other h := by
    rw [hacc] at h
    cases h

/-- A command that is neither connect, play nor publish. -/
theorem effect_of_other {after : Bytes} {m : Message} {name : Bytes} {items : List AmfItem}
    {s s' : Session} (hcmd : command after m = some (name, items))
    (hname : name ≠ ascii "connect") (hacc : Session.accepted after m = none)
    (hsame : SameRequest s s') : Effect after m s s' where
  base := by rw [chunkSizeAfter_of_ne_connect hcmd hname, hsame.base]
  accepted publish items h := by
    rw [hacc] at h
    cases h
  other _ := hsame.req ▸ SameMode.refl _

theorem changes_of_command_eq_none {after : Bytes} {m : Message} (hcmd : command after m = none) :
    changes after m = (announced m).isSome := by
  simp [changes, Session.accepted, answersConnect, hcmd]

/-- Of the commands that are not connect, those that are accepted change
something. -/
theorem changes_of_ne_connect {after : Bytes} {m : Message} {name : Bytes} {items : List AmfItem}
    (hcmd : command after m = some (name, items)) (hname : name ≠ ascii "connect") :
    changes after m = (Session.accepted after m).isSome := by
  simp [changes, announced_of_command hcmd, answersConnect, hcmd, hname]

/-- A connect command that is answered succeeds. -/
theorem handleRtmpConnectCommand_ret {after : Bytes} {m : Message} {items : List AmfItem}
    {s s' : Session} {ret : RtmpRet} (hcmd : command after m = some (ascii "connect", items))
    (h : s.handleRtmpConnectCommand items = .ok (ret, s'))
    (hchanges : changes after m = true) : ret = .ok := by
  have h₁ : ascii "connect" ≠ ascii "publish" := by decide
  have h₂ : ascii "connect" ≠ ascii "play" := by decide
  have hfst := connectItems_fst items.tail s.req {}
  have hanswers : answersConnect after m = true := by
    simpa [changes, Session.accepted, hcmd, h₁, h₂, announced_of_command hcmd] using hchanges
  simp only [answersConnect, hcmd, Bool.and_eq_true, decide_eq_true_eq, true_and] at hanswers
  obtain ⟨hlen, hok⟩ := hanswers
  unfold handleRtmpConnectCommand at h
  rw [if_neg (by omega)] at h
  rcases hi : connectItems items.tail s.req with ⟨ret₁, req⟩
  rw [hi, hok] at hfst
  replace hfst : ret₁ = .ok := hfst
  simp only [hi, hfst] at h
  exact (sendRtmpConnectResp_ok h).1

theorem handleCommand_effect {after : Bytes} {m : Message} {name : Bytes} {items : List AmfItem}
    {s s' : Session} {ret : RtmpRet} (hcmd : command after m = some (name, items))
    (h : s.handleCommand name items = .ok (ret, s')) :
    Effect after m s s' ∧ (changes after m = true → ret = .ok) := by
  unfold handleCommand at h
  split_ifs at h with hconnect hcreate hpublish hplay
  · subst hconnect
    exact ⟨handleRtmpConnectCommand_effect hcmd h, handleRtmpConnectCommand_ret hcmd h⟩
  · have h₁ : ascii "createStream" ≠ ascii "publish" := by decide
    have h₂ : ascii "createStream" ≠ ascii "play" := by decide
    have hacc : Session.accepted after m = none := by
      simp [Session.accepted, hcmd, hcreate, h₁, h₂]
    refine ⟨effect_of_other hcmd hconnect hacc ?_, by simp [changes_of_ne_connect hcmd hconnect, hacc]⟩
    unfold handleRtmpCreatestreamCommand at h
    split_ifs at h
    · cases h
      exact SameRequest.refl s
    · exact (sendRtmpCreateStreamResp_ok h).2
  · unfold handleRtmpPublishCommand at h
    split_ifs at h with hlen
    · cases h
      have hacc : Session.accepted after m = none := by simp [Session.accepted, hcmd, hlen]
      exact ⟨effect_of_other hcmd hconnect hacc (SameRequest.refl s), by simp [changes_of_ne_connect hcmd hconnect, hacc]⟩
    · obtain ⟨hret, hsame⟩ := sendRtmpPublishResp_ok h
      have hacc : Session.accepted after m = some (true, items) := by
        simp [Session.accepted, hcmd, hlen, hpublish]
      exact ⟨effect_of_accept hcmd hconnect hacc hsame, fun _ => hret⟩
  · unfold handleRtmpPlayCommand at h
    split_ifs at h with hlen
    · cases h
      have hacc : Session.accepted after m = none := by simp [Session.accepted, hcmd, hlen]
      exact ⟨effect_of_other hcmd hconnect hacc (SameRequest.refl s), by simp [changes_of_ne_connect hcmd hconnect, hacc]⟩
    · obtain ⟨hret, hsame⟩ := sendRtmpPlayResp_ok h
      have hne : ascii "play" ≠ ascii "publish" := by decide
      have hacc : Session.accepted after m = some (false, items) := by
        simp [Session.accepted, hcmd, hlen, hplay, hne]
      exact ⟨effect_of_accept hcmd hconnect hacc hsame, fun _ => hret⟩
  · cases h
    have hacc : Session.accepted after m = none := by
      simp [Session.accepted, hcmd, hpublish, hplay]
    exact ⟨effect_of_other hcmd hconnect hacc (SameRequest.refl s), by simp [changes_of_ne_connect hcmd hconnect, hacc]⟩

theorem handleClientCommandMessage_effect {after : Bytes} {m : Message} {s s' : Session}
    {ret : RtmpRet} (htype : m.typeId = 20)
    (h : s.handleClientCommandMessage after m = .ok (ret, s')) :
    Effect after m s s' ∧ (changes after m = true → ret ≠ .error) := by
  obtain ⟨items, hitems, h⟩ := Run.exists_of_bind_ok h
  have hann : announced m = none := by simp [announced, htype]
  have hnone : command after m = none → changes after m = true → ret ≠ .error := by
    intro hcmd
    simp [changes_of_command_eq_none hcmd, hann]
  rcases items with _ | ⟨item, rest⟩
  · cases h
    have hcmd : command after m = none := by simp [command, htype, hitems]
    exact ⟨effect_of_sameRequest hcmd hann (SameRequest.refl s), hnone hcmd⟩
  · cases item with
    | string name =>
      have hcmd : command after m = some (name, .string name :: rest) := by
        simp [command, htype, hitems]
      obtain ⟨⟨ret₁, s₁⟩, h₁, h⟩ := Run.exists_of_bind_ok h
      obtain ⟨heffect, hret⟩ := handleCommand_effect hcmd h₁
      simp only at h
      split_ifs at h with hok hplay
      · cases h
        exact ⟨heffect, by simp⟩
      · cases h
        exact ⟨heffect, by simp⟩
      · cases h
        exact ⟨heffect, fun hchanges => absurd (hret hchanges) hok⟩
    | _ =>
      cases h
      have hcmd : command after m = none := by simp [command, htype, hitems]
      exact ⟨effect_of_sameRequest hcmd hann (SameRequest.refl s), hnone hcmd⟩

/-! ## Media -/

/-- The ways to make a packet. -/
theorem getMediaPacket_cases (after : Bytes) (m : Message) :
    (∃ fault, ∀ s : Session, s.getMediaPacket after m = .error fault) ∨
      (∃ pkt : MediaPacket, pkt.buffer = [] ∧ ∀ s : Session, s.getMediaPacket after m = .ok pkt) ∨
      ∃ tsDelta pkt, Heap.packetRoute pkt ≠ none ∧ m.payload ≠ [] ∧
        ∀ s : Session, s.getMediaPacket after m = .ok (s.fillPacket m tsDelta pkt) := by
  unfold getMediaPacket
  rcases hp : m.payload with _ | ⟨p0, _ | ⟨p1, rest⟩⟩
  · exact Or.inl ⟨_, fun _ => rfl⟩
  · exact Or.inl ⟨_, fun _ => rfl⟩
  · simp only
    by_cases h9 : m.typeId = 9
    · simp only [if_pos h9]
      rcases videoCodec p0 with _ | codec
      · exact Or.inl ⟨_, fun _ => rfl⟩
      · by_cases hkey : p0 &&& 0xf0 = 0x10 ∧ p1 ≠ 0x00 ∧ p1 ≠ 0x01
        · simp only [if_pos hkey]
          exact Or.inr (Or.inl ⟨_, rfl, fun _ => rfl⟩)
        · simp only [if_neg hkey]
          by_cases hlen : (rest ++ after).length < 3
          · simp only [if_pos hlen]
            exact Or.inl ⟨_, fun _ => rfl⟩
          · simp only [if_neg hlen]
            refine Or.inr (Or.inr ⟨_, _, ?_, by simp, fun _ => rfl⟩)
            simp [Heap.packetRoute]
    · simp only [if_neg h9]
      by_cases h8 : m.typeId = 8
      · simp only [if_pos h8]
        rcases audioCodec p0 with _ | codec
        · exact Or.inl ⟨_, fun _ => rfl⟩
        · refine Or.inr (Or.inr ⟨_, _, ?_, by simp, fun _ => rfl⟩)
          simp [Heap.packetRoute]
      · simp only [if_neg h8]
        refine Or.inr (Or.inr ⟨_, _, ?_, by simp, fun _ => rfl⟩)
        simp [Heap.packetRoute]

/-- The packet made from a media message has the key of the session and a type
that a writer can send. -/
theorem getMediaPacket_ok {after : Bytes} {m : Message} {s : Session} {pkt : MediaPacket}
    (hmedia : isMedia m.typeId = true) (h : s.getMediaPacket after m = .ok pkt)
    (hne : pkt.buffer ≠ []) :
    pkt.key = s.req.key ∧ Heap.packetRoute pkt ≠ none ∧ carriesPacket after m = true := by
  rcases getMediaPacket_cases after m with ⟨fault, hall⟩ | ⟨pkt', hempty, hall⟩ |
    ⟨tsDelta, pkt', hroute, hpayload, hall⟩
  · rw [hall s] at h
    cases h
  · rw [hall s, Except.ok.injEq] at h
    rw [← h] at hne
    exact absurd hempty hne
  · rw [hall s, Except.ok.injEq] at h
    subst h
    refine ⟨rfl, ?_, ?_⟩
    · revert hroute
      unfold Heap.packetRoute fillPacket
      rcases pkt'.avType with _ | _ | _ | _ <;> simp
    · simpa [carriesPacket, hmedia, hall {}, fillPacket] using hpayload

/-- Whatever is sent before the handling does not matter to its effect. -/
theorem Effect.of_sameRequest {after : Bytes} {m : Message} {s t u : Session}
    (hst : SameRequest s t) (h : Effect after m t u) : Effect after m s u where
  base := by rw [h.base, hst.base]
  accepted publish items hacc := by rw [h.accepted publish items hacc, hst.req]
  other hnone := hst.req ▸ h.other hnone

theorem command_eq_none (after : Bytes) {m : Message} (h : m.typeId ≠ 20) :
    command after m = none := by
  simp [command, h]

theorem accepted_eq_none (after : Bytes) {m : Message} (h : m.typeId ≠ 20) :
    Session.accepted after m = none := by
  simp [Session.accepted, command_eq_none after h]

theorem handleRtmpControlMessage_effect (after : Bytes) {m : Message} (s : Session)
    (htype : m.typeId ≠ 20) : Effect after m s (s.handleRtmpControlMessage m).2 := by
  have hcmd := command_eq_none after htype
  have hacc := accepted_eq_none after htype
  unfold handleRtmpControlMessage
  split_ifs with h1 hlen h5 hlen5
  · have hann : announced m = none := by simp [announced, Nat.not_le.mpr hlen]
    exact effect_of_sameRequest hcmd hann (SameRequest.refl s)
  · refine ⟨?_, by simp [hacc], fun _ => SameMode.refl _⟩
    simp [chunkSizeAfter, announced, h1, Nat.not_lt.mp hlen, sendSetChunksize, rtmpSend,
      setChunkSize, SessionBase.setChunkSize]
  all_goals
    have hann : announced m = none := by simp [announced, h1]
    exact effect_of_sameRequest hcmd hann ⟨rfl, rfl⟩

/-- A control message is refused when it is too short. -/
theorem handleRtmpControlMessage_ret {m : Message} (s : Session) (htype : m.typeId ≠ 20)
    (after : Bytes) (h : (s.handleRtmpControlMessage m).1 = .error) :
    changes after m = false := by
  rw [changes_of_command_eq_none (command_eq_none after htype)]
  unfold handleRtmpControlMessage at h
  split_ifs at h with h1 hlen h5 hlen5
  · simp [announced, Nat.not_le.mpr hlen]
  · simp [announced, h1]

/-- The control message is too short for its type. -/
def controlRefused (m : Message) : Bool :=
  decide (m.payload.length < 4) && (m.typeId = 1 || m.typeId = 5)

theorem handleRtmpControlMessage_fst (m : Message) (s : Session) :
    (s.handleRtmpControlMessage m).1 = if controlRefused m then .error else .ok := by
  unfold handleRtmpControlMessage controlRefused
  by_cases h1 : m.typeId = 1
  · by_cases hlen : m.payload.length < 4
    · simp [h1, hlen]
    · simp [h1, hlen]
  · by_cases h5 : m.typeId = 5
    · by_cases hlen : m.payload.length < 4
      · simp [h5, hlen]
      · simp [h5, hlen]
    · simp [h1, h5]

/-- A message that changes nothing was not accepted as a command. -/
theorem accepted_of_not_changes {after : Bytes} {m : Message} (h : changes after m = false) :
    Session.accepted after m = none := by
  simp only [changes, Bool.or_eq_false_iff] at h
  simpa using h.1.1

/-- A packet without data stands for a message that is refused, whatever the
session. -/
theorem not_carriesPacket_of_empty {after : Bytes} {m : Message} {s : Session} {pkt : MediaPacket}
    (h : s.getMediaPacket after m = .ok pkt) (hempty : pkt.buffer.dataLen = 0) :
    carriesPacket after m = false := by
  have hnil : pkt.buffer = [] := List.length_eq_zero_iff.mp hempty
  rcases getMediaPacket_cases after m with ⟨fault, hall⟩ | ⟨pkt', hempty', hall⟩ |
    ⟨tsDelta, pkt', -, hpayload, hall⟩
  · simp [carriesPacket, hall {}]
  · simp [carriesPacket, hall {}, hempty']
  · rw [hall s, Except.ok.injEq] at h
    rw [← h] at hnil
    exact absurd hnil hpayload

theorem carriesPacket_of_not_isMedia (after : Bytes) {m : Message}
    (h : isMedia m.typeId = false) : carriesPacket after m = false := by
  simp [carriesPacket, h]

/-- Control messages are not media. -/
theorem isMedia_of_le {typeId : UInt8} (h : typeId ≤ 6) : isMedia typeId = false := by
  rw [UInt8.le_iff_toNat_le] at h
  have hne : ∀ n : UInt8, 6 < n.toNat → typeId ≠ n := by
    rintro n hn rfl
    exact absurd hn (Nat.not_lt.mpr h)
  simp [isMedia, hne 9 (by decide), hne 8 (by decide), hne 18 (by decide), hne 15 (by decide)]

/-- Control messages are not commands. -/
theorem typeId_ne_of_control {m : Message} (h : 1 ≤ m.typeId ∧ m.typeId ≤ 6) : m.typeId ≠ 20 := by
  intro heq
  rw [heq] at h
  exact absurd h.2 (by decide)

/-- A message that is neither a control message nor a command changes
nothing. -/
theorem effect_of_neither {after : Bytes} {m : Message} {s t : Session}
    (hctrl : ¬ (1 ≤ m.typeId ∧ m.typeId ≤ 6)) (hcmd : m.typeId ≠ 20) (h : SameRequest s t) :
    Effect after m s t ∧ changes after m = false := by
  have htype : m.typeId ≠ 1 := by
    intro heq
    rw [heq] at hctrl
    exact hctrl (by decide)
  have hann : announced m = none := by simp [announced, htype]
  have hnone := command_eq_none after hcmd
  exact ⟨effect_of_sameRequest hnone hann h, by simp [changes_of_command_eq_none hnone, hann]⟩

/-- **What a message does.**  The action that is left is to play, when the
session is in play mode after a command, or to publish the packet that was
made.  A message that changes something is not refused. -/
theorem handleMessage_spec {after : Bytes} {m : Message} {s s' : Session} {ret : RtmpRet}
    {action : Action} (h : s.handleMessage after m = .ok (ret, action, s')) :
    Effect after m s s' ∧ (ret = .error → action = .none ∧ changes after m = false) ∧
      (action = .play → s'.req.isReady = true ∧ s'.req.publishFlag = false) ∧
      (∀ pkt, action = .publish pkt → s'.req = s.req ∧ pkt.key = s.req.key ∧
        Heap.packetRoute pkt ≠ none ∧ carriesPacket after m = true) ∧
      (carriesPacket after m = true → ∃ pkt, action = .publish pkt) := by
  have hack := sameRequest_sendRtmpAck (UInt32.ofNat m.payload.length) s
  unfold handleMessage at h
  generalize s.sendRtmpAck (UInt32.ofNat m.payload.length) = t at h hack
  -- only media messages carry packets
  have hcarries : isMedia m.typeId = false → carriesPacket after m = true →
      ∃ pkt, action = .publish pkt := by
    intro hno hyes
    rw [carriesPacket_of_not_isMedia after hno] at hyes
    cases hyes
  split_ifs at h with hctrl hcmd hamf3 hmedia
  · -- control messages
    have htype := typeId_ne_of_control hctrl
    have heffect := (handleRtmpControlMessage_effect after t htype).of_sameRequest hack
    have hret := handleRtmpControlMessage_ret t htype after
    cases h
    exact ⟨heffect, fun herr => ⟨rfl, hret herr⟩, by simp, by simp,
      hcarries (isMedia_of_le hctrl.2)⟩
  · -- commands
    obtain ⟨⟨ret₁, s₁⟩, h₁, h⟩ := Run.exists_of_bind_ok h
    obtain ⟨heffect, hchanges⟩ := handleClientCommandMessage_effect hcmd h₁
    replace heffect := heffect.of_sameRequest hack
    have hno := hcarries (by rw [hcmd]; decide)
    simp only at h
    split_ifs at h with herr hplay
    · cases h
      refine ⟨heffect, fun _ => ⟨rfl, ?_⟩, by simp, by simp, hno⟩
      rw [← Bool.not_eq_true]
      exact fun hyes => hchanges hyes herr
    · cases h
      rw [Bool.and_eq_true, Bool.not_eq_true'] at hplay
      exact ⟨heffect, fun he => absurd he herr, fun _ => hplay, by simp, hno⟩
    · cases h
      exact ⟨heffect, fun he => absurd he herr, by simp, by simp, hno⟩
  · -- AMF3 is refused
    obtain ⟨heffect, hchanges⟩ := effect_of_neither hctrl hcmd hack
    cases h
    exact ⟨heffect, fun _ => ⟨rfl, hchanges⟩, by simp, by simp,
      hcarries (by rw [hamf3]; decide)⟩
  · -- audio, video and metadata
    obtain ⟨heffect, hchanges⟩ := effect_of_neither hctrl hcmd hack
    obtain ⟨pkt, hpkt, h⟩ := Run.exists_of_bind_ok h
    split_ifs at h with hempty
    · cases h
      have hno := not_carriesPacket_of_empty hpkt hempty
      exact ⟨heffect, fun _ => ⟨rfl, hchanges⟩, by simp, by simp, by simp [hno]⟩
    · cases h
      have hne : pkt.buffer ≠ [] := fun heq => hempty (by simp [heq])
      obtain ⟨hkey, hroute, hcarries⟩ := getMediaPacket_ok hmedia hpkt hne
      refine ⟨heffect, by simp, by simp, ?_, fun _ => ⟨pkt, rfl⟩⟩
      intro pkt' heq
      cases heq
      exact ⟨hack.req, hkey.trans (congrArg _ hack.req), hroute, hcarries⟩
  · cases h
    refine ⟨(effect_of_neither hctrl hcmd hack).1, by simp, by simp, by simp, ?_⟩
    exact hcarries (by simpa using hmedia)

end Session

end MediaServer
