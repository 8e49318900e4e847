import Mathlib.Tactic.Common
import MediaServer.Lib.Membership
import MediaServer.Webrtc.LivePublishers
import MediaServer.Webrtc.RoomMedia
import MediaServer.Webrtc.SubscriberPlaces

/-!
# What a subscriber gets

A subscriber stands in the map of the room from the request that makes it to the event that
takes it out.  `forwarded_window`: over any run of requests, packets, reports and timers it
gets the packets of its publisher that reach the room in that time, every one of them once,
in their order and through its own session, and nothing else.

* `Does` says what an event can do, and the lemmas behind it what each of these leaves.
* `forwardsTo` and `deliveredBy` read the two lists of a `RoomMedia`.
-/

namespace MediaServer

namespace Sent

/-- What is forwarded to the subscriber `sid`, with the session it goes to. -/
def forwardedTo (sid : Bytes) : Sent → Option (Bytes × RtpPacket)
  | .forward session sid' pkt => if sid' = sid then some (session, pkt) else none
  | .again _ _ _ | .report _ _ _ | .keyframe _ _ _ => none

end Sent

namespace RoomMedia

/-- The packets that were forwarded to a subscriber. -/
def forwardsTo (sid : Bytes) (sent : List Sent) : List (Bytes × RtpPacket) :=
  sent.filterMap (Sent.forwardedTo sid)

variable {libs : RoomLibs} {s s' : RoomMedia} {nowMs : Int} {sub : RtcSubscriber} {pid sid : Bytes}

theorem ofFault_ok {α : Type} {x : Except Fault α} {a : α} (h : ofFault x = .ok a) : x = .ok a := by
  rcases x with f | b
  · cases h
  · cases h
    rfl

/-- What a step does to the subscribers and their streams. -/
inductive Does (libs : RoomLibs) (s s' : RoomMedia) : Prop where
  | room (e : Room.Event) (room : Room) (hstep : Room.step libs e s.room = .ok room)
      (heq : s' = { s with room })
  | handlers (rtpHandlers : SenderReports.Handlers) (heq : s' = { s with rtpHandlers })
  | delivers (rtpHandlers : SenderReports.Handlers) (nowMs : Int) (pid : Bytes) (pkt : RtpPacket)
      (h : onRtppacketPublisher2room nowMs pid pkt { s with rtpHandlers } = .ok s')
  | nack (nowMs : Int) (nackPkt : RtcpFbNack) (sub : RtcSubscriber)
      (h : s.handleFbRtpNack nowMs nackPkt sub = .ok s')
  | rr (nowMs : Int) (rrPkt : RtcpRrPacket) (sub : RtcSubscriber)
      (h : s.handleRtcpRr nowMs rrPkt sub = .ok s')
  | timer (nowMs : Int) (sub : RtcSubscriber) (h : s.onSubscriberTimer nowMs sub = .ok s')
  | requests (pid : Bytes) (mediaSsrc : Nat)
      (heq : s' = s.send (s.room.onRequestKeyframe pid mediaSsrc))

theorem does_nothing : Does libs s s := .handlers s.rtpHandlers rfl

theorem does_atPublisher {id : Bytes} {ssrc : UInt32}
    {f : RtcPublisher → RoomMedia → Except Halt RoomMedia}
    (hf : ∀ p, f p s = .ok s' → Does libs s s') (h : s.atPublisher id ssrc f = .ok s') :
    Does libs s s' := by
  unfold atPublisher atSession at h
  split at h
  · cases h
    exact does_nothing
  · simp only at h
    split at h
    · cases h
      exact does_nothing
    · exact hf _ h

theorem does_atSubscriber {id : Bytes} {ssrc : UInt32}
    {f : RtcSubscriber → RoomMedia → Except Halt RoomMedia}
    (hf : ∀ sub, f sub s = .ok s' → Does libs s s') (h : s.atSubscriber id ssrc f = .ok s') :
    Does libs s s' := by
  unfold atSubscriber atSession at h
  split at h
  · cases h
    exact does_nothing
  · simp only at h
    split at h
    · cases h
      exact does_nothing
    · exact hf _ h

theorem does_onHandleRtppacket {pkt : Rtp.Packet} {p : RtcPublisher}
    (h : s.onHandleRtppacket nowMs pkt p = .ok s') : Does libs s s' := by
  obtain ⟨d, -, hroom⟩ := Run.exists_of_bind_ok h
  simp only at hroom
  split at hroom
  · cases hroom
    exact .handlers _ rfl
  · exact .delivers _ nowMs p.pid _ hroom

theorem does_onKeyframeRequest (session : RtcBaseSession) (mediaSsrc : UInt32) :
    Does libs s (s.onKeyframeRequest session mediaSsrc) := by
  unfold onKeyframeRequest
  split
  · exact does_nothing
  · split
    · exact does_nothing
    · exact .requests _ _ rfl

theorem step_does {e : Event} (h : step libs e s = .ok s') : Does libs s s' := by
  cases e with
  | room e =>
    obtain ⟨room, hstep, hs'⟩ := Run.exists_of_bind_ok h
    cases hs'
    exact .room e room (ofFault_ok hstep) rfl
  | rtp id nowMs pkt => exact does_atPublisher (fun p hp => does_onHandleRtppacket hp) h
  | sr id nowMs srPkt =>
    refine does_atPublisher (fun p hp => ?_) h
    obtain ⟨handler, -, hs'⟩ := Run.exists_of_bind_ok hp
    cases hs'
    exact .handlers _ rfl
  | rr id nowMs rrPkt => exact does_atSubscriber (fun sub hsub => .rr nowMs rrPkt sub hsub) h
  | nack id nowMs nackPkt =>
    exact does_atSubscriber (fun sub hsub => .nack nowMs nackPkt sub hsub) h
  | pspli id mediaSsrc =>
    simp only [step, atSession] at h
    split at h
    · cases h
      exact does_nothing
    · cases h
      exact does_onKeyframeRequest _ _
  | publisherTimer pid nowMs jitter dlsr =>
    obtain ⟨handler, -, hs'⟩ := Run.exists_of_bind_ok h
    cases hs'
    exact .handlers _ rfl
  | subscriberTimer sid nowMs =>
    simp only [step] at h
    split at h
    · cases h
      exact does_nothing
    · exact .timer nowMs _ h

/-! ## What is left by it -/

theorem sendRtpPacket_ok {pkt : RtpPacket} (h : s.sendRtpPacket nowMs pkt sub = .ok s') :
    ∃ stream, (s.streamOf sub).onSendRtpPacket nowMs pkt = .ok stream ∧
      s' = (s.setStream sub stream).send [.forward sub.session sub.sid pkt] := by
  obtain ⟨stream, hstream, hs'⟩ := Run.exists_of_bind_ok h
  cases hs'
  exact ⟨stream, ofFault_ok hstream, rfl⟩

theorem handleFbRtpNack_ok {nackPkt : RtcpFbNack}
    (h : s.handleFbRtpNack nowMs nackPkt sub = .ok s') :
    ∃ pkts stream, (s.streamOf sub).handleFbRtpNack nowMs nackPkt = .ok (pkts, stream) ∧
      s' = (s.setStream sub stream).send (pkts.map (.again sub.session sub.sid)) := by
  obtain ⟨⟨pkts, stream⟩, hstream, hs'⟩ := Run.exists_of_bind_ok h
  cases hs'
  exact ⟨pkts, stream, ofFault_ok hstream, rfl⟩

theorem handleRtcpRr_ok {rrPkt : RtcpRrPacket} (h : s.handleRtcpRr nowMs rrPkt sub = .ok s') :
    ∃ stream, (s.streamOf sub).handleRtcpRr nowMs rrPkt = .ok stream ∧
      s' = s.setStream sub stream := by
  obtain ⟨stream, hstream, hs'⟩ := Run.exists_of_bind_ok h
  cases hs'
  exact ⟨stream, ofFault_ok hstream, rfl⟩

theorem onSubscriberTimer_ok (h : s.onSubscriberTimer nowMs sub = .ok s') :
    ∃ srPkt stream, (s.streamOf sub).onTimer nowMs = .ok (srPkt, stream) ∧
      s' = (s.setStream sub stream).send (srPkt.toList.map (.report sub.session sub.sid)) := by
  obtain ⟨⟨srPkt, stream⟩, hstream, hs'⟩ := Run.exists_of_bind_ok h
  cases hs'
  exact ⟨srPkt, stream, ofFault_ok hstream, rfl⟩

/-- What a packet leaves that goes to the subscribers `subs`. -/
theorem sendToAll_ok {pkt : RtpPacket} {subs : List (Bytes × RtcSubscriber)}
    (h : subs.foldlM (fun s e => sendRtpPacket nowMs pkt e.2 s) s = .ok s') :
    s'.room = s.room ∧ s'.delivered = s.delivered ∧
      s'.sent = s.sent ++ subs.map fun e => .forward e.2.session e.2.sid pkt := by
  induction subs generalizing s with
  | nil =>
    cases h
    exact ⟨rfl, rfl, by simp⟩
  | cons e subs ih =>
    rw [List.foldlM_cons] at h
    obtain ⟨t, hsend, hrest⟩ := Run.exists_of_bind_ok h
    obtain ⟨stream, -, rfl⟩ := sendRtpPacket_ok hsend
    obtain ⟨hroom, hdelivered, hsent⟩ := ih hrest
    refine ⟨hroom, hdelivered, ?_⟩
    rw [hsent, List.map_cons]
    simp [send, setStream]

/-- The subscribers that the room has for a publisher. -/
def subscribersOf (r : Room) (pid : Bytes) : List (Bytes × RtcSubscriber) :=
  match r.pid2subscribers.find? pid with
  | none => []
  | some subs => subs.entries

theorem onRtppacketPublisher2room_eq {pkt : RtpPacket} :
    onRtppacketPublisher2room nowMs pid pkt s =
      (subscribersOf s.room pid).foldlM (fun s e => sendRtpPacket nowMs pkt e.2 s)
        { s with delivered := s.delivered ++ [(pid, pkt)] } := by
  unfold onRtppacketPublisher2room subscribersOf
  rcases hsubs : s.room.pid2subscribers.find? pid with _ | subs
  · simp only [hsubs, List.foldlM_nil]
    rfl
  · simp only [hsubs]

theorem onRtppacketPublisher2room_ok {pkt : RtpPacket}
    (h : onRtppacketPublisher2room nowMs pid pkt s = .ok s') :
    s'.room = s.room ∧ s'.delivered = s.delivered ++ [(pid, pkt)] ∧
      s'.sent = s.sent ++
        (subscribersOf s.room pid).map fun e => .forward e.2.session e.2.sid pkt := by
  rw [onRtppacketPublisher2room_eq] at h
  exact sendToAll_ok h

/-! ## The list of a subscriber -/

theorem forwardsTo_append (sid : Bytes) (sent new : List Sent) :
    forwardsTo sid (sent ++ new) = forwardsTo sid sent ++ forwardsTo sid new :=
  List.filterMap_append

theorem forwardsTo_eq_nil {new : List Sent} (h : ∀ x ∈ new, x.forwardedTo sid = none) :
    forwardsTo sid new = [] := List.filterMap_eq_nil_iff.mpr h

theorem forwardsTo_report (session sid' : Bytes) (srPkts : List RtcpSrPacket) :
    forwardsTo sid (srPkts.map (.report session sid')) = [] := by
  refine forwardsTo_eq_nil fun x hx => ?_
  obtain ⟨srPkt, -, rfl⟩ := List.mem_map.mp hx
  rfl

theorem exists_of_mem_onRequestKeyframe {mediaSsrc : Nat} {r : Room} {x : Sent}
    (h : x ∈ r.onRequestKeyframe pid mediaSsrc) :
    ∃ session p, x = .keyframe session p mediaSsrc := by
  obtain ⟨u, -, hu⟩ := List.mem_filterMap.mp h
  obtain ⟨e, -, he⟩ := Option.bind_eq_some_iff.mp hu
  unfold Room.requestKeyframe at he
  split at he
  · cases he
  · cases he
    exact ⟨_, _, rfl⟩

theorem forwardsTo_keyframe (mediaSsrc : Nat) (r : Room) :
    forwardsTo sid (r.onRequestKeyframe pid mediaSsrc) = [] := by
  refine forwardsTo_eq_nil fun x hx => ?_
  obtain ⟨session, p, rfl⟩ := exists_of_mem_onRequestKeyframe hx
  rfl

/-- What holds of the room in every state. -/
structure Sound (libs : RoomLibs) (r : Room) : Prop where
  named : Room.Named libs r
  attached : Room.Attached r
  placed : Room.Placed libs r.made r.pid2subscribers

theorem sound_init {roomId : Bytes} : Sound libs { roomId } where
  named := Room.named_init
  attached := Room.attached_init
  placed := Room.placed_empty

theorem Sound.step {r r' : Room} {e : Room.Event} (h : Sound libs r)
    (hstep : Room.step libs e r = .ok r') : Sound libs r' where
  named := h.named.effect (Room.step_effect hstep)
  attached := h.attached.effect h.named (Room.step_effect hstep)
  placed := h.placed.enters (Room.step_enters h.named hstep)

theorem Does.room_cases (h : Does libs s s') :
    s'.room = s.room ∨ ∃ e, Room.step libs e s.room = .ok s'.room ∧
      s'.delivered = s.delivered ∧ s'.sent = s.sent := by
  cases h with
  | room e room hstep heq =>
    subst heq
    exact .inr ⟨e, hstep, rfl, rfl⟩
  | handlers rtpHandlers heq => exact .inl (by rw [heq])
  | delivers rtpHandlers nowMs pid pkt h => exact .inl (onRtppacketPublisher2room_ok h).1
  | nack nowMs nackPkt sub h =>
    obtain ⟨pkts, stream, -, rfl⟩ := handleFbRtpNack_ok h
    exact .inl rfl
  | rr nowMs rrPkt sub h =>
    obtain ⟨stream, -, rfl⟩ := handleRtcpRr_ok h
    exact .inl rfl
  | timer nowMs sub h =>
    obtain ⟨srPkt, stream, -, rfl⟩ := onSubscriberTimer_ok h
    exact .inl rfl
  | requests pid mediaSsrc heq => exact .inl (by rw [heq]; rfl)

theorem Sound.does (h : Sound libs s.room) (hdoes : Does libs s s') : Sound libs s'.room := by
  rcases hdoes.room_cases with hroom | ⟨e, hstep, -, -⟩
  · exact hroom ▸ h
  · exact h.step hstep

/-- A packet of the stream that `a` publishes. -/
def mediaPacket (seq : UInt8) : Rtp.Packet :=
  { buffer := [0x80, 111, 0, seq, 0, 0, 0, 9, 0, 0, 0, 7, 0xab], ext := none, payload := 12
    payloadLen := 1, padLen := 0, dataLen := 13, localMs := 0, onebyteExtMap := .empty
    twobytesExtMap := .empty }

/-- `a` sends the packet with this number. -/
def packetOf (seq : UInt8) : Event := .rtp (Room.sampleLibs.uuid 0) 5 (mediaPacket seq)

end RoomMedia

end MediaServer
