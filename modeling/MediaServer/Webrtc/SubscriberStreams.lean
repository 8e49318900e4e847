import Mathlib.Algebra.Ring.Nat
import MediaServer.Webrtc.Forwarding
import MediaServer.Webrtc.Retransmission

/-!
# What a subscriber answers and reports

The stream of a subscriber is made of what has been forwarded to it: the copies in its
buffer are the last packets of their numbers, and its statistics count all of them.

* `Follows` says so of one stream, with a lemma for each of its operations.
* `retransmitted_was_forwarded`: what is sent again for a NACK is the last packet of that
  number that was forwarded to the same subscriber before.
* `reports_count_forwarded`: a sender report counts the packets and the bytes that were
  forwarded to the subscriber before, without those that were sent again.
-/

namespace MediaServer

namespace RtpSendReports

variable {nowMs : Int} {pkts : List RtpPacket} {pkt : RtpPacket} {s s' : RtpSendReports}

/-! ## One stream -/

/-- The bytes of the last packet with the number `seq`. -/
def lastData (seq : UInt16) (pkts : List RtpPacket) : Option Bytes :=
  ((pkts.filter fun p => decide (p.getSeq = seq)).getLast?).map RtpPacket.data

/-- The bytes of all the packets. -/
def totalBytes (pkts : List RtpPacket) : Nat := (pkts.map fun p => p.data.length).sum

theorem lastData_concat (seq : UInt16) (pkts : List RtpPacket) (pkt : RtpPacket) :
    lastData seq (pkts ++ [pkt]) =
      if pkt.getSeq = seq then some pkt.data else lastData seq pkts := by
  unfold lastData
  rw [List.filter_append]
  by_cases hseq : pkt.getSeq = seq
  · simp [hseq]
  · simp [hseq]

/-- The stream has been given the packets `pkts`. -/
structure Follows (s : RtpSendReports) (pkts : List RtpPacket) : Prop where
  stored : ∀ seq copy, s.rtpBufferMap.find? seq = some copy →
    copy.packet.getSeq = seq ∧ lastData seq pkts = some copy.packet.data
  count : s.sendStatics.count = pkts.length
  bytes : s.sendStatics.bytes = totalBytes pkts

/-- The same copies and statistics. -/
theorem Follows.of_same (h : Follows s pkts) (hmap : s'.rtpBufferMap = s.rtpBufferMap)
    (hcount : s'.sendStatics.count = s.sendStatics.count)
    (hbytes : s'.sendStatics.bytes = s.sendStatics.bytes) : Follows s' pkts where
  stored := by
    rw [hmap]
    exact h.stored
  count := by rw [hcount, h.count]
  bytes := by rw [hbytes, h.bytes]

/-- What stands in the buffer behind `on_send_rtp_packet`, and what is counted. -/
theorem stored_of_onSendRtpPacket (h : s.onSendRtpPacket nowMs pkt = .ok s') :
    (∀ seq copy, s'.rtpBufferMap.find? seq = some copy →
      (seq = pkt.getSeq ∧ copy.packet = pkt.clone nowMs) ∨
        (seq ≠ pkt.getSeq ∧ s.rtpBufferMap.find? seq = some copy)) ∧
      s'.sendStatics = s.sendStatics.update pkt.data.length pkt.localMs := by
  obtain ⟨stream, hstream, hs'⟩ := Run.exists_of_bind_ok h
  cases hs'
  rw [RtpSendStream.onSendRtpPacket, RtpSendStream.saveBuffer] at hstream
  obtain ⟨result, hevict, hok⟩ := Run.exists_of_bind_ok hstream
  cases hok
  refine ⟨fun seq copy hcopy => ?_, rfl⟩
  have hfound := find?_of_evict hevict hcopy
  rw [OrderedMap.find?_assign] at hfound
  split_ifs at hfound with hseq
  · cases hfound
    exact .inl ⟨hseq, rfl⟩
  · refine .inr ⟨hseq, ?_⟩
    rcases hold : s.rtpBufferMap.find? pkt.getSeq with _ | w
    · simpa only [hold] using hfound
    · simpa only [hold, OrderedMap.find?_erase_of_ne hseq] using hfound

theorem update_count_bytes (statics : StreamStatics) (bytes : Nat) (ms : Int) :
    (statics.update bytes ms).count = statics.count + 1 ∧
      (statics.update bytes ms).bytes = statics.bytes + bytes := by
  unfold StreamStatics.update
  simp only
  split
  · exact ⟨rfl, rfl⟩
  · exact ⟨rfl, rfl⟩

theorem Follows.send (h : Follows s pkts) (hsend : s.onSendRtpPacket nowMs pkt = .ok s') :
    Follows s' (pkts ++ [pkt]) := by
  obtain ⟨hstored, hstatics⟩ := stored_of_onSendRtpPacket hsend
  obtain ⟨hcount, hbytes⟩ := update_count_bytes s.sendStatics pkt.data.length pkt.localMs
  refine ⟨fun seq copy hcopy => ?_, ?_, ?_⟩
  · rw [lastData_concat]
    rcases hstored seq copy hcopy with ⟨rfl, hpacket⟩ | ⟨hseq, hold⟩
    · rw [hpacket, if_pos rfl]
      exact ⟨rfl, rfl⟩
    · rw [if_neg (Ne.symm hseq)]
      exact h.stored seq copy hold
  · rw [hstatics, hcount, h.count, List.length_append, List.length_singleton]
  · rw [hstatics, hbytes, h.bytes]
    simp [totalBytes]

/-- A copy keeps its packet when it is sent again. -/
theorem Follows.setPacket (h : Follows s pkts) {seq : UInt16} {copy copy' : NackPacket}
    (hcopy : s.rtpBufferMap.find? seq = some copy) (hsame : copy'.packet = copy.packet) :
    Follows (s.setPacket seq copy') pkts := by
  refine ⟨fun k w hw => ?_, h.count, h.bytes⟩
  rw [find?_setPacket] at hw
  split at hw
  · rename_i hk
    cases hw
    rw [hsame, hk]
    exact h.stored seq copy hcopy
  · exact h.stored k w hw

theorem Follows.retransmit (h : Follows s pkts) {seq : UInt16} {sent : Option RtpPacket}
    (hturn : s.retransmit nowMs seq = .ok (sent, s')) :
    Follows s' pkts ∧ ∀ p ∈ sent, lastData p.getSeq pkts = some p.data := by
  have hanswer : ∀ copy, s.rtpBufferMap.find? seq = some copy →
      ∀ p ∈ some copy.packet, lastData p.getSeq pkts = some p.data := by
    intro copy hcopy p hp
    cases hp
    obtain ⟨hseq, hlast⟩ := h.stored seq copy hcopy
    rw [hseq]
    exact hlast
  cases retransmit_cases hturn with
  | idle hidle => exact ⟨h, by simp⟩
  | first hfind hnever => exact ⟨h.setPacket hfind rfl, hanswer _ hfind⟩
  | spent hfind hbefore hwaited hcount => exact ⟨h.setPacket hfind rfl, by simp⟩
  | again hfind hbefore hwaited hcount => exact ⟨h.setPacket hfind rfl, hanswer _ hfind⟩

theorem Follows.retransmitAll {lostSeqs : List UInt16} {sent : List RtpPacket}
    (h : Follows s pkts) (hall : s.retransmitAll nowMs lostSeqs = .ok (sent, s')) :
    Follows s' pkts ∧ ∀ p ∈ sent, lastData p.getSeq pkts = some p.data := by
  induction lostSeqs generalizing s sent with
  | nil =>
    cases hall
    exact ⟨h, by simp⟩
  | cons seq lostSeqs ih =>
    obtain ⟨⟨first, t⟩, hturn, hrest⟩ := Run.exists_of_bind_ok hall
    obtain ⟨⟨more, t'⟩, hmore, hok⟩ := Run.exists_of_bind_ok hrest
    cases hok
    obtain ⟨ht, hfirst⟩ := h.retransmit hturn
    obtain ⟨ht', hothers⟩ := ih ht hmore
    refine ⟨ht', fun p hp => ?_⟩
    rcases List.mem_append.mp hp with hp | hp
    · exact hfirst p (Option.mem_toList.mp hp)
    · exact hothers p hp

theorem Follows.nack {nackPkt : RtcpFbNack} {sent : List RtpPacket} (h : Follows s pkts)
    (hnack : s.handleFbRtpNack nowMs nackPkt = .ok (sent, s')) :
    Follows s' pkts ∧ ∀ p ∈ sent, lastData p.getSeq pkts = some p.data := by
  obtain ⟨lostSeqs, -, hall⟩ := Run.exists_of_bind_ok hnack
  exact h.retransmitAll hall

theorem Follows.rr {rrPkt : RtcpRrPacket} (h : Follows s pkts)
    (hrr : s.handleRtcpRr nowMs rrPkt = .ok s') : Follows s' pkts := by
  have hstatics : s'.sendStatics = s.sendStatics := by
    unfold handleRtcpRr at hrr
    simp only at hrr
    split at hrr
    · cases hrr
      rfl
    · obtain ⟨ntp, -, hs'⟩ := Run.exists_of_bind_ok hrr
      cases hs'
      rfl
  exact h.of_same (rtpBufferMap_handleRtcpRr hrr) (by rw [hstatics]) (by rw [hstatics])

theorem getRtcpSr_counts {srPkt : RtcpSrPacket} (h : s.getRtcpSr nowMs = .ok srPkt) :
    srPkt.pktCount = UInt32.ofNat s.sendStatics.count ∧
      srPkt.bytesCount = UInt32.ofNat s.sendStatics.bytes := by
  obtain ⟨ntp, -, hsr⟩ := Run.exists_of_bind_ok h
  cases hsr
  exact ⟨rfl, rfl⟩

/-- What the timer leaves of the statistics, and what it reports of them. -/
theorem onTimer_statics {r : Option RtcpSrPacket × RtpSendReports} (h : s.onTimer nowMs = .ok r) :
    (r.2.sendStatics.count = s.sendStatics.count ∧ r.2.sendStatics.bytes = s.sendStatics.bytes) ∧
      ∀ srPkt ∈ r.1, srPkt.pktCount = UInt32.ofNat s.sendStatics.count ∧
        srPkt.bytesCount = UInt32.ofNat s.sendStatics.bytes := by
  rw [onTimer] at h
  -- the statistics have been looked at or not, and a report is due or not
  split_ifs at h
  · obtain ⟨srPkt, hsr, hr⟩ := Run.exists_of_bind_ok h
    cases hr
    exact ⟨⟨rfl, rfl⟩, fun sr hmem => by cases hmem; exact getRtcpSr_counts hsr⟩
  · cases h
    exact ⟨⟨rfl, rfl⟩, by simp⟩
  · obtain ⟨srPkt, hsr, hr⟩ := Run.exists_of_bind_ok h
    cases hr
    exact ⟨⟨rfl, rfl⟩, fun sr hmem => by cases hmem; exact getRtcpSr_counts hsr⟩
  · cases h
    exact ⟨⟨rfl, rfl⟩, by simp⟩

theorem Follows.timer {srPkt : Option RtcpSrPacket} (h : Follows s pkts)
    (htimer : s.onTimer nowMs = .ok (srPkt, s')) :
    Follows s' pkts ∧ ∀ sr ∈ srPkt, sr.pktCount = UInt32.ofNat pkts.length ∧
      sr.bytesCount = UInt32.ofNat (totalBytes pkts) := by
  obtain ⟨⟨hcount, hbytes⟩, hreport⟩ := onTimer_statics htimer
  refine ⟨h.of_same (rtpBufferMap_onTimer htimer) hcount hbytes, fun sr hsr => ?_⟩
  rw [← h.count, ← h.bytes]
  exact hreport sr hsr

end RtpSendReports

namespace RoomMedia

open RtpSendReports

variable {libs : RoomLibs} {s s' : RoomMedia} {nowMs : Int} {sub : RtcSubscriber} {sid : Bytes}
  {sent new : List Sent} {stream : RtpSendReports}

/-! ## The streams of a room -/

/-- The packets that are forwarded to the subscriber `sid`. -/
def packetsTo (sid : Bytes) (sent : List Sent) : List RtpPacket :=
  (forwardsTo sid sent).map Prod.snd

theorem packetsTo_append (sid : Bytes) (sent new : List Sent) :
    packetsTo sid (sent ++ new) = packetsTo sid sent ++ packetsTo sid new := by
  rw [packetsTo, forwardsTo_append, List.map_append, packetsTo, packetsTo]

theorem packetsTo_of_forwardsTo (h : forwardsTo sid new = []) :
    packetsTo sid (sent ++ new) = packetsTo sid sent := by
  rw [packetsTo_append, packetsTo, packetsTo, h, List.map_nil, List.append_nil]

/-- The reason of a packet that is sent again, and of a report, in what was sent before. -/
def Reason (before : List Sent) : Sent → Prop
  | .forward _ _ _ => True
  | .again _ sid pkt => lastData pkt.getSeq (packetsTo sid before) = some pkt.data
  | .report _ sid srPkt =>
    srPkt.pktCount = UInt32.ofNat (packetsTo sid before).length ∧
      srPkt.bytesCount = UInt32.ofNat (totalBytes (packetsTo sid before))
  | .keyframe _ _ _ => True

/-- Every stream has been given what was forwarded to its subscriber, and everything that
was sent has its reason. -/
structure Answers (s : RoomMedia) : Prop where
  untouched : ∀ sid, s.streams sid = none → packetsTo sid s.sent = []
  follows : ∀ sid stream, s.streams sid = some stream → Follows stream (packetsTo sid s.sent)
  justified : Run.Justified Reason s.sent

theorem follows_newStream (sub : RtcSubscriber) : Follows sub.newStream [] where
  stored seq copy h := by cases h
  count := rfl
  bytes := rfl

theorem Answers.streamOf (h : Answers s) (sub : RtcSubscriber) :
    Follows (s.streamOf sub) (packetsTo sub.sid s.sent) := by
  unfold RoomMedia.streamOf
  rcases hstream : s.streams sub.sid with _ | stream
  · rw [h.untouched sub.sid hstream]
    exact follows_newStream sub
  · exact h.follows sub.sid stream hstream

/-- What the subscriber `sub` sends, with the stream that this leaves. -/
theorem Answers.send (h : Answers s) (hothers : ∀ sid, sid ≠ sub.sid → forwardsTo sid new = [])
    (hfollows : Follows stream (packetsTo sub.sid (s.sent ++ new)))
    (hreason : Run.Justified Reason (s.sent ++ new)) :
    Answers ((s.setStream sub stream).send new) := by
  refine ⟨fun sid hnone => ?_, fun sid stream' hsome => ?_, hreason⟩
  · have hsid : sid ≠ sub.sid := by
      rintro rfl
      simp [RoomMedia.send, setStream] at hnone
    show packetsTo sid (s.sent ++ new) = []
    rw [packetsTo_of_forwardsTo (hothers sid hsid)]
    refine h.untouched sid ?_
    simpa [RoomMedia.send, setStream, Function.update_of_ne hsid] using hnone
  · show Follows stream' (packetsTo sid (s.sent ++ new))
    by_cases hsid : sid = sub.sid
    · subst hsid
      have heq : stream = stream' := by simpa [RoomMedia.send, setStream] using hsome
      exact heq ▸ hfollows
    · rw [packetsTo_of_forwardsTo (hothers sid hsid)]
      refine h.follows sid stream' ?_
      simpa [RoomMedia.send, setStream, Function.update_of_ne hsid] using hsome

/-- Something that nobody's stream sends. -/
theorem Answers.send_free (h : Answers s) (hnone : ∀ sid, forwardsTo sid new = [])
    (hreason : Run.Justified Reason (s.sent ++ new)) : Answers (s.send new) where
  untouched sid hstream := by
    show packetsTo sid (s.sent ++ new) = []
    rw [packetsTo_of_forwardsTo (hnone sid)]
    exact h.untouched sid hstream
  follows sid stream hstream := by
    show Follows stream (packetsTo sid (s.sent ++ new))
    rw [packetsTo_of_forwardsTo (hnone sid)]
    exact h.follows sid stream hstream
  justified := hreason

theorem Answers.sendRtpPacket {pkt : RtpPacket} (h : Answers s)
    (hsend : s.sendRtpPacket nowMs pkt sub = .ok s') : Answers s' := by
  obtain ⟨stream, hstream, rfl⟩ := sendRtpPacket_ok hsend
  have hself : packetsTo sub.sid [.forward sub.session sub.sid pkt] = [pkt] := by
    simp [packetsTo, forwardsTo, Sent.forwardedTo]
  refine h.send (fun sid hsid => ?_) ?_ (h.justified.concat trivial)
  · simp [forwardsTo, Sent.forwardedTo, Ne.symm hsid]
  · rw [packetsTo_append, hself]
    exact (h.streamOf sub).send hstream

theorem Answers.sendToAll {pkt : RtpPacket} {subs : List (Bytes × RtcSubscriber)} (h : Answers s)
    (hall : subs.foldlM (fun s e => RoomMedia.sendRtpPacket nowMs pkt e.2 s) s = .ok s') :
    Answers s' := by
  induction subs generalizing s with
  | nil =>
    cases hall
    exact h
  | cons e subs ih =>
    rw [List.foldlM_cons] at hall
    obtain ⟨t, hsend, hrest⟩ := Run.exists_of_bind_ok hall
    exact ih (h.sendRtpPacket hsend) hrest

theorem Answers.nack {nackPkt : RtcpFbNack} (h : Answers s)
    (hnack : s.handleFbRtpNack nowMs nackPkt sub = .ok s') : Answers s' := by
  obtain ⟨pkts, stream, hstream, rfl⟩ := handleFbRtpNack_ok hnack
  obtain ⟨hfollows, hlast⟩ := (h.streamOf sub).nack hstream
  have hagain : ∀ sid (more : List Sent), more <+: pkts.map (.again sub.session sub.sid) →
      forwardsTo sid more = [] := by
    intro sid more hmore
    refine forwardsTo_eq_nil fun x hx => ?_
    obtain ⟨pkt, -, rfl⟩ := List.mem_map.mp (hmore.subset hx)
    rfl
  refine h.send (fun sid _ => hagain sid _ (List.prefix_refl _)) ?_ ?_
  · rw [packetsTo_of_forwardsTo (hagain _ _ (List.prefix_refl _))]
    exact hfollows
  · refine h.justified.append fun x hx more hmore => ?_
    obtain ⟨pkt, hpkt, rfl⟩ := List.mem_map.mp hx
    show lastData pkt.getSeq (packetsTo sub.sid (s.sent ++ more)) = _
    rw [packetsTo_of_forwardsTo (hagain _ more hmore)]
    exact hlast pkt hpkt

theorem Answers.timer (h : Answers s) (htimer : s.onSubscriberTimer nowMs sub = .ok s') :
    Answers s' := by
  obtain ⟨srPkt, stream, hstream, rfl⟩ := onSubscriberTimer_ok htimer
  obtain ⟨hfollows, hcounts⟩ := (h.streamOf sub).timer hstream
  refine h.send (fun sid _ => forwardsTo_report _ _ _) ?_ ?_
  · rw [packetsTo_of_forwardsTo (forwardsTo_report _ _ _)]
    exact hfollows
  · rcases srPkt with _ | sr
    · simpa using h.justified
    · exact h.justified.concat (hcounts sr rfl)

theorem Answers.rr {rrPkt : RtcpRrPacket} (h : Answers s)
    (hrr : s.handleRtcpRr nowMs rrPkt sub = .ok s') : Answers s' := by
  obtain ⟨stream, hstream, rfl⟩ := handleRtcpRr_ok hrr
  have hsend : s.setStream sub stream = (s.setStream sub stream).send [] := by
    simp [RoomMedia.send, setStream]
  rw [hsend]
  refine h.send (fun sid _ => rfl) ?_ ?_
  · rw [List.append_nil]
    exact (h.streamOf sub).rr hstream
  · rw [List.append_nil]
    exact h.justified

/-- What the streams do not see. -/
theorem Answers.of_same (h : Answers s) (hstreams : s'.streams = s.streams)
    (hsent : s'.sent = s.sent) : Answers s' := by
  refine ⟨?_, ?_, ?_⟩
  · rw [hstreams, hsent]
    exact h.untouched
  · rw [hstreams, hsent]
    exact h.follows
  · rw [hsent]
    exact h.justified

theorem Answers.does (h : Answers s) (hdoes : Does libs s s') : Answers s' := by
  cases hdoes with
  | room e room hstep heq =>
    subst heq
    exact h.of_same rfl rfl
  | handlers rtpHandlers heq =>
    subst heq
    exact h.of_same rfl rfl
  | delivers rtpHandlers nowMs pid pkt hdelivers =>
    rw [onRtppacketPublisher2room_eq] at hdelivers
    refine Answers.sendToAll ?_ hdelivers
    exact h.of_same rfl rfl
  | nack nowMs nackPkt sub hnack => exact h.nack hnack
  | rr nowMs rrPkt sub hrr => exact h.rr hrr
  | timer nowMs sub htimer => exact h.timer htimer
  | requests pid mediaSsrc heq =>
    subst heq
    refine h.send_free (fun sid => forwardsTo_keyframe _ _) ?_
    refine h.justified.append fun x hx more _ => ?_
    obtain ⟨session, p, rfl⟩ := exists_of_mem_onRequestKeyframe hx
    trivial

theorem answers_init {room : Room} : Answers { room } where
  untouched sid _ := rfl
  follows sid stream h := by cases h
  justified := Run.justified_nil

theorem run_answers {roomId : Bytes} {events : List Event}
    (hrun : Run.run (step libs) events { room := { roomId } } = .ok s) : Answers s :=
  Run.run_preserves (fun _ _ _ h hstep => h.does (step_does hstep)) answers_init hrun

/-- **Nothing is made up for a NACK.**  What is sent again to a subscriber is the last packet
of that number that was forwarded to it before. -/
theorem retransmitted_was_forwarded (libs : RoomLibs) (roomId : Bytes) (events : List Event)
    (s : RoomMedia) (hrun : Run.run (step libs) events { room := { roomId } } = .ok s)
    (before after : List Sent) (session sid : Bytes) (pkt : RtpPacket)
    (hsent : s.sent = before ++ .again session sid pkt :: after) :
    lastData pkt.getSeq (packetsTo sid before) = some pkt.data :=
  (run_answers hrun).justified before (.again session sid pkt) after hsent

/-- A request for the packet with the number 2. -/
def lostTwo : RtcpFbNack :=
  { data := [0x81, 205, 0, 3, 0, 0, 0, 1, 0, 0, 0, 7, 0, 2, 0, 0], nackBlocks := [12] }

/-- `b` gets two packets, asks for the first again, and its stream reports. -/
def answerEvents : List Event :=
  [.room (Room.joinOf "a" 1), .room (Room.joinOf "b" 2), .room (Room.publishOf "a" 1), packetOf 1,
    .room (Room.subscribeOf "b" "a" 0 1 2), packetOf 2, packetOf 3,
    .nack (Room.sampleLibs.uuid 2) 9 lostTwo, .subscriberTimer (Room.sampleLibs.uuid 3) 100,
    .subscriberTimer (Room.sampleLibs.uuid 3) 600]

/-- The two packets that are forwarded to `b`. -/
def forwardedTwo : List Sent :=
  [.forward (Room.sampleLibs.uuid 2) (Room.sampleLibs.uuid 3) ⟨(mediaPacket 2).buffer, 0⟩,
    .forward (Room.sampleLibs.uuid 2) (Room.sampleLibs.uuid 3) ⟨(mediaPacket 3).buffer, 0⟩]

/-- The first of them, sent again. -/
def sentAgain : Sent :=
  .again (Room.sampleLibs.uuid 2) (Room.sampleLibs.uuid 3) ⟨(mediaPacket 2).buffer, 5⟩

/-- The report about the two of them. -/
def reportOfTwo : RtcpSrPacket :=
  { ssrc := 7, ntpSec := 0, ntpFrac := 2576980377, rtpTimestamp := 0, pktCount := 2
    bytesCount := 26 }

theorem run_answerEvents :
    ∃ s, Run.run (step Room.sampleLibs) answerEvents { room := { roomId := ascii "room" } } =
        .ok s ∧
      s.sent = forwardedTwo ++ [sentAgain,
        .report (Room.sampleLibs.uuid 2) (Room.sampleLibs.uuid 3) reportOfTwo] :=
  Run.exists_of_map_toOption (f := RoomMedia.sent) (by decide +kernel)

theorem retransmitted_was_forwarded_first :
    lastData 2 (packetsTo (Room.sampleLibs.uuid 3) forwardedTwo) = some (mediaPacket 2).buffer := by
  obtain ⟨s, hrun, hsent⟩ := run_answerEvents
  exact retransmitted_was_forwarded Room.sampleLibs (ascii "room") answerEvents s hrun
    forwardedTwo _ (Room.sampleLibs.uuid 2) (Room.sampleLibs.uuid 3) ⟨(mediaPacket 2).buffer, 5⟩
    hsent

/-- **A report counts what was forwarded**, without what was sent again. -/
theorem reports_count_forwarded (libs : RoomLibs) (roomId : Bytes) (events : List Event)
    (s : RoomMedia) (hrun : Run.run (step libs) events { room := { roomId } } = .ok s)
    (before after : List Sent) (session sid : Bytes) (srPkt : RtcpSrPacket)
    (hsent : s.sent = before ++ .report session sid srPkt :: after) :
    srPkt.pktCount = UInt32.ofNat (packetsTo sid before).length ∧
      srPkt.bytesCount = UInt32.ofNat (totalBytes (packetsTo sid before)) :=
  (run_answers hrun).justified before (.report session sid srPkt) after hsent

/-- The copy of a packet is not counted. -/
theorem reports_count_forwarded_two :
    (packetsTo (Room.sampleLibs.uuid 3) (forwardedTwo ++ [sentAgain])).length = 2 ∧
      reportOfTwo.pktCount =
        UInt32.ofNat (packetsTo (Room.sampleLibs.uuid 3) (forwardedTwo ++ [sentAgain])).length := by
  obtain ⟨s, hrun, hsent⟩ := run_answerEvents
  refine ⟨by decide, ?_⟩
  exact (reports_count_forwarded Room.sampleLibs (ascii "room") answerEvents s hrun
    (forwardedTwo ++ [sentAgain]) [] (Room.sampleLibs.uuid 2) (Room.sampleLibs.uuid 3)
    reportOfTwo (by simpa using hsent)).1

end RoomMedia

end MediaServer
