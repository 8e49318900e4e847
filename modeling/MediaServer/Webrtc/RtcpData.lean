import MediaServer.Rtprtcp.RtcpPackets
import MediaServer.Webrtc.RtcBaseSession

/-!
# Compound RTCP data

`webrtc_session::on_handle_rtcp_data` walks over the packets of a decrypted datagram and
hands each of them to the handler of its type.  The length field of a packet says where
the next one starts.  The walk asks only whether bytes are left, not whether they are
enough for a header or for the packet, so the pointer stands in the data and the memory
`after` it, and a read behind that memory is a fault.

The handlers look up publishers and subscribers by the number of a stream.  What they
hand to them is the result here.  An exception in a handler is caught there, and the walk
goes on.

* `self_delimiting_iff`: the packets that the server itself sends are walked over one by
  one exactly when there is no receiver report among them.
* `stays_inside_iff`: the walk and its handlers stay inside the data exactly when the data
  are complete packets, and no request for lost packets has a length that its parser
  cannot take.
-/

namespace MediaServer

/-- What the handlers use of a session: its direction and the numbers of the streams that
it has publishers and subscribers for. -/
structure RtcpReceiver where
  direction : RtcDirection
  publishers : UInt32 → Bool
  subscribers : UInt32 → Bool

/-- What a handler hands to a publisher or to a subscriber. -/
inductive RtcpCall where
  | ignored
  | onHandleRtcpSr (packet : Bytes)
  | handleRtcpRr (packet : Bytes)
  | handleFbRtpNack (packet : RtcpFbNack)
  | requestKeyframe (mediaSsrc : UInt32)
  deriving DecidableEq, Repr

namespace RtcpReceiver

/-- The constructors of `rtcp_sr_packet`, `rtcp_rr_packet` and `rtcp_pspli` that copy a
packet of a fixed length. -/
def copyPacket (len : Nat) (p : Bytes) : Except Fault Bytes :=
  if p.length < len then .error .outOfBounds else .ok (p.take len)

/-- `handle_rtcp_sr`.  `parse` throws when the length is another one. -/
def handleRtcpSr (s : RtcpReceiver) (p : Bytes) (dataLen : Nat) : Except Fault RtcpCall :=
  if dataLen ≤ RTCP_HEADER_LEN then .ok .ignored
  else if dataLen ≠ RTCP_HEADER_LEN + SR_HEADER_LEN then .ok .ignored
  else do
    let packet ← copyPacket (RTCP_HEADER_LEN + SR_HEADER_LEN) p
    return if s.publishers (read4bytes (packet.drop 4)) then .onHandleRtcpSr packet else .ignored

/-- `handle_rtcp_rr`. -/
def handleRtcpRr (s : RtcpReceiver) (p : Bytes) (dataLen : Nat) : Except Fault RtcpCall :=
  if dataLen ≤ RTCP_HEADER_LEN then .ok .ignored
  else if dataLen ≠ RTCP_HEADER_LEN + RR_HEADER_LEN then .ok .ignored
  else do
    let packet ← copyPacket (RTCP_HEADER_LEN + RR_HEADER_LEN) p
    return if s.subscribers (read4bytes (packet.drop 8)) then .handleRtcpRr packet else .ignored

/-- The low five bits of the first byte. -/
def fmtOf (p : Bytes) : UInt8 := p.headD 0 &&& 0x1f

/-- `handle_rtcp_rtpfb`.  The result of `parse` is used without a look at it. -/
def handleRtcpRtpfb (s : RtcpReceiver) (p : Bytes) (dataLen : Nat) : Except Fault RtcpCall :=
  if dataLen ≤ RTCP_HEADER_LEN then .ok .ignored
  else if fmtOf p ≠ FB_RTP_NACK then .ok .ignored
  else if p.length < dataLen then .error .outOfBounds
  else do
    match ← RtcpFbNack.parse (p.take dataLen) with
    | none => .error .nullPointer
    | some packet =>
      return if s.subscribers packet.getMediaSsrc then .handleFbRtpNack packet else .ignored

/-- `handle_rtcp_psfb`. -/
def handleRtcpPsfb (s : RtcpReceiver) (p : Bytes) (dataLen : Nat) : Except Fault RtcpCall :=
  if dataLen ≤ RTCP_HEADER_LEN then .ok .ignored
  else if fmtOf p ≠ FB_PS_PLI then .ok .ignored
  else if dataLen ≠ RtcpFbNack.HEADER_LEN then .ok .ignored
  else do
    let packet ← copyPacket RtcpFbNack.HEADER_LEN p
    let mediaSsrc := read4bytes (packet.drop 8)
    return if s.direction = .send ∧ s.subscribers mediaSsrc then .requestKeyframe mediaSsrc
      else .ignored

/-- The handler that a type selects.  The other types have none. -/
def handle (s : RtcpReceiver) (packetType : UInt8) (p : Bytes) (dataLen : Nat) :
    Except Fault RtcpCall :=
  if packetType = RTCP_SR then s.handleRtcpSr p dataLen
  else if packetType = RTCP_RR then s.handleRtcpRr p dataLen
  else if packetType = RTCP_RTPFB then s.handleRtcpRtpfb p dataLen
  else if packetType = RTCP_PSFB then s.handleRtcpPsfb p dataLen
  else .ok .ignored

end RtcpReceiver

/-- A place at which the walk has read a header. -/
structure RtcpItem where
  offset : Nat
  packetType : UInt8
  itemTotal : Nat
  deriving DecidableEq, Repr

/-- What a walk has visited, with the calls of the handlers, and where it ended. -/
structure RtcpWalk where
  visited : List RtcpItem := []
  calls : List RtcpCall := []
  stop : Nat
  deriving DecidableEq, Repr

namespace RtcpReceiver

/-- The loop of `on_handle_rtcp_data`.  Every pass takes at least the four bytes of a
header, so the fuel is enough when it is more than the bytes that are left. -/
def walk (s : RtcpReceiver) : Nat → Nat → Int → Bytes → Except Fault RtcpWalk
  | 0, _, _, _ => .error .hang
  | fuel + 1, offset, leftLen, p =>
    if ¬ leftLen > 0 then .ok { stop := offset }
    else if p.length < RTCP_HEADER_LEN then .error .outOfBounds
    else do
      let total := itemTotal p
      let call ← s.handle (p.getD 1 0) p total
      let rest ← walk s fuel (offset + total) (leftLen - total) (p.drop total)
      return { rest with
        visited := { offset, packetType := p.getD 1 0, itemTotal := total } :: rest.visited
        calls := call :: rest.calls }

/-- `on_handle_rtcp_data` behind the decryption.  The length becomes an `int`. -/
def onHandleRtcpData (s : RtcpReceiver) (data after : Bytes) : Except Fault RtcpWalk :=
  s.walk (data.length + 1) 0 (wrapInt data.length) (data ++ after)

variable {s : RtcpReceiver} {fuel offset : Nat} {leftLen : Int} {p : Bytes} {w : RtcpWalk}

/-! ## One pass of the loop -/

/-- A header is the same whatever follows it. -/
theorem itemTotal_append {d : Bytes} (h : RTCP_HEADER_LEN ≤ d.length) (e : Bytes) :
    itemTotal (d ++ e) = itemTotal d := by
  unfold RTCP_HEADER_LEN at h
  have htwo : ((d ++ e).drop 2).take 2 = (d.drop 2).take 2 := by
    rw [List.drop_append_of_le_length (by omega),
      List.take_append_of_le_length (by rw [List.length_drop]; omega)]
  rw [itemTotal, itemTotal, getRtcpLength, getRtcpLength, read2bytes, read2bytes, htwo]

theorem packetType_append {d : Bytes} (h : RTCP_HEADER_LEN ≤ d.length) (e : Bytes) :
    (d ++ e).getD 1 0 = d.getD 1 0 := by
  unfold RTCP_HEADER_LEN at h
  rw [List.getD_eq_getElem?_getD, List.getD_eq_getElem?_getD,
    List.getElem?_append_left (by omega)]

theorem itemTotal_pos (p : Bytes) : 0 < itemTotal p := by
  unfold itemTotal RTCP_HEADER_LEN
  omega

theorem walk_of_done (h : leftLen ≤ 0) :
    s.walk (fuel + 1) offset leftLen p = .ok ⟨[], [], offset⟩ := by
  rw [walk, if_pos (by omega)]

/-- A pass that goes on reads a header, calls a handler and leaves the rest to the
passes that follow. -/
theorem exists_of_walk_ok (hleft : 0 < leftLen) (h : s.walk (fuel + 1) offset leftLen p = .ok w) :
    RTCP_HEADER_LEN ≤ p.length ∧ ∃ call rest, s.handle (p.getD 1 0) p (itemTotal p) = .ok call ∧
      s.walk fuel (offset + itemTotal p) (leftLen - itemTotal p) (p.drop (itemTotal p)) =
        .ok rest ∧
      w.visited = ⟨offset, p.getD 1 0, itemTotal p⟩ :: rest.visited ∧ w.stop = rest.stop := by
  rw [walk, if_neg (by omega)] at h
  by_cases hlen : p.length < RTCP_HEADER_LEN
  · rw [if_pos hlen] at h
    cases h
  · rw [if_neg hlen] at h
    obtain ⟨call, hcall, h⟩ := Run.exists_of_bind_ok h
    obtain ⟨rest, hrest, h⟩ := Run.exists_of_bind_ok h
    cases h
    exact ⟨Nat.le_of_not_lt hlen, call, rest, hcall, hrest, rfl, rfl⟩

theorem walk_ok (hleft : 0 < leftLen) (hlen : RTCP_HEADER_LEN ≤ p.length) {call : RtcpCall}
    {rest : RtcpWalk} (hcall : s.handle (p.getD 1 0) p (itemTotal p) = .ok call)
    (hrest : s.walk fuel (offset + itemTotal p) (leftLen - itemTotal p) (p.drop (itemTotal p)) =
      .ok rest) :
    s.walk (fuel + 1) offset leftLen p = .ok { rest with
      visited := ⟨offset, p.getD 1 0, itemTotal p⟩ :: rest.visited
      calls := call :: rest.calls } := by
  rw [walk, if_neg (by omega), if_neg (Nat.not_lt.mpr hlen)]
  simp only [hcall, hrest, Run.ok_bind]
  rfl

/-! ## Handlers -/

/-- The types that have a handler. -/
def HasHandler (packetType : UInt8) : Prop :=
  packetType = RTCP_SR ∨ packetType = RTCP_RR ∨ packetType = RTCP_RTPFB ∨ packetType = RTCP_PSFB

/-- A request for lost packets of the length `len` is ignored or has a block, and it fits
into the array of its class. -/
def NackFits (p : Bytes) (len : Nat) : Prop :=
  p.getD 1 0 = RTCP_RTPFB → fmtOf p = FB_RTP_NACK →
    len ≤ RTCP_HEADER_LEN ∨ RtcpFbNack.HEADER_LEN < len ∧ len ≤ RtcpFbNack.PACKET_MAX

theorem copyPacket_of_le {len : Nat} (h : len ≤ p.length) : copyPacket len p = .ok (p.take len) :=
  if_neg (Nat.not_lt.mpr h)

/-- `handle_rtcp_rtpfb` ends well on a packet that is there exactly when its parser takes
the length. -/
theorem handleRtcpRtpfb_ok_iff {len : Nat} (htype : p.getD 1 0 = RTCP_RTPFB)
    (hlen : len ≤ p.length) : (∃ call, s.handleRtcpRtpfb p len = .ok call) ↔ NackFits p len := by
  unfold handleRtcpRtpfb NackFits
  by_cases hshort : len ≤ RTCP_HEADER_LEN
  · simp [hshort]
  by_cases hfmt : fmtOf p = FB_RTP_NACK
  · have htake : (p.take len).length = len := by
      rw [List.length_take]
      omega
    rw [if_neg hshort, if_neg (by simp [hfmt]), if_neg (Nat.not_lt.mpr hlen), RtcpFbNack.parse,
      htake]
    by_cases hnull : len ≤ RtcpFbNack.HEADER_LEN
    · rw [if_pos hnull, Run.ok_bind]
      simp only [htype, hfmt, hshort, Nat.not_lt.mpr hnull, false_and, or_self, forall_const,
        iff_false]
      rintro ⟨call, h⟩
      cases h
    · rw [if_neg hnull]
      by_cases hlong : len > RtcpFbNack.PACKET_MAX
      · rw [if_pos hlong]
        simp only [htype, hfmt, hshort, Nat.not_le.mpr hlong, and_false, or_self, forall_const,
          iff_false]
        rintro ⟨call, h⟩
        cases h
      · rw [if_neg hlong, Run.ok_bind]
        exact ⟨fun _ _ _ => Or.inr ⟨Nat.lt_of_not_le hnull, Nat.le_of_not_lt hlong⟩,
          fun _ => ⟨_, rfl⟩⟩
  · rw [if_neg hshort, if_pos hfmt]
    exact ⟨fun _ _ hfmt' => absurd hfmt' hfmt, fun _ => ⟨_, rfl⟩⟩

/-- A handler ends well on a packet that is there exactly when it is no request for lost
packets that the parser cannot take. -/
theorem handle_ok_iff {len : Nat} (hlen : len ≤ p.length) :
    (∃ call, s.handle (p.getD 1 0) p len = .ok call) ↔ NackFits p len := by
  have hother : p.getD 1 0 ≠ RTCP_RTPFB → NackFits p len := fun h htype => absurd htype h
  unfold handle
  split_ifs with hsr hrr hfb hps
  · refine iff_of_true ?_ (hother (by rw [hsr]; decide))
    unfold handleRtcpSr
    split_ifs with hshort hlen'
    · exact ⟨_, rfl⟩
    · exact ⟨_, rfl⟩
    · rw [copyPacket_of_le (by omega)]
      exact ⟨_, rfl⟩
  · refine iff_of_true ?_ (hother (by rw [hrr]; decide))
    unfold handleRtcpRr
    split_ifs with hshort hlen'
    · exact ⟨_, rfl⟩
    · exact ⟨_, rfl⟩
    · rw [copyPacket_of_le (by omega)]
      exact ⟨_, rfl⟩
  · exact handleRtcpRtpfb_ok_iff hfb hlen
  · refine iff_of_true ?_ (hother (by rw [hps]; decide))
    unfold handleRtcpPsfb
    split_ifs with hshort hfmt hlen'
    · exact ⟨_, rfl⟩
    · exact ⟨_, rfl⟩
    · exact ⟨_, rfl⟩
    · rw [copyPacket_of_le (by omega)]
      exact ⟨_, rfl⟩
  · exact iff_of_true ⟨_, rfl⟩ (hother hfb)

/-- Without a handler there is nothing that could go wrong. -/
theorem handle_of_not_hasHandler {packetType : UInt8} (h : ¬ HasHandler packetType) (len : Nat) :
    s.handle packetType p len = .ok .ignored := by
  simp only [HasHandler, not_or] at h
  rw [handle, if_neg h.1, if_neg h.2.1, if_neg h.2.2.1, if_neg h.2.2.2]

/-! ## The packets of the server -/

/-- The places that packets have one behind another, with their types and lengths. -/
def places : Nat → List RtcpPacket → List RtcpItem
  | _, [] => []
  | offset, packet :: rest =>
    ⟨offset, packet.packetType, packet.data.length⟩ :: places (offset + packet.data.length) rest

/-- The bytes of packets one behind another. -/
def compound (packets : List RtcpPacket) : Bytes := (packets.map RtcpPacket.data).flatten

/-- The walk visits every packet where it is, and it ends with the last one. -/
def SelfDelimiting (s : RtcpReceiver) (packets : List RtcpPacket) (after : Bytes) : Prop :=
  ∃ w, s.onHandleRtcpData (compound packets) after = .ok w ∧ w.visited = places 0 packets ∧
    w.stop = (compound packets).length

theorem compound_cons (packet : RtcpPacket) (rest : List RtcpPacket) :
    compound (packet :: rest) = packet.data ++ compound rest := rfl

/-- No handler faults on a packet that its class has made. -/
theorem handle_data_ok {packet : RtcpPacket} (h : ¬ packet.IsRr) (rest : Bytes) :
    ∃ call, s.handle packet.packetType (packet.data ++ rest) packet.data.length = .ok call := by
  obtain ⟨hlen, htype⟩ := packet.header_data
  have hfits : NackFits (packet.data ++ rest) packet.data.length := by
    intro hfb hfmt
    rw [packetType_append hlen, htype] at hfb
    cases packet with
    | sr p => exact absurd hfb (by decide : ¬ RTCP_SR = RTCP_RTPFB)
    | rr p => exact absurd trivial h
    | nack p =>
      have hp := RtcpFbNack.filled_of_insertSeqListWith p.nonempty p.made
      exact Or.inr ⟨hp.long, hp.fits⟩
    | pspli p => exact absurd hfb (by decide : ¬ RTCP_PSFB = RTCP_RTPFB)
  have hok := (handle_ok_iff (s := s) (by simp)).mpr hfits
  rw [packetType_append hlen, htype] at hok
  exact hok

/-- Packets without a receiver report are walked over. -/
theorem walk_compound {packets : List RtcpPacket} (h : ∀ packet ∈ packets, ¬ packet.IsRr)
    (hfuel : (compound packets).length < fuel) (after : Bytes) :
    ∃ w, s.walk fuel offset (compound packets).length (compound packets ++ after) = .ok w ∧
      w.visited = places offset packets ∧ w.stop = offset + (compound packets).length := by
  induction packets generalizing fuel offset with
  | nil =>
    obtain ⟨fuel, rfl⟩ : ∃ n, fuel = n + 1 := ⟨fuel - 1, by omega⟩
    exact ⟨_, walk_of_done (Int.le_refl 0), rfl, rfl⟩
  | cons packet rest ih =>
    rw [List.forall_mem_cons] at h
    obtain ⟨hlen, htype⟩ := packet.header_data
    obtain ⟨fuel, rfl⟩ : ∃ n, fuel = n + 1 := ⟨fuel - 1, by omega⟩
    rw [compound_cons, List.length_append] at hfuel
    have htotal : itemTotal (compound (packet :: rest) ++ after) = packet.data.length := by
      rw [compound_cons, List.append_assoc, RtcpPacket.itemTotal_eq_length h.1]
    have hptype : (compound (packet :: rest) ++ after).getD 1 0 = packet.packetType := by
      rw [compound_cons, List.append_assoc, packetType_append hlen, htype]
    have hdrop : (compound (packet :: rest) ++ after).drop packet.data.length =
        compound rest ++ after := by
      rw [compound_cons, List.append_assoc, List.drop_left]
    have hbytes : (compound (packet :: rest)).length =
        packet.data.length + (compound rest).length := by
      rw [compound_cons, List.length_append]
    unfold RTCP_HEADER_LEN at hlen
    obtain ⟨w, hw, hvisited, hstop⟩ :
        ∃ w, s.walk fuel (offset + packet.data.length) (compound rest).length
          (compound rest ++ after) = .ok w ∧
        w.visited = places (offset + packet.data.length) rest ∧
        w.stop = offset + packet.data.length + (compound rest).length := ih h.2 (by omega)
    obtain ⟨call, hcall⟩ : ∃ call, s.handle packet.packetType
        (packet.data ++ (compound rest ++ after)) packet.data.length = .ok call :=
      handle_data_ok h.1 _
    rw [← List.append_assoc, ← compound_cons, ← htotal, ← hptype] at hcall
    have hleft : ((compound (packet :: rest)).length : Int) -
        itemTotal (compound (packet :: rest) ++ after) = (compound rest).length := by
      rw [htotal, hbytes]
      omega
    rw [← hdrop, ← htotal, ← hleft] at hw
    refine ⟨_, walk_ok (by rw [hbytes]; omega) ?_ hcall hw, ?_, ?_⟩
    · unfold RTCP_HEADER_LEN
      rw [List.length_append, hbytes]
      omega
    · show _ :: w.visited = _
      rw [hvisited, htotal, hptype]
      rfl
    · show w.stop = _
      rw [hstop, hbytes]
      omega

/-- A walk that visits every packet where it is has met no receiver report, and it had
bytes left when it came to the last packet. -/
theorem of_walk_compound {packets : List RtcpPacket} {after : Bytes}
    (h : s.walk fuel offset leftLen (compound packets ++ after) = .ok w)
    (hvisited : w.visited = places offset packets) :
    (∀ packet ∈ packets, ¬ packet.IsRr) ∧
      (packets ≠ [] → ((compound packets).length : Int) < leftLen + (2 ^ 17 : Nat)) := by
  induction packets generalizing fuel offset leftLen w with
  | nil => exact ⟨by simp, fun hne => absurd rfl hne⟩
  | cons packet rest ih =>
    obtain _ | fuel := fuel
    · cases h
    by_cases hleft : 0 < leftLen
    · obtain ⟨-, call, w', -, hrest, hw, -⟩ := exists_of_walk_ok hleft h
      rw [hw, places, List.cons.injEq, RtcpItem.mk.injEq] at hvisited
      obtain ⟨⟨-, -, htotal⟩, hvisited⟩ := hvisited
      have hnot : ¬ packet.IsRr := by
        intro hrr
        cases packet with
        | rr p =>
          have hlen : p.getData.length = 32 := by
            simp [RtcpRrPacket.getData, rtcpCommonHeader, storeUint16]
          rw [compound_cons, List.append_assoc, RtcpPacket.data, RtcpPacket.itemTotal_rr,
            hlen] at htotal
          cases htotal
        | sr p => exact hrr
        | nack p => exact hrr
        | pspli p => exact hrr
      have hdrop : (compound (packet :: rest) ++ after).drop packet.data.length =
          compound rest ++ after := by
        rw [compound_cons, List.append_assoc, List.drop_left]
      rw [htotal, hdrop] at hrest
      obtain ⟨hall, hbound⟩ := ih hrest hvisited
      refine ⟨List.forall_mem_cons.mpr ⟨hnot, hall⟩, fun _ => ?_⟩
      have hshort : packet.data.length < 2 ^ 17 := by
        have hfield := (getRtcpLength (compound (packet :: rest) ++ after)).toNat_lt
        rw [← htotal]
        unfold itemTotal RTCP_HEADER_LEN
        omega
      rw [compound_cons, List.length_append]
      by_cases hrest' : rest = []
      · rw [hrest']
        show ((packet.data.length + 0 : Nat) : Int) < _
        omega
      · have hbound := hbound hrest'
        omega
    · rw [walk_of_done (by omega)] at h
      cases h
      cases hvisited

/-- **Compound data of the server.**  A walk over packets that the server has made visits
each of them where it is exactly when none of them is a receiver report and their bytes
can be counted by an `int`. -/
theorem self_delimiting_iff (s : RtcpReceiver) (packets : List RtcpPacket) (after : Bytes) :
    s.SelfDelimiting packets after ↔
      (∀ packet ∈ packets, ¬ packet.IsRr) ∧ (compound packets).length < 2 ^ 31 := by
  constructor
  · rintro ⟨w, hw, hvisited, -⟩
    obtain ⟨hall, hbound⟩ := of_walk_compound hw hvisited
    refine ⟨hall, ?_⟩
    by_contra hlong
    have hwrap := wrapInt_add_le (Nat.le_of_not_lt hlong)
    have hne : packets ≠ [] := by
      rintro rfl
      exact hlong (by decide)
    have hbound := hbound hne
    omega
  · rintro ⟨hall, hlen⟩
    obtain ⟨w, hw, hvisited, hstop⟩ := walk_compound hall (Nat.lt_succ_self _) after
    refine ⟨w, ?_, hvisited, by rw [hstop, Nat.zero_add]⟩
    rw [onHandleRtcpData, wrapInt_of_lt hlen]
    exact hw

/-- A receiver report that says nothing. -/
def emptyReport : RtcpRrPacket := ⟨1, 7, 0, 0, 0, 0, 0, 0⟩

/-- A receiver report alone is not walked over as it is. -/
theorem not_self_delimiting_rr :
    ¬ SelfDelimiting ⟨.send, fun _ => false, fun _ => false⟩ [.rr emptyReport] [] := by
  rintro ⟨w, hw, hvisited, -⟩
  exact (of_walk_compound hw hvisited).1 _ (List.mem_singleton_self _) trivial

/-! ## Data of any kind -/

/-- The walk over `data` ends without a fault of a handler: none copies more than its
array holds, and none uses a null pointer.  The headers it has read and the packets it
has handed over lie inside the data. -/
def StaysInside (s : RtcpReceiver) (data after : Bytes) : Prop :=
  ∃ w, s.onHandleRtcpData data after = .ok w ∧ ∀ item ∈ w.visited,
    item.offset + RTCP_HEADER_LEN ≤ data.length ∧
      (HasHandler item.packetType → item.offset + item.itemTotal ≤ data.length)

/-- A packet that is as long as its length field says, and that its parser can take. -/
structure CompleteItem (item : Bytes) : Prop where
  header : RTCP_HEADER_LEN ≤ item.length
  whole : item.length = itemTotal item
  nack : NackFits item item.length

/-- The bytes that a walk counts, of which `leftLen` are left, are complete packets, but
for a last one that has a header and no handler. -/
def FramedFor (leftLen : Int) (data : Bytes) : Prop :=
  ∃ (items : List Bytes) (tail : Bytes), data = items.flatten ++ tail ∧
    (∀ item ∈ items, CompleteItem item) ∧
    (leftLen ≤ items.flatten.length ∨
      RTCP_HEADER_LEN ≤ tail.length ∧ ¬ HasHandler (tail.getD 1 0) ∧
        leftLen ≤ items.flatten.length + itemTotal tail)

/-- The data are complete packets one behind another, but for a last one that has a
header and no handler. -/
def Framed (data : Bytes) : Prop := FramedFor (wrapInt data.length) data

theorem framedFor_of_done {d : Bytes} (h : leftLen ≤ 0) : FramedFor leftLen d :=
  ⟨[], d, rfl, by simp, Or.inl h⟩

theorem nackFits_append {d : Bytes} (h : RTCP_HEADER_LEN ≤ d.length) (e : Bytes) (len : Nat) :
    NackFits (d ++ e) len ↔ NackFits d len := by
  have hfmt : fmtOf (d ++ e) = fmtOf d := by
    cases d with
    | nil => cases h
    | cons b d => rfl
  rw [NackFits, NackFits, packetType_append h, hfmt]

/-- The first packet of framed data has a header. -/
theorem FramedFor.header {d : Bytes} (h : FramedFor leftLen d) (hleft : 0 < leftLen) :
    RTCP_HEADER_LEN ≤ d.length := by
  obtain ⟨items, tail, rfl, hitems, hend⟩ := h
  rw [List.length_append]
  cases items with
  | nil =>
    rcases hend with hend | ⟨htail, -⟩
    · exact absurd hend (by show ¬ leftLen ≤ 0; omega)
    · exact Nat.le_trans htail (Nat.le_add_left _ _)
  | cons item rest =>
    have hitem := (hitems item (List.mem_cons_self ..)).header
    rw [List.flatten_cons, List.length_append]
    omega

/-- Framed data whose first packet is there: the packet is complete, and the rest is
framed. -/
theorem framedFor_iff_of_le {d : Bytes} (hleft : 0 < leftLen) (htotal : itemTotal d ≤ d.length) :
    FramedFor leftLen d ↔
      NackFits d (itemTotal d) ∧ FramedFor (leftLen - itemTotal d) (d.drop (itemTotal d)) := by
  constructor
  · rintro ⟨items, tail, hd, hitems, hend⟩
    cases items with
    | nil =>
      rw [List.flatten_nil, List.nil_append] at hd
      rcases hend with hend | ⟨-, hnone, hend⟩
      · exact absurd hend (by show ¬ leftLen ≤ 0; omega)
      · rw [← hd] at hnone hend
        refine ⟨fun htype _ => absurd (Or.inr (Or.inr (Or.inl htype))) hnone, ?_⟩
        refine framedFor_of_done ?_
        have hend : leftLen ≤ 0 + (itemTotal d : Int) := hend
        omega
    | cons item rest =>
      have hitem := hitems item (List.mem_cons_self ..)
      rw [List.flatten_cons, List.append_assoc] at hd
      have hsame : itemTotal d = item.length := by
        rw [hitem.whole, hd, itemTotal_append hitem.header]
      refine ⟨?_, rest, tail, ?_, fun i hi => hitems i (List.mem_cons_of_mem _ hi), ?_⟩
      · rw [hsame, hd, nackFits_append hitem.header]
        exact hitem.nack
      · rw [hsame, hd, List.drop_left]
      · rw [hsame]
        rw [List.flatten_cons, List.length_append] at hend
        rcases hend with hend | ⟨hheader, hnone, hend⟩
        · exact Or.inl (by omega)
        · exact Or.inr ⟨hheader, hnone, by omega⟩
  · rintro ⟨hnack, items, tail, hd, hitems, hend⟩
    have htake : (d.take (itemTotal d)).length = itemTotal d := by
      rw [List.length_take]
      omega
    have hheader : RTCP_HEADER_LEN ≤ (d.take (itemTotal d)).length := by
      rw [htake]
      unfold itemTotal
      omega
    have hsplit : d = d.take (itemTotal d) ++ d.drop (itemTotal d) :=
      (List.take_append_drop _ _).symm
    refine ⟨d.take (itemTotal d) :: items, tail, ?_, ?_, ?_⟩
    · rw [List.flatten_cons, List.append_assoc, ← hd]
      exact hsplit
    · rw [List.forall_mem_cons]
      refine ⟨⟨hheader, ?_, ?_⟩, hitems⟩
      · rw [← itemTotal_append hheader (d.drop (itemTotal d)), ← hsplit, htake]
      · rw [htake, ← nackFits_append hheader (d.drop (itemTotal d)), ← hsplit]
        exact hnack
    · rw [List.flatten_cons, List.length_append, htake]
      rcases hend with hend | ⟨hheader, hnone, hend⟩
      · exact Or.inl (by omega)
      · exact Or.inr ⟨hheader, hnone, by omega⟩

/-- Framed data whose first packet is cut off: the packet has no handler. -/
theorem framedFor_iff_of_lt {d : Bytes} (hleft : 0 < leftLen) (hle : leftLen ≤ d.length)
    (hlen : RTCP_HEADER_LEN ≤ d.length) (htotal : d.length < itemTotal d) :
    FramedFor leftLen d ↔ ¬ HasHandler (d.getD 1 0) := by
  constructor
  · rintro ⟨items, tail, hd, hitems, hend⟩
    cases items with
    | nil =>
      rw [List.flatten_nil, List.nil_append] at hd
      rcases hend with hend | ⟨-, hnone, -⟩
      · exact absurd hend (by show ¬ leftLen ≤ 0; omega)
      · rwa [hd]
    | cons item rest =>
      have hitem := hitems item (List.mem_cons_self ..)
      rw [List.flatten_cons, List.append_assoc] at hd
      have hsame : itemTotal d = item.length := by
        rw [hitem.whole, hd, itemTotal_append hitem.header]
      rw [hsame, hd, List.length_append] at htotal
      omega
  · intro hnone
    refine ⟨[], d, rfl, by simp, Or.inr ⟨hlen, hnone, ?_⟩⟩
    show leftLen ≤ 0 + (itemTotal d : Int)
    omega

/-- The walk over data whose first packet is cut off: nothing is left behind it. -/
theorem walk_inside_iff_of_lt {d after : Bytes} (hleft : 0 < leftLen) (hle : leftLen ≤ d.length)
    (hlen : RTCP_HEADER_LEN ≤ d.length) (htotal : d.length < itemTotal d) :
    (∃ w, s.walk (fuel + 1 + 1) offset leftLen (d ++ after) = .ok w ∧ ∀ item ∈ w.visited,
      item.offset + RTCP_HEADER_LEN ≤ offset + d.length ∧
        (HasHandler item.packetType → item.offset + item.itemTotal ≤ offset + d.length)) ↔
      FramedFor leftLen d := by
  have hpos := itemTotal_pos d
  have hmem : RTCP_HEADER_LEN ≤ (d ++ after).length := by
    rw [List.length_append]
    omega
  rw [framedFor_iff_of_lt hleft hle hlen htotal]
  constructor
  · rintro ⟨w, hw, hinside⟩ hhas
    obtain ⟨-, call, rest, -, -, hvisited, -⟩ := exists_of_walk_ok hleft hw
    have hfirst := (hinside _ (by rw [hvisited]; exact List.mem_cons_self ..)).2
    rw [packetType_append hlen, itemTotal_append hlen] at hfirst
    exact Nat.not_le.mpr htotal (Nat.le_of_add_le_add_left (hfirst hhas))
  · intro hnone
    have hcall : s.handle ((d ++ after).getD 1 0) (d ++ after) (itemTotal (d ++ after)) =
        .ok .ignored := by
      rw [packetType_append hlen]
      exact handle_of_not_hasHandler hnone _
    refine ⟨_, walk_ok hleft hmem hcall (walk_of_done ?_), ?_⟩
    · rw [itemTotal_append hlen]
      omega
    · simp only [List.forall_mem_cons, packetType_append hlen]
      exact ⟨⟨by omega, fun hhas => absurd hhas hnone⟩, by simp⟩

/-- The walk over what is left of the data, from any place on. -/
theorem walk_inside_iff {d after : Bytes} (hfuel : leftLen ≤ fuel) (hle : leftLen ≤ d.length) :
    (∃ w, s.walk (fuel + 1) offset leftLen (d ++ after) = .ok w ∧ ∀ item ∈ w.visited,
      item.offset + RTCP_HEADER_LEN ≤ offset + d.length ∧
        (HasHandler item.packetType → item.offset + item.itemTotal ≤ offset + d.length)) ↔
      FramedFor leftLen d := by
  induction fuel generalizing offset leftLen d with
  | zero => exact iff_of_true ⟨_, walk_of_done hfuel, by simp⟩ (framedFor_of_done hfuel)
  | succ fuel ih =>
    by_cases hleft : 0 < leftLen
    swap
    · exact iff_of_true ⟨_, walk_of_done (by omega), by simp⟩ (framedFor_of_done (by omega))
    by_cases hlen : RTCP_HEADER_LEN ≤ d.length
    swap
    · refine iff_of_false ?_ fun h => hlen (h.header hleft)
      rintro ⟨w, hw, hinside⟩
      obtain ⟨-, call, rest, -, -, hvisited, -⟩ := exists_of_walk_ok hleft hw
      have hfirst := (hinside _ (by rw [hvisited]; exact List.mem_cons_self ..)).1
      exact hlen (Nat.le_of_add_le_add_left hfirst)
    have hpos := itemTotal_pos d
    have hmem : RTCP_HEADER_LEN ≤ (d ++ after).length := by
      rw [List.length_append]
      omega
    by_cases htotal : itemTotal d ≤ d.length
    · -- the packet is there, and the walk goes on behind it
      have hdrop : (d ++ after).drop (itemTotal d) = d.drop (itemTotal d) ++ after :=
        List.drop_append_of_le_length htotal
      have hback : offset + itemTotal d + (d.drop (itemTotal d)).length = offset + d.length := by
        rw [List.length_drop]
        omega
      have hleft' : leftLen - itemTotal d ≤ (d.drop (itemTotal d)).length := by
        rw [List.length_drop]
        omega
      have hhandle :
          (∃ call, s.handle ((d ++ after).getD 1 0) (d ++ after) (itemTotal d) = .ok call) ↔
            NackFits d (itemTotal d) := by
        rw [← nackFits_append hlen after]
        exact handle_ok_iff (by rw [List.length_append]; omega)
      rw [framedFor_iff_of_le hleft htotal, ← ih (by omega) hleft', ← hhandle]
      constructor
      · rintro ⟨w, hw, hinside⟩
        obtain ⟨-, call, rest, hcall, hwalk, hvisited, -⟩ := exists_of_walk_ok hleft hw
        rw [itemTotal_append hlen] at hcall hwalk
        rw [hdrop] at hwalk
        refine ⟨⟨call, hcall⟩, rest, hwalk, fun item hitem => ?_⟩
        rw [hback]
        exact hinside item (by rw [hvisited]; exact List.mem_cons_of_mem _ hitem)
      · rintro ⟨⟨call, hcall⟩, rest, hwalk, hinside⟩
        rw [hback] at hinside
        rw [← hdrop, ← itemTotal_append hlen after] at hwalk
        rw [← itemTotal_append hlen after] at hcall
        refine ⟨_, walk_ok hleft hmem hcall hwalk, ?_⟩
        simp only [List.forall_mem_cons, itemTotal_append hlen]
        exact ⟨⟨by omega, fun _ => by omega⟩, hinside⟩
    · exact walk_inside_iff_of_lt hleft hle hlen (Nat.lt_of_not_le htotal)

/-- **Compound data of any peer.**  The walk over decrypted data and its handlers stay
inside the data exactly when the data are complete packets, but for a last one without
a handler, and the requests for lost packets among them have lengths that their parser
can take. -/
theorem stays_inside_iff (s : RtcpReceiver) (data after : Bytes) :
    s.StaysInside data after ↔ Framed data := by
  have hwalk := @walk_inside_iff s data.length 0 (wrapInt data.length) data after
    (wrapInt_le data.length) (wrapInt_le data.length)
  rw [Nat.zero_add] at hwalk
  exact hwalk

/-- A request for lost packets without a block gives a null pointer. -/
theorem not_stays_inside_nack :
    ¬ StaysInside ⟨.send, fun _ => false, fun _ => true⟩
      [0x81, 205, 0, 2, 0, 0, 0, 1, 0, 0, 0, 7] [] := by
  rintro ⟨w, hw, -⟩
  have hfault : Run.fault (onHandleRtcpData ⟨.send, fun _ => false, fun _ => true⟩
      [0x81, 205, 0, 2, 0, 0, 0, 1, 0, 0, 0, 7] []) = some .nullPointer := by
    decide +kernel
  rw [hw] at hfault
  cases hfault

end RtcpReceiver

end MediaServer
