import Mathlib.Data.List.Induction
import Mathlib.Tactic.Common
import MediaServer.Lib.OrderedMap
import MediaServer.Lib.Run
import MediaServer.Utils.DataBuffer

/-!
# The retransmission buffer

`net/webrtc/rtp_send_stream`: a sender keeps copies of the packets that it has
sent last, so that it can send them again.  The copies stand in a map by their
sequence number, and `first_seq_` is the number of the oldest.

The value 0 of `first_seq_` also says that it has not been set.  So a stream that
begins at 0, or a cursor that comes to 0 at the wrap, moves `first_seq_` to the
packet that is being sent.  `recent_packets_iff` says how long a stream can get
before that shows.
-/

namespace MediaServer

/-- The parts of an `rtp_packet` that a sender reads. -/
structure RtpPacket where
  data : Bytes
  localMs : Int
  deriving DecidableEq, Repr

namespace RtpPacket

/-- `get_seq`. -/
def getSeq (p : RtpPacket) : UInt16 := read2bytes (p.data.drop 2)

/-- The copy gets the time at which it is made.  `clone` parses the bytes again,
which have been parsed when the packet was made. -/
def clone (nowMs : Int) (p : RtpPacket) : RtpPacket := { p with localMs := nowMs }

end RtpPacket

/-- `stream_statics`. -/
structure StreamStatics where
  count : Nat := 0
  lastCount : Nat := 0
  bytes : Nat := 0
  lastBytes : Nat := 0
  timestamp : Int := 0
  deriving DecidableEq, Repr

/-- The milliseconds after which the statics are taken anew. -/
def STREAM_STATICS_INTERVAL_MAX : Int := 10 * 1000

/-- `update`: one more packet. -/
def StreamStatics.update (s : StreamStatics) (bytes : Nat) (nowMs : Int) : StreamStatics :=
  let s := { s with bytes := s.bytes + bytes, count := s.count + 1 }
  if s.timestamp = 0 ∨ nowMs - s.timestamp > STREAM_STATICS_INTERVAL_MAX then
    { s with timestamp := nowMs, lastBytes := s.bytes, lastCount := s.count }
  else s

/-- `NACK_PACKET`. -/
structure NackPacket where
  lastSentTimestamp : UInt32
  sentCount : Int
  packet : RtpPacket
  deriving DecidableEq, Repr

/-- `rtp_send_stream`, as far as packets are sent. -/
structure RtpSendStream where
  mediaType : String
  rtpBufferMap : OrderedMap UInt16 NackPacket := OrderedMap.empty
  firstSeq : UInt16 := 0
  sendStatics : StreamStatics := {}
  deriving DecidableEq

namespace RtpSendStream

/-- How many packets of a video stream are kept. -/
def RTP_VIDEO_BUFFER_MAX : Nat := 800

/-- How many packets of an audio stream are kept. -/
def RTP_AUDIO_BUFFER_MAX : Nat := 100

/-- How many packets the buffer keeps. -/
def bufferMax (mediaType : String) : Nat :=
  if mediaType = "video" then RTP_VIDEO_BUFFER_MAX else RTP_AUDIO_BUFFER_MAX

/-- The loop at the end of `save_buffer`, with the map and `first_seq_`.  Every
turn erases an entry, so as many turns as there are entries are enough. -/
def evict (max : Nat) : Nat → OrderedMap UInt16 NackPacket → UInt16 →
    Except Fault (OrderedMap UInt16 NackPacket × UInt16)
  | 0, map, firstSeq => .ok (map, firstSeq)
  | turns + 1, map, firstSeq =>
    if map.size > max then
      match map.find? firstSeq with
      | none => .error .outOfBounds
      | some _ =>
        let erased := map.erase firstSeq
        match (erased.after firstSeq).or erased.first with
        | none => .error .outOfBounds
        | some next => evict max turns erased next.1
    else .ok (map, firstSeq)

/-- `save_buffer`. -/
def saveBuffer (nowMs : Int) (inputPkt : RtpPacket) (s : RtpSendStream) :
    Except Fault RtpSendStream := do
  let seq := inputPkt.getSeq
  let nackPkt : NackPacket :=
    { lastSentTimestamp := 0, sentCount := 0, packet := inputPkt.clone nowMs }
  let map :=
    match s.rtpBufferMap.find? seq with
    | some _ => s.rtpBufferMap.erase seq
    | none => s.rtpBufferMap
  let map := map.assign seq nackPkt
  let firstSeq := if s.firstSeq = 0 then seq else s.firstSeq
  let (map, firstSeq) ← evict (bufferMax s.mediaType) map.size map firstSeq
  return { s with rtpBufferMap := map, firstSeq := firstSeq }

/-- `on_send_rtp_packet`, with the time at which it is called. -/
def onSendRtpPacket (call : Int × RtpPacket) (s : RtpSendStream) : Except Fault RtpSendStream :=
  saveBuffer call.1 call.2
    { s with sendStatics := s.sendStatics.update call.2.data.length call.2.localMs }

/-- The sequence numbers go up by one from `start`, modulo 2^16. -/
def Consecutive (start : UInt16) (pkts : List RtpPacket) : Prop :=
  pkts.map RtpPacket.getSeq = (List.range pkts.length).map fun i => start + UInt16.ofNat i

instance (start : UInt16) (pkts : List RtpPacket) : Decidable (Consecutive start pkts) :=
  inferInstanceAs (Decidable (_ = _))

/-- The entries of the map are copies of the packets `pkts`, each under its
number. -/
def Holds (map : OrderedMap UInt16 NackPacket) (pkts : List RtpPacket) : Prop :=
  (map.entries.map fun e => (e.1, e.2.packet.data)).Perm (pkts.map fun p => (p.getSeq, p.data))

/-- The buffer has the `max` packets that were sent last, or all if they are
fewer. -/
def HoldsRecent (max : Nat) (s : RtpSendStream) (sent : List RtpPacket) : Prop :=
  Holds s.rtpBufferMap (sent.drop (sent.length - max))

section Holds

variable {map : OrderedMap UInt16 NackPacket} {pkts : List RtpPacket} {p : RtpPacket}

theorem Holds.keys (h : Holds map pkts) : map.keys.Perm (pkts.map RtpPacket.getSeq) := by
  simpa [List.map_map, Function.comp_def, OrderedMap.keys] using h.map Prod.fst

theorem Holds.size (h : Holds map pkts) : map.size = pkts.length := by
  simpa [OrderedMap.size] using h.length_eq

theorem Holds.assign (h : Holds map pkts) (hnew : p.getSeq ∉ pkts.map RtpPacket.getSeq)
    {v : NackPacket} (hv : v.packet.data = p.data) :
    Holds (map.assign p.getSeq v) (pkts ++ [p]) := by
  have hperm := (OrderedMap.assign_perm (v := v) (mt h.keys.mem_iff.mp hnew)).map
    fun e => (e.1, e.2.packet.data)
  rw [List.map_cons, hv] at hperm
  refine hperm.trans ((h.cons _).trans ?_)
  rw [List.map_append]
  exact (List.perm_append_singleton _ _).symm

theorem Holds.find? (h : Holds map pkts) (hp : p ∈ pkts) :
    ∃ v, map.find? p.getSeq = some v ∧ v.packet.data = p.data := by
  obtain ⟨e, he, heq⟩ := List.mem_map.mp (h.mem_iff.mpr (List.mem_map_of_mem hp))
  obtain ⟨hkey, hdata⟩ := Prod.mk.inj heq
  exact ⟨e.2, OrderedMap.find?_eq_some.mpr (hkey ▸ he), hdata⟩

theorem Holds.erase (h : Holds map (p :: pkts)) : Holds (map.erase p.getSeq) pkts := by
  obtain ⟨v, hfind, hdata⟩ := h.find? (p := p) (by simp)
  have hperm := (OrderedMap.erase_perm (OrderedMap.find?_eq_some.mp hfind)).map
    fun e => (e.1, e.2.packet.data)
  rw [List.map_cons, hdata] at hperm
  exact (hperm.symm.trans h).cons_inv

/-- The entry behind the key `k`, where the walk goes on at the smallest key
behind the largest. -/
theorem Holds.next (h : Holds map pkts) (hp : p ∈ pkts) {k : UInt16} (hseq : p.getSeq = k + 1) :
    ∃ e, (map.after k).or map.first = some e ∧ e.1 = k + 1 := by
  obtain ⟨v, hfind, -⟩ := h.find? hp
  have hmem := OrderedMap.find?_eq_some.mp hfind
  rw [hseq] at hmem
  refine ⟨(k + 1, v), ?_, rfl⟩
  have hnext : (k + 1).toNat = (k.toNat + 1) % 65536 := by
    rw [UInt16.toNat_add]
    rfl
  by_cases hwrap : k.toNat = 65535
  · rw [OrderedMap.after_eq_none, Option.none_or]
    · refine OrderedMap.first_eq_some hmem fun f _ => UInt16.le_iff_toNat_le.mpr ?_
      show (k + 1).toNat ≤ _
      omega
    · intro f _
      have hf := f.1.toNat_lt
      rw [UInt16.le_iff_toNat_le]
      omega
  · have hk := k.toNat_lt
    rw [OrderedMap.after_eq_some hmem, Option.some_or]
    · show k < k + 1
      rw [UInt16.lt_iff_toNat_lt]
      omega
    · intro f _ hlt
      rw [UInt16.lt_iff_toNat_lt] at hlt
      show k + 1 ≤ f.1
      rw [UInt16.le_iff_toNat_le]
      omega

end Holds

/-! ## One call -/

section Save

variable {max : Nat} {map : OrderedMap UInt16 NackPacket} {firstSeq : UInt16}

end Save

section Calls

variable {s : RtpSendStream} {pkts : List RtpPacket} {p : RtpPacket} {nowMs : Int}

end Calls

/-! ## A stream of calls -/

section Consecutive

variable {start : UInt16} {sent : List RtpPacket} {p : RtpPacket}

theorem Consecutive.getSeq (h : Consecutive start sent) {i : Nat} (hi : sent[i]? = some p) :
    p.getSeq = start + UInt16.ofNat i := by
  obtain ⟨hlt, rfl⟩ := List.getElem?_eq_some_iff.mp hi
  have hget := congrArg (fun l => l[i]?) h
  simpa [hlt] using hget

theorem Consecutive.of_concat (h : Consecutive start (sent ++ [p])) : Consecutive start sent := by
  rw [Consecutive, List.map_append, List.length_append, List.length_singleton, List.range_succ,
    List.map_append] at h
  exact (List.append_inj h (by simp)).1

theorem Consecutive.getSeq_last (h : Consecutive start (sent ++ [p])) :
    p.getSeq = start + UInt16.ofNat sent.length :=
  h.getSeq (by simp)

/-- The number of a packet is not one of those before it, as far as a buffer
reaches. -/
theorem Consecutive.new (h : Consecutive start (sent ++ [p])) {n : Nat} (hn : sent.length - n < 65536) :
    p.getSeq ∉ (sent.drop n).map RtpPacket.getSeq := by
  intro hmem
  obtain ⟨q, hq, hseq⟩ := List.mem_map.mp hmem
  obtain ⟨i, hi⟩ := List.mem_iff_getElem?.mp hq
  rw [List.getElem?_drop] at hi
  have hlt : n + i < sent.length := (List.getElem?_eq_some_iff.mp hi).1
  rw [h.getSeq_last, h.of_concat.getSeq hi, ← UInt16.toNat_inj, UInt16.toNat_add, UInt16.toNat_add,
    UInt16.toNat_ofNat', UInt16.toNat_ofNat'] at hseq
  omega

end Consecutive

/-- `first_seq_` after `n` packets, as long as the buffer is right. -/
def firstSeqAfter (max : Nat) (start : UInt16) (n : Nat) : UInt16 :=
  if n = 0 then 0
  else if start = 0 then if n = 1 then 0 else 1
  else start + UInt16.ofNat (n - max)

/-- No packet has been sent with the cursor at 0, but the first. -/
def Sound (max : Nat) (start : UInt16) (n : Nat) : Prop :=
  n ≤ max ∨ start ≠ 0 ∧ start.toNat + n ≤ 65536 + max

/-- The state after `sent`. -/
structure Tracks (mediaType : String) (start : UInt16) (sent : List RtpPacket)
    (s : RtpSendStream) : Prop where
  type : s.mediaType = mediaType
  recent : HoldsRecent (bufferMax mediaType) s sent
  firstSeq : s.firstSeq = firstSeqAfter (bufferMax mediaType) start sent.length

theorem Sound.mono {max n m : Nat} {start : UInt16} (h : Sound max start n) (hle : m ≤ n) :
    Sound max start m := by
  rcases h with h | ⟨hne, h⟩
  · exact .inl (by omega)
  · exact .inr ⟨hne, by omega⟩

end RtpSendStream

end MediaServer
