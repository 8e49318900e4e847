import Mathlib.Tactic.Common
import MediaServer.Httpflv.ClientBytes
import MediaServer.Httpflv.HttpflvWriter

/-!
# What a client can read

The packets that go through the stream manager have their media headers already
(`Carries`).  A demuxer that gets the body of a response, cut into any pieces, gives out what
the writer of the response has written (`client_reads`).
-/

namespace MediaServer

namespace HttpflvServer

namespace Heap

open HttpflvWriter

variable {raw pkt : MediaPacket} {raws pkts : List MediaPacket}

/-- The packet `pkt` is `raw` behind its media header. -/
structure Carries (raw pkt : MediaPacket) : Prop where
  republishable : Republishable raw
  avType : pkt.avType = raw.avType
  dts : pkt.dts = raw.dts
  buffer : pkt.buffer = mediaHeaderData raw ++ raw.buffer

/-- What `av_outputer::output_packet` gives to the stream manager. -/
theorem carries_of_addFlvMediaHeader {b : BufferMemory} (h : Republishable raw)
    (hb : b.WellFormed) (hstart : 5 ≤ b.start) (hdata : b.data = raw.buffer) :
    ∃ b', FlvMuxer.addFlvMediaHeader raw b = .ok (0, b') ∧
      Carries raw { raw with fmtType := .flv, buffer := b'.data } := by
  obtain ⟨b', hadd, -, hdata'⟩ := addFlvMediaHeader_spec h.media hb hstart
  exact ⟨b', hadd, h, rfl, rfl, hdata'.trans (by rw [hdata])⟩

theorem Carries.tagType (h : Carries raw pkt) : tagType pkt = some (tagTypeOf raw) := by
  rw [Heap.tagType, h.avType]
  rcases h.republishable.media with hvideo | haudio
  · rw [tagTypeOf, hvideo.avType]
    rfl
  · rw [tagTypeOf, haudio.avType]
    rfl

theorem Carries.tagBytes (h : Carries raw pkt) :
    tagBytes pkt = (FlvTag.ofPacket raw h.republishable.payload).bytes := by
  rw [Heap.tagBytes, h.tagType]
  show (tagParts (tagTypeOf raw) pkt).flatten = _
  rw [tagParts, h.buffer, h.dts, flvHeader_eq h.republishable, FlvTag.bytes]
  simp [FlvTag.ofPacket]

/-- The packets of a writer as the tags of a stream. -/
theorem exists_tags (h : List.Forall₂ Carries raws pkts) :
    ∃ tags, List.Forall₂ MuxesTo raws tags ∧
      pkts.flatMap Heap.tagBytes = FlvDemuxer.tagsBytes tags := by
  induction h with
  | nil => exact ⟨[], .nil, rfl⟩
  | @cons raw pkt raws pkts hraw _ ih =>
    obtain ⟨tags, hmuxes, hbytes⟩ := ih
    have hrep := hraw.republishable
    refine ⟨FlvTag.ofPacket raw hrep.payload :: tags,
      .cons (muxesTo_ofPacket hrep.payload hrep.dts_nonneg hrep.dts_lt) hmuxes, ?_⟩
    rw [List.flatMap_cons, hraw.tagBytes, hbytes]
    rfl

theorem republishable_of_carries (h : List.Forall₂ Carries raws pkts) :
    ∀ raw ∈ raws, Republishable raw := by
  induction h with
  | nil => exact fun _ h => absurd h List.not_mem_nil
  | cons hraw _ ih => exact List.forall_mem_cons.mpr ⟨hraw.republishable, ih⟩

/-- The FLV part of what a client is sent, in front of a demuxer. -/
theorem demuxed {flags : UInt8} {pieces : List MediaPacket} (h : List.Forall₂ Carries raws pkts)
    (hcut : (pieces.map MediaPacket.buffer).flatten =
      flvFileHeader flags ++ pkts.flatMap Heap.tagBytes) :
    ∃ d out, FlvDemuxer.inputAll pieces {} = .ok (d, out) ∧
      out.map MediaPacket.content = raws.map MediaPacket.content := by
  obtain ⟨tags, hmuxes, hbytes⟩ := exists_tags h
  obtain ⟨hreadable, hcontents⟩ := readable_of_muxes (republishable_of_carries h) hmuxes
  rw [hbytes] at hcut
  obtain ⟨d, out, hinput, hout⟩ := FlvDemuxer.input_stream hreadable hcut
  exact ⟨d, out, hinput, hout.trans hcontents⟩

/-- What a session has been sent behind the HTTP header. -/
def body (s : Session) : Bytes := s.sent.drop (responseHeader 13 true).length

end Heap

namespace World

open HttpflvServer.Heap MediaStreamManager

variable {τ V : Type}

/-- A sequence header of H.264. -/
def readRaw : MediaPacket :=
  { avType := .video, codecType := .h264, dts := 40, pts := 80, isSeqHdr := true
    buffer := [1, 100, 0, 31] }

/-- That packet as it is published, with its FLV header. -/
def readPacket : MediaPacket :=
  { readRaw with
    fmtType := .flv, key := ascii "live/a"
    buffer := mediaHeaderData readRaw ++ readRaw.buffer }

/-- A client asks for a stream, and the packet is published. -/
def readEvents : List (Event Bool) :=
  [.accept (ascii "client"), .addOther true, .read 0 (ascii "GET /live/a.flv HTTP/1.1\r\n\r\n"),
    .packet readPacket]

/-- **A client reads what was published.**  In every state that a run reaches, a demuxer that
gets the body of an open response, however it is cut, gives out the packets that its writer has
written, in order, when these carry media that FLV can hold.  The sockets are steady, and a late
callback ends the run. -/
theorem client_reads (others : AvWriterBase τ V) (uuid : Nat → Bytes) (f : Fault)
    (hn : NeverFaults others f fun _ => True) (t : τ) (events : List (Event V))
    (hsteady : Run.Along (step others uuid) Event.Steady events (start t)) (w : World τ V)
    (hrun : Run.run (step others uuid) events (start t) = .ok w) (p c : Nat) (v : Writer)
    (s : Session) (hp : w.heap.writers p = some v) (hopen : w.heap.Open v.resp c)
    (hc : w.heap.sessions c = some s) (raws : List MediaPacket)
    (hraws : List.Forall₂ Carries raws (written p w.heap.log)) (pieces : List MediaPacket)
    (hcut : (pieces.map MediaPacket.buffer).flatten = body s) :
    ∃ d out, FlvDemuxer.inputAll pieces {} = .ok (d, out) ∧
      out.map MediaPacket.content = raws.map MediaPacket.content := by
  have hst := run_streamed hn hsteady hrun
  obtain ⟨resp, hr, hclose, hsession⟩ := hopen
  rcases hst.fed p v resp c s hp hr hclose hsession hc with ⟨-, -, hsent, hnone⟩ | ⟨-, -, hsent⟩
  · rw [hnone, List.forall₂_nil_right_iff] at hraws
    rw [body, hsent, List.drop_nil] at hcut
    obtain ⟨d, hd⟩ := FlvDemuxer.input_empty hcut
    exact ⟨d, [], hd, by rw [hraws]⟩
  · rw [body, hsent, clientBytes, List.append_assoc, List.drop_left] at hcut
    exact demuxed hraws hcut

theorem client_reads_client :
    ∃ w s, Run.run (step StreamMap.halfBroken sampleUuid) readEvents (start ()) = .ok w ∧
      w.heap.sessions 0 = some s ∧ ∃ d out, FlvDemuxer.inputAll
        [{ buffer := (body s).take 20 }, { buffer := (body s).drop 20 }] {} = .ok (d, out) ∧
      out.map MediaPacket.content = [readRaw.content] := by
  obtain ⟨w, hrun, hw⟩ := Run.exists_of_map_toOption
    (x := Run.run (step StreamMap.halfBroken sampleUuid) readEvents (start ()))
    (f := serves [readPacket]) (b := true) (by decide +kernel)
  obtain ⟨hwritten, s, v, hs, hv, hopen⟩ := exists_of_serves hw
  have hsteady : Run.Along (step StreamMap.halfBroken sampleUuid) Event.Steady readEvents
      (start ()) := by
    decide +kernel
  have hcarries : Carries readRaw readPacket :=
    ⟨⟨Or.inl ⟨rfl, by decide, by decide, by decide, by decide⟩, by decide, by decide, by decide,
      by decide⟩, rfl, rfl, rfl⟩
  refine ⟨w, s, hrun, hs, client_reads StreamMap.halfBroken sampleUuid .useAfterFree
    (neverFaults_halfBroken _) () readEvents hsteady w hrun 0 0 v s hv hopen
    hs [readRaw] ?_ _ (by simp)⟩
  rw [hwritten]
  exact .cons hcarries .nil

end World

end HttpflvServer

end MediaServer
