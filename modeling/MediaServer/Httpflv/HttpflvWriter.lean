import MediaServer.Format.FlvMux

/-!
# HTTP-FLV

`net/httpflv/httpflv_writer`, behind `av_outputer::output_packet` of
`net/websocket/wsimple/flv_websocket`.  A packet that comes out of a demuxer gets
its media header back in its own buffer, and the writer puts a tag around it.

`republish_round_trip` says that the bytes of the response give the same packets
to another demuxer.  It rests on `contents_of_muxesTo`, as the round trip of the
muxer does; here the timestamps have all 32 bits.
-/

namespace MediaServer

/-! ## The writer -/

/-- The part of an `http_response` that carries the body. -/
structure HttpResponse where
  isClose : Bool := false
  body : Bytes := []
  deriving DecidableEq, Repr

/-- `write`. -/
def HttpResponse.write (data : Bytes) (r : HttpResponse) : Int × HttpResponse :=
  if r.isClose then (-1, r) else (0, { r with body := r.body ++ data })

/-- `httpflv_writer`. -/
structure HttpflvWriter where
  resp : HttpResponse := {}
  hasVideo : Bool := true
  hasAudio : Bool := true
  flvHeaderReady : Bool := false
  deriving DecidableEq, Repr

namespace HttpflvWriter

/-- A write on the response of the writer. -/
def write (data : Bytes) (w : HttpflvWriter) : Int × HttpflvWriter :=
  ((w.resp.write data).1, { w with resp := (w.resp.write data).2 })

/-- `send_flv_header`.  What the write of the header returns is not looked at. -/
def sendFlvHeader (w : HttpflvWriter) : Int × HttpflvWriter :=
  if w.flvHeaderReady then (0, w)
  else if !w.hasAudio && !w.hasVideo then (-1, w)
  else
    let flag : UInt8 := (if w.hasVideo then 0x01 else 0) ||| (if w.hasAudio then 0x04 else 0)
    (0, { (w.write (flvFileHeader flag)).2 with flvHeaderReady := true })

/-- The 11 bytes before the data of a packet. -/
def flvHeader (tagType : UInt8) (payloadSize : Nat) (dts : Int) : Bytes :=
  let timestampBase : Nat := (dts % 2 ^ 24).toNat
  let timestampExt : UInt8 := UInt8.ofNat (dts / 2 ^ 24 % 256).toNat
  tagType :: (BigEndian.digits 3 payloadSize ++
    (BigEndian.digits 3 (if timestampBase ≥ 0xffffff then 0xffffff else timestampBase) ++
      [timestampExt, 0, 0, 1]))

/-- The writes of a tag, each of which can fail. -/
def writeTag (tagType : UInt8) (pkt : MediaPacket) (b : BufferMemory) (w : HttpflvWriter) :
    Int × HttpflvWriter :=
  let (ret, w) := w.write (flvHeader tagType b.dataLen.toNat pkt.dts)
  if ret < 0 then (ret, w)
  else
    let (ret, w) := w.write b.data
    if ret < 0 then (ret, w)
    else
      let preSize : Nat := 11 + b.dataLen.toNat
      let (ret, w) := w.write (BigEndian.digits 4 preSize)
      if ret < 0 then (ret, w) else (0, w)

/-- `write_packet`, for a packet whose buffer is `b`. -/
def writePacket (pkt : MediaPacket) (b : BufferMemory) (w : HttpflvWriter) :
    Int × HttpflvWriter :=
  let (ret, w) := w.sendFlvHeader
  if ret ≠ 0 then (0, w)
  else
    match pkt.avType with
    | .video => w.writeTag FLV_TAG_VIDEO pkt b
    | .audio => w.writeTag FLV_TAG_AUDIO pkt b
    | _ => (0, w)

end HttpflvWriter

/-! ## From a demuxer to a writer -/

/-- A packet that a demuxer gives out, with the contents that the allocations of
its buffer happen to have. -/
structure RawPacket where
  pkt : MediaPacket
  contents : Nat → UInt8
  grown : Nat → UInt8

/-- The buffer of the packet: a new one, to which the payload is added. -/
def RawPacket.buffer (raw : RawPacket) : Except Fault BufferMemory := do
  let (b, _) ← (BufferMemory.new raw.contents BufferMemory.EXTRA_LEN).appendData raw.grown
    (some raw.pkt.buffer)
  return b

/-- `av_outputer::output_packet`, with one writer on the stream. -/
def outputPacket (raw : RawPacket) (w : HttpflvWriter) : Except Fault HttpflvWriter := do
  let b ← raw.buffer
  let (ret, b) ← FlvMuxer.addFlvMediaHeader raw.pkt b
  if ret < 0 then return w else return (w.writePacket raw.pkt b).2

/-! ## The media header in place -/

open BufferMemory

/-- The bytes that `add_flv_media_header` stores. -/
theorem addFlvMediaHeader_spec {pkt : MediaPacket} {b : BufferMemory}
    (hpkt : pkt.IsVideo ∨ pkt.IsAudio) (hb : b.WellFormed) (hstart : 5 ≤ b.start) :
    ∃ b', FlvMuxer.addFlvMediaHeader pkt b = .ok (0, b') ∧ b'.WellFormed ∧
      b'.data = mediaHeaderData pkt ++ b.data := by
  have hnonneg := hb.dataLen_nonneg
  -- what is stored through the pointer that `consume_data(-n)` returns
  have hstore : ∀ (n : Nat) (bytes : Bytes), 0 < n → n ≤ 5 → bytes.length = n →
      ∃ b', FlvMuxer.store (b.consumeData (-n)).2 bytes (b.consumeData (-n)).1 = .ok b' ∧
        b'.WellFormed ∧ b'.data = bytes ++ b.data := by
    intro n bytes hpos hle hlen
    obtain ⟨-, hwf, -, hback⟩ := consumeData_spec hb (show -(n : Int) ≤ b.dataLen by omega) (by omega)
    obtain ⟨extra, hextra, hdata⟩ := hback (by omega)
    obtain ⟨buffer, hwrite, hwf', hdata'⟩ := hwf.overwrite hdata (show _ = bytes.length by omega)
    have hpointer : (b.consumeData (-n)).2 = some (b.consumeData (-n)).1.start := by
      rw [consumeData, if_neg (by omega), if_neg (by omega)]
    refine ⟨_, ?_, hwf', hdata'⟩
    rw [hpointer, FlvMuxer.store, hwrite]
    rfl
  rcases hpkt with hvideo | haudio
  · obtain ⟨codec, hbyte, -⟩ := videoCodec_byte hvideo.codec
    obtain ⟨b', hb', hwf, hfull⟩ := hstore 5 (FlvMuxer.storedVideoHeader pkt codec) (by decide)
      (by decide) (by rw [FlvMuxer.storedVideoHeader_eq, FlvMuxer.videoHeaderData_length])
    refine ⟨b', ?_, hwf, ?_⟩
    · rw [FlvMuxer.addFlvMediaHeader, hvideo.avType, hbyte]
      show (FlvMuxer.store (b.consumeData (-(5 : Nat))).2 _ (b.consumeData (-(5 : Nat))).1 >>= _) = _
      rw [hb']
      rfl
    · rw [hfull, FlvMuxer.storedVideoHeader_eq, mediaHeaderData, hvideo.avType, hbyte]
      rfl
  · obtain ⟨codec, hbyte, -⟩ := audioCodec_byte haudio.codec
    obtain ⟨b', hb', hwf, hfull⟩ := hstore 2 (FlvMuxer.storedAudioHeader pkt codec) (by decide)
      (by decide) rfl
    refine ⟨b', ?_, hwf, ?_⟩
    · rw [FlvMuxer.addFlvMediaHeader, haudio.avType, hbyte]
      show (FlvMuxer.store (b.consumeData (-(2 : Nat))).2 _ (b.consumeData (-(2 : Nat))).1 >>= _) = _
      rw [hb']
      rfl
    · rw [hfull, FlvMuxer.storedAudioHeader_eq, mediaHeaderData, haudio.avType, hbyte]
      rfl

/-- The buffer of a packet as it comes out of a demuxer. -/
theorem RawPacket.buffer_spec {raw : RawPacket} (h : raw.pkt.buffer.length < 2 ^ 24) :
    ∃ b, raw.buffer = .ok b ∧ b.WellFormed ∧ b.data = raw.pkt.buffer ∧
      b.start = PRE_RESERVE_HEADER_SIZE := by
  have hfits : Fits (.append raw.grown (some raw.pkt.buffer)) (new raw.contents EXTRA_LEN) := by
    intro _ _
    show (0 : Int) + raw.pkt.buffer.length + EXTRA_LEN < 2 ^ 31
    rw [EXTRA_LEN]
    omega
  obtain ⟨b, len, happend, hwf, hdata⟩ := appendData_spec (new_wellFormed raw.contents) hfits
  refine ⟨b, ?_, hwf, ?_, appendData_start happend rfl⟩
  · rw [RawPacket.buffer, happend]
    rfl
  · rw [hdata, show (new raw.contents EXTRA_LEN).data = [] by simp [data, new]]
    rfl

/-! ## The response -/

namespace HttpflvWriter

/-- A packet that can be sent out again. -/
structure Republishable (pkt : MediaPacket) : Prop where
  media : pkt.IsVideo ∨ pkt.IsAudio
  dts_nonneg : 0 ≤ pkt.dts
  dts_lt : pkt.dts < 2 ^ 32
  pts_lt : pkt.pts < 2 ^ 32
  payload : pkt.buffer.length < 2 ^ 24 - 5

/-- The writer after bytes that have been written. -/
def sent (data : Bytes) (w : HttpflvWriter) : HttpflvWriter :=
  { w with resp := { w.resp with body := w.resp.body ++ data } }

@[simp] theorem sent_isClose (data : Bytes) (w : HttpflvWriter) :
    (w.sent data).resp.isClose = w.resp.isClose := rfl

@[simp] theorem sent_sent (a b : Bytes) (w : HttpflvWriter) :
    (w.sent a).sent b = w.sent (a ++ b) := by
  simp [sent]

theorem write_eq {w : HttpflvWriter} (h : w.resp.isClose = false) (data : Bytes) :
    w.write data = (0, w.sent data) := by
  rw [write, HttpResponse.write, if_neg (by simp [h])]
  rfl

/-- The first bytes of a tag, with a timestamp of 32 bits. -/
theorem flvHeader_eq {pkt : MediaPacket} (h : Republishable pkt) :
    flvHeader (tagTypeOf pkt) (mediaHeaderData pkt ++ pkt.buffer).length pkt.dts =
      (FlvTag.ofPacket pkt h.payload).header := by
  have hlow := h.dts_nonneg
  have hhigh := h.dts_lt
  have hts : (UInt32.ofNat pkt.dts.toNat).toNat = pkt.dts.toNat := by
    rw [UInt32.toNat_ofNat']
    omega
  have hbase : (if (pkt.dts % 2 ^ 24).toNat ≥ 0xffffff then 0xffffff else (pkt.dts % 2 ^ 24).toNat) =
      pkt.dts.toNat % 2 ^ 24 := by
    split <;> omega
  have hext : (pkt.dts / 2 ^ 24 % 256).toNat = pkt.dts.toNat / 2 ^ 24 := by omega
  have hdigits : BigEndian.digits 3 (pkt.dts.toNat % 2 ^ 24) =
      BigEndian.digits 3 pkt.dts.toNat := BigEndian.digits_mod 3 pkt.dts.toNat
  rw [flvHeader, FlvTag.header, hbase, hext, hdigits]
  show _ = tagTypeOf pkt :: (_ ++ (BigEndian.digits 3 (UInt32.ofNat pkt.dts.toNat).toNat ++
    (UInt8.ofNat ((UInt32.ofNat pkt.dts.toNat).toNat / 2 ^ 24) :: [0, 0, 1])))
  rw [hts]
  rfl

/-- The writes of a packet with its media header. -/
theorem writeTag_eq {pkt : MediaPacket} (h : Republishable pkt) {b : BufferMemory}
    (hb : b.WellFormed) (hdata : b.data = mediaHeaderData pkt ++ pkt.buffer) {w : HttpflvWriter}
    (hopen : w.resp.isClose = false) :
    w.writeTag (tagTypeOf pkt) pkt b = (0, w.sent (FlvTag.ofPacket pkt h.payload).bytes) := by
  obtain ⟨-, -, -, -, hlen⟩ := hb.layout
  have hsize : b.dataLen.toNat = (mediaHeaderData pkt ++ pkt.buffer).length := by
    rw [hlen, hdata, Int.toNat_natCast]
  rw [writeTag, hsize, flvHeader_eq h, hdata, write_eq hopen]
  simp only [Int.lt_irrefl, if_false]
  rw [write_eq (by rw [sent_isClose, hopen])]
  simp only [Int.lt_irrefl, if_false]
  rw [write_eq (by rw [sent_isClose, sent_isClose, hopen]), sent_sent, sent_sent, FlvTag.bytes]
  simp only [Int.lt_irrefl, if_false, FlvTag.ofPacket, List.append_assoc]

/-- The bytes that go before the next tag: the file header, if it has not been
sent. -/
def headerBytes (w : HttpflvWriter) : Bytes :=
  if w.flvHeaderReady then [] else flvFileHeader (FlvMuxer.headerFlag w.hasVideo w.hasAudio)

/-- The writer after a tag. -/
def afterTag (t : FlvTag) (w : HttpflvWriter) : HttpflvWriter :=
  { w.sent (w.headerBytes ++ t.bytes) with flvHeaderReady := true }

theorem sendFlvHeader_eq {w : HttpflvWriter} (hopen : w.resp.isClose = false)
    (hav : (w.hasVideo || w.hasAudio) = true) :
    w.sendFlvHeader = (0, { w.sent w.headerBytes with flvHeaderReady := true }) := by
  rw [sendFlvHeader, headerBytes]
  by_cases hready : w.flvHeaderReady = true
  · rw [if_pos hready, if_pos hready, sent, List.append_nil, ← hready]
  · have hflags : ¬ (!w.hasAudio && !w.hasVideo) = true := by
      rw [← Bool.not_or, Bool.or_comm, hav]
      decide
    rw [if_neg hready, if_neg hready, if_neg hflags]
    simp only [write_eq hopen]
    rfl

theorem writePacket_eq {pkt : MediaPacket} (h : Republishable pkt) {b : BufferMemory}
    (hb : b.WellFormed) (hdata : b.data = mediaHeaderData pkt ++ pkt.buffer) {w : HttpflvWriter}
    (hopen : w.resp.isClose = false) (hav : (w.hasVideo || w.hasAudio) = true) :
    w.writePacket pkt b = (0, w.afterTag (FlvTag.ofPacket pkt h.payload)) := by
  have htag := writeTag_eq h hb hdata
    (w := { w.sent w.headerBytes with flvHeaderReady := true }) hopen
  have hafter : sent (FlvTag.ofPacket pkt h.payload).bytes
      { w.sent w.headerBytes with flvHeaderReady := true } =
      w.afterTag (FlvTag.ofPacket pkt h.payload) := by
    simp only [sent, afterTag, List.append_assoc]
  rw [hafter] at htag
  rw [writePacket, sendFlvHeader_eq hopen hav]
  simp only [ne_eq, not_true_eq_false, if_false]
  rcases h.media with hvideo | haudio
  · rw [tagTypeOf, if_pos hvideo.avType] at htag
    rw [hvideo.avType]
    exact htag
  · rw [tagTypeOf, if_neg (by rw [haudio.avType]; decide)] at htag
    rw [haudio.avType]
    exact htag

/-- One packet on its way from a demuxer to the response. -/
theorem outputPacket_eq {raw : RawPacket} (h : Republishable raw.pkt) {w : HttpflvWriter}
    (hopen : w.resp.isClose = false) (hav : (w.hasVideo || w.hasAudio) = true) :
    outputPacket raw w = .ok (w.afterTag (FlvTag.ofPacket raw.pkt h.payload)) := by
  have hpayload := h.payload
  obtain ⟨b, hbuffer, hwf, hdata, hstart⟩ := @RawPacket.buffer_spec raw (by omega)
  obtain ⟨b', hadd, hwf', hdata'⟩ := addFlvMediaHeader_spec h.media hwf (by
    rw [hstart]
    decide)
  rw [hdata] at hdata'
  rw [outputPacket, hbuffer, Run.ok_bind, hadd, Run.ok_bind]
  simp only [Int.lt_irrefl, if_false, writePacket_eq h hwf' hdata' hopen hav]
  rfl

/-- All packets, when the file header has been sent. -/
theorem run_outputPacket {raws : List RawPacket} (h : ∀ raw ∈ raws, Republishable raw.pkt)
    {w : HttpflvWriter} (hopen : w.resp.isClose = false)
    (hav : (w.hasVideo || w.hasAudio) = true) (hready : w.flvHeaderReady = true) :
    ∃ tags, List.Forall₂ MuxesTo (raws.map RawPacket.pkt) tags ∧
      Run.run outputPacket raws w = .ok (w.sent (FlvDemuxer.tagsBytes tags)) := by
  induction raws generalizing w with
  | nil => exact ⟨[], .nil, by simp [Run.run, sent, FlvDemuxer.tagsBytes]⟩
  | cons raw raws ih =>
    have hraw := h raw (by simp)
    have hafter : w.afterTag (FlvTag.ofPacket raw.pkt hraw.payload) =
        w.sent (FlvTag.ofPacket raw.pkt hraw.payload).bytes := by
      rw [afterTag, headerBytes, if_pos hready, List.nil_append, sent, ← hready]
    have hstep := outputPacket_eq hraw hopen hav
    rw [hafter] at hstep
    obtain ⟨tags, hmuxes, hrun⟩ :=
      @ih (fun r hr => h r (List.mem_cons_of_mem _ hr)) (w.sent _) hopen hav hready
    refine ⟨FlvTag.ofPacket raw.pkt hraw.payload :: tags,
      .cons (muxesTo_ofPacket hraw.payload hraw.dts_nonneg hraw.dts_lt) hmuxes, ?_⟩
    rw [Run.run_cons hstep, hrun, sent_sent]
    rfl

/-- A demuxer understands tags that carry packets. -/
theorem readable_of_muxes {pkts : List MediaPacket} {tags : List FlvTag}
    (hpkts : ∀ pkt ∈ pkts, Republishable pkt) (hmuxes : List.Forall₂ MuxesTo pkts tags) :
    (∀ t ∈ tags, t.Readable) ∧
      tags.flatMap FlvTag.contents = pkts.map MediaPacket.content := by
  induction hmuxes with
  | nil => exact ⟨by simp, rfl⟩
  | @cons pkt t pkts tags hmux hmuxes ih =>
    have hpkt := hpkts pkt (by simp)
    obtain ⟨hreadable, hcontent⟩ := contents_of_muxesTo hmux hpkt.media hpkt.pts_lt
    obtain ⟨hall, hcontents⟩ := ih fun p hp => hpkts p (List.mem_cons_of_mem _ hp)
    refine ⟨List.forall_mem_cons.mpr ⟨hreadable, hall⟩, ?_⟩
    rw [List.flatMap_cons, hcontent, hcontents]
    rfl

/-- **Republishing is lossless.**  The packets of a demuxer that go through
`add_flv_media_header` and one writer come out of another demuxer as they were,
however the bytes of the response are cut. -/
theorem republish_round_trip {hasVideo hasAudio : Bool} (hav : (hasVideo || hasAudio) = true)
    {raws : List RawPacket} (h : ∀ raw ∈ raws, Republishable raw.pkt) :
    ∃ w, Run.run outputPacket raws { hasVideo, hasAudio } = .ok w ∧
      ∀ pieces : List MediaPacket, (pieces.map MediaPacket.buffer).flatten = w.resp.body →
        ∃ d out, FlvDemuxer.inputAll pieces {} = .ok (d, out) ∧
          out.map MediaPacket.content = (raws.map RawPacket.pkt).map MediaPacket.content := by
  rcases raws with _ | ⟨raw, raws⟩
  · refine ⟨_, rfl, fun pieces hcut => ?_⟩
    obtain ⟨d, hd⟩ := FlvDemuxer.input_empty hcut
    exact ⟨d, [], hd, rfl⟩
  · have hraw := h raw (by simp)
    have hstep := @outputPacket_eq raw hraw { hasVideo, hasAudio } rfl hav
    obtain ⟨tags, hmuxes, hrun⟩ :=
      @run_outputPacket raws (fun r hr => h r (List.mem_cons_of_mem _ hr))
        (afterTag (FlvTag.ofPacket raw.pkt hraw.payload) { hasVideo, hasAudio }) rfl hav rfl
    refine ⟨_, by rw [Run.run_cons hstep, hrun], fun pieces hcut => ?_⟩
    have hall : List.Forall₂ MuxesTo ((raw :: raws).map RawPacket.pkt)
        (FlvTag.ofPacket raw.pkt hraw.payload :: tags) :=
      .cons (muxesTo_ofPacket hraw.payload hraw.dts_nonneg hraw.dts_lt) hmuxes
    have hpkts : ∀ pkt ∈ (raw :: raws).map RawPacket.pkt, Republishable pkt := by
      intro pkt hpkt
      obtain ⟨r, hr, rfl⟩ := List.mem_map.mp hpkt
      exact h r hr
    obtain ⟨hreadable, hcontents⟩ := readable_of_muxes hpkts hall
    have hstream : (pieces.map MediaPacket.buffer).flatten =
        flvFileHeader (FlvMuxer.headerFlag hasVideo hasAudio) ++
          FlvDemuxer.tagsBytes (FlvTag.ofPacket raw.pkt hraw.payload :: tags) := by
      rw [hcut]
      simp [sent, afterTag, headerBytes, FlvDemuxer.tagsBytes]
    obtain ⟨d, out, hinput, hout⟩ := FlvDemuxer.input_stream hreadable hstream
    exact ⟨d, out, hinput, hout.trans hcontents⟩

/-- A sample packet with a timestamp of 32 bits. -/
def sampleRaw : RawPacket where
  pkt :=
    { avType := .video, codecType := .vp9, dts := 4294967200, pts := 4294967295
      isSeqHdr := true, buffer := [5, 6] }
  contents := fun _ => 1
  grown := fun _ => 2

theorem republish_round_trip_sample :
    ∃ w, Run.run outputPacket [sampleRaw] { hasVideo := true, hasAudio := false } = .ok w ∧
      ∀ pieces : List MediaPacket, (pieces.map MediaPacket.buffer).flatten = w.resp.body →
        ∃ d out, FlvDemuxer.inputAll pieces {} = .ok (d, out) ∧
          out.map MediaPacket.content = [sampleRaw.pkt].map MediaPacket.content := by
  apply republish_round_trip rfl
  intro raw hraw
  rw [List.mem_singleton] at hraw
  subst hraw
  exact ⟨.inl ⟨rfl, by decide, by decide, by decide, by decide⟩, by decide, by decide, by decide,
    by decide⟩

end HttpflvWriter

end MediaServer
