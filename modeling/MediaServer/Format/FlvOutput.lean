import MediaServer.Format.FlvMux

/-!
# What the FLV muxer writes for any packets

`flv_muxer::input_packet` rejects metadata, packets of an unknown type and packets
with a codec that FLV does not have.  A file is the file header and the tags of the
packets that are accepted.  Two slips of `input_packet` show in the file.

* The header counts as written before the packet is looked at, and its bytes travel
  with the packet.  `output_intact_iff` says that a rejected packet does no harm
  unless it is the first one.
* The upper byte of a timestamp is taken from a number that has been cut to 24 bits,
  so it is always 0.  `timestamps_wrap` says what a demuxer reads instead.
-/

namespace MediaServer

namespace FlvMuxer

/-! ## Rejected packets -/

/-- The bytes that the callback gets for packets, one after another. -/
def output (pkts : List MediaPacket) (m : FlvMuxer) : Bytes :=
  ((inputAll pkts m).map MediaPacket.buffer).flatten

/-- The muxer after packets. -/
def after (pkts : List MediaPacket) (m : FlvMuxer) : FlvMuxer :=
  pkts.foldl (fun m pkt => (m.inputPacket pkt).2.1) m

/-- The tags of the packets that are accepted. -/
def tagsOf (pkts : List MediaPacket) : Bytes := ((pkts.filter accepts).map tagBytes).flatten

/-- The file that the accepted ones of some packets make. -/
def fileOf (m : FlvMuxer) (pkts : List MediaPacket) : Bytes :=
  if pkts.any accepts then m.muxFlvHeader ++ tagsOf pkts else []

/-- The output is the file of the accepted packets, and no rejected packet changes
what comes out for the packets behind it. -/
structure Intact (m : FlvMuxer) (pkts : List MediaPacket) : Prop where
  output_eq : output pkts m = fileOf m pkts
  later : ∀ front pkt back, pkts = front ++ pkt :: back → accepts pkt = false →
    inputAll back (after (front ++ [pkt]) m) = inputAll back (after front m)

theorem output_cons (pkt : MediaPacket) (pkts : List MediaPacket) (m : FlvMuxer) :
    output (pkt :: pkts) m =
      (if accepts pkt then (if m.headerReady then [] else m.muxFlvHeader) ++ tagBytes pkt
        else []) ++ output pkts { m with headerReady := true } := by
  obtain ⟨hmuxer, hout⟩ := inputPacket_spec pkt m
  rw [output, inputAll, List.map_append, List.flatten_append, hmuxer, hout]
  split
  · rw [List.flatten_cons, List.flatten_nil, List.append_nil]
    rfl
  · rfl

theorem tagsOf_cons (pkt : MediaPacket) (pkts : List MediaPacket) :
    tagsOf (pkt :: pkts) = (if accepts pkt then tagBytes pkt else []) ++ tagsOf pkts := by
  rw [tagsOf, List.filter_cons]
  split
  · rw [List.map_cons, List.flatten_cons]
    rfl
  · rfl

/-- A muxer that has written its header writes the tags alone. -/
theorem output_of_ready {m : FlvMuxer} (hready : m.headerReady = true)
    (pkts : List MediaPacket) : output pkts m = tagsOf pkts := by
  have hsame : { m with headerReady := true } = m := by rw [← hready]
  induction pkts with
  | nil => rfl
  | cons pkt pkts ih =>
    rw [output_cons, hsame, ih, tagsOf_cons, hready]
    rfl

theorem after_cons (pkt : MediaPacket) (pkts : List MediaPacket) (m : FlvMuxer) :
    after (pkt :: pkts) m = { m with headerReady := true } := by
  induction pkts generalizing pkt m with
  | nil => exact (inputPacket_spec pkt m).1
  | cons next pkts ih =>
    show after (next :: pkts) (m.inputPacket pkt).2.1 = _
    rw [ih, (inputPacket_spec pkt m).1]

theorem inputAll_of_rejected {pkts : List MediaPacket} (h : ∀ pkt ∈ pkts, accepts pkt = false)
    (m : FlvMuxer) : inputAll pkts m = [] := by
  induction pkts generalizing m with
  | nil => rfl
  | cons pkt pkts ih =>
    rw [List.forall_mem_cons] at h
    have hout := (inputPacket_spec pkt m).2
    rw [h.1, if_neg (by simp), List.map_eq_nil_iff] at hout
    rw [inputAll, hout, ih h.2, List.nil_append]

theorem any_accepts_eq_false {pkts : List MediaPacket} :
    pkts.any accepts = false ↔ ∀ pkt ∈ pkts, accepts pkt = false := by
  simp

/-- Behind a first packet that is accepted, rejected packets change nothing. -/
theorem intact_of_accepts {m : FlvMuxer} (hnew : m.headerReady = false) {pkt : MediaPacket}
    (hpkt : accepts pkt = true) (pkts : List MediaPacket) : Intact m (pkt :: pkts) where
  output_eq := by
    rw [output_cons, output_of_ready rfl, fileOf, List.any_cons, hpkt, tagsOf_cons, hpkt, hnew]
    simp
  later := by
    intro front bad back hsplit hbad
    rcases front with _ | ⟨first, front⟩
    · -- the first packet is not a rejected one
      obtain ⟨rfl, -⟩ := List.cons.inj hsplit
      rw [hpkt] at hbad
      cases hbad
    · rw [List.cons_append, after_cons, after_cons]

/-- Packets that are all rejected leave no output at all. -/
theorem intact_of_rejected {m : FlvMuxer} {pkts : List MediaPacket}
    (h : ∀ pkt ∈ pkts, accepts pkt = false) : Intact m pkts where
  output_eq := by
    rw [output, inputAll_of_rejected h, fileOf, any_accepts_eq_false.mpr h]
    rfl
  later := by
    intro front bad back hsplit _
    have hback : ∀ pkt ∈ back, accepts pkt = false := by
      intro pkt hmem
      apply h
      rw [hsplit]
      simp [hmem]
    rw [inputAll_of_rejected hback, inputAll_of_rejected hback]

/-- **Rejected packets.**  The output of a new muxer is the file of the accepted
packets, whatever stands between them, exactly when its first packet is accepted or
none is. -/
theorem output_intact_iff (hasVideo hasAudio : Bool) (pkts : List MediaPacket) :
    Intact { hasVideo, hasAudio } pkts ↔
      (∀ pkt, pkts.head? = some pkt → accepts pkt = true) ∨
        ∀ pkt ∈ pkts, accepts pkt = false := by
  constructor
  · intro h
    rcases pkts with _ | ⟨pkt, pkts⟩
    · exact .inr (by simp)
    · by_cases hpkt : accepts pkt = true
      · exact .inl (by simpa using hpkt)
      · -- the header went with the first packet, so the file of the rest lacks it
        refine .inr (any_accepts_eq_false.mp ?_)
        rw [Bool.not_eq_true] at hpkt
        have hlen := congrArg List.length h.output_eq
        rw [output_cons, output_of_ready rfl, fileOf, tagsOf_cons, hpkt] at hlen
        by_contra hany
        rw [Bool.not_eq_false] at hany
        rw [hany, if_pos rfl] at hlen
        simp only [Bool.false_eq_true, if_false, List.nil_append, List.length_append] at hlen
        have hheader : (muxFlvHeader { hasVideo, hasAudio }).length = 13 := rfl
        omega
  · rintro (hfirst | hall)
    · rcases pkts with _ | ⟨pkt, pkts⟩
      · exact intact_of_rejected (by simp)
      · exact intact_of_accepts rfl (hfirst pkt rfl) pkts
    · exact intact_of_rejected hall

/-- Metadata first: the file of the audio packet behind it begins with its tag. -/
theorem not_intact_metadata :
    accepts { avType := .metadata } = false ∧ accepts sampleAudio = true ∧
      output [{ avType := .metadata }, sampleAudio] { hasVideo := false, hasAudio := true } =
        tagBytes sampleAudio ∧
      ¬ Intact { hasVideo := false, hasAudio := true } [{ avType := .metadata }, sampleAudio] := by
  refine ⟨rfl, rfl, by decide +kernel, fun h => ?_⟩
  have hlen := congrArg List.length h.output_eq
  revert hlen
  decide +kernel

/-! ## Timestamps of more than 24 bits -/

open FlvDemuxer

/-- The timestamp that a tag carries: the upper byte is lost. -/
theorem readTagHeader_tagBytes {d : FlvDemuxer} (hready : d.tagHeaderReady = false)
    {pkt : MediaPacket} {rest : Bytes} (h : d.buffer = tagBytes pkt ++ rest) :
    ∃ d', readTagHeader d = .ok (none, d') ∧ (d'.tagTimestamp.toNat : Int) = pkt.dts % 2 ^ 24 := by
  obtain ⟨base, hbase⟩ : ∃ base, (pkt.dts % 2 ^ 24).toNat = base := ⟨_, rfl⟩
  have hcast : (base : Int) = pkt.dts % 2 ^ 24 := by omega
  have hlt : base < 2 ^ 24 := by omega
  have hzero : base >>> 24 = 0 := by
    rw [Nat.shiftRight_eq_div_pow]
    omega
  rw [tagBytes, tagHeaderData, hbase, hzero] at h
  have hlen : FLV_TAG_HEADER_LEN ≤ d.buffer.length := by
    rw [h]
    exact Nat.le_add_left 11 _
  have htype : byteAt d.buffer 0 = .ok (tagTypeOf pkt) := by
    rw [h]
    rfl
  have hext : byteAt d.buffer 7 = .ok 0 := by
    rw [h]
    rfl
  have htime : (read3bytes (d.buffer.drop 4)).toNat = base := by
    have hdrop : ∃ more, d.buffer.drop 4 = BigEndian.digits 3 base ++ more := by
      rw [h]
      exact ⟨_, rfl⟩
    obtain ⟨more, hdrop⟩ := hdrop
    rw [hdrop, read3bytes, BigEndian.take_digits_append, BigEndian.value_digits,
      UInt32.toNat_ofNat']
    omega
  rw [readTagHeader, if_neg (by simp [hready]), DataBuffer.require_eq_true.mpr hlen]
  simp only [htype, hext, Run.ok_bind]
  refine ⟨_, rfl, ?_⟩
  show ((read3bytes (d.buffer.drop 4) ||| 0).toNat : Int) = _
  rw [UInt32.or_zero, htime, hcast]

/-- A demuxer that has come as far as the muxer reads the file header, if there is one. -/
theorem readFlvHeader_output {m : FlvMuxer} {d : FlvDemuxer} (hflv : d.flvHeaderReady = m.headerReady)
    {rest : Bytes} (h : d.buffer = (if m.headerReady then [] else m.muxFlvHeader) ++ rest) :
    ∃ d', readFlvHeader d = .ok (none, d') ∧ d'.tagHeaderReady = d.tagHeaderReady ∧
      d'.buffer = rest := by
  rcases hready : m.headerReady with _ | _
  · rw [hready] at hflv h
    have hbuffer : d.buffer ++ [] = flvFileHeader (headerFlag m.hasVideo m.hasAudio) ++ rest := by
      rw [List.append_nil]
      exact h
    obtain ⟨-, hnil⟩ | ⟨d', hread, -, htag, -, hrest, -⟩ := readFlvHeader_spec hflv hbuffer
    · exact absurd rfl hnil
    · rw [List.append_nil] at hrest
      exact ⟨d', hread, htag, hrest⟩
  · rw [hready] at hflv h
    exact ⟨d, by rw [readFlvHeader, if_pos hflv], rfl, h⟩

/-- A demuxer finds the media header of a packet that has been accepted. -/
theorem exists_mediaHeader_of_accepts {pkt : MediaPacket} (h : accepts pkt = true) (rest : Bytes) :
    ∃ header, mediaHeader (tagTypeOf pkt) (mediaHeaderData pkt ++ rest) = .ok (some header) ∧
      header.headerLen = (mediaHeaderData pkt).length := by
  rw [accepts] at h
  rcases hav : pkt.avType with _ | _ | _ | _
  · simp [hav] at h
  · rw [hav] at h
    obtain ⟨codec, hcodec⟩ := Option.isSome_iff_exists.mp h
    have hmem : pkt.codecType ∈ [.h264, .h265, .vp8, .vp9] := by
      revert hcodec
      rcases pkt.codecType <;> simp [videoCodecByte]
    obtain ⟨codec', hcodec', hread⟩ := videoCodec_byte hmem
    rw [hcodec, Option.some.injEq] at hcodec'
    subst hcodec'
    have hdata : ∃ flag ∈ [FLV_VIDEO_KEY_FLAG, FLV_VIDEO_INTER_FLAG], ∃ avc,
        mediaHeaderData pkt = (flag ||| codec) :: avc :: BigEndian.digits 3 (tsDelta pkt) ∧
          (avc = 0x00 ∨ avc = 0x01) := by
      rw [mediaHeaderData, hav, hcodec]
      show ∃ flag ∈ _, ∃ avc, videoHeaderData pkt codec = _ ∧ _
      rw [videoHeaderData]
      rcases pkt.isSeqHdr with _ | _
      · rcases pkt.isKeyFrame with _ | _
        · exact ⟨_, by simp, _, rfl, .inr rfl⟩
        · exact ⟨_, by simp, _, rfl, .inr rfl⟩
      · exact ⟨_, by simp, _, rfl, .inl rfl⟩
    obtain ⟨flag, hflag, avc, hdata, havc⟩ := hdata
    have htype : tagTypeOf pkt = FLV_TAG_VIDEO := if_pos hav
    rw [htype, hdata]
    refine ⟨_, videoHeader_cons _ rest (hread flag hflag).1 ?_, by simp⟩
    rcases havc with rfl | rfl <;> simp
  · rw [hav] at h
    obtain ⟨codec, hcodec⟩ := Option.isSome_iff_exists.mp h
    have hmem : pkt.codecType ∈ [.aac, .opus] := by
      revert hcodec
      rcases pkt.codecType <;> simp [audioCodecByte]
    obtain ⟨codec', hcodec', hread⟩ := audioCodec_byte hmem
    rw [hcodec, Option.some.injEq] at hcodec'
    subst hcodec'
    have hdata : mediaHeaderData pkt = audioHeaderData pkt codec := by
      rw [mediaHeaderData, hav, hcodec]
      rfl
    have htype : tagTypeOf pkt = FLV_TAG_AUDIO := if_neg (by rw [hav]; decide)
    rw [htype, hdata]
    exact ⟨_, audioHeader_cons _ rest hread, rfl⟩
  · simp [hav] at h

/-- The tag that is written for a packet, with the timestamp that it carries. -/
def writtenTag (pkt : MediaPacket) (h : pkt.buffer.length < 2 ^ 24 - 5) : FlvTag :=
  { FlvTag.ofPacket pkt h with timestamp := UInt32.ofNat (pkt.dts % 2 ^ 24).toNat }

theorem writtenTag_timestamp (pkt : MediaPacket) (h : pkt.buffer.length < 2 ^ 24 - 5) :
    (writtenTag pkt h).timestamp.toNat = (pkt.dts % 2 ^ 24).toNat := by
  show (UInt32.ofNat (pkt.dts % 2 ^ 24).toNat).toNat = _
  rw [UInt32.toNat_ofNat']
  omega

theorem writtenTag_bytes (pkt : MediaPacket) (h : pkt.buffer.length < 2 ^ 24 - 5) :
    (writtenTag pkt h).bytes = tagBytes pkt := by
  rw [FlvTag.bytes, FlvTag.header, writtenTag_timestamp, tagBytes, tagHeaderData,
    Nat.shiftRight_eq_div_pow]
  rfl

theorem writtenTag_readable {pkt : MediaPacket} (h : pkt.buffer.length < 2 ^ 24 - 5)
    (haccepts : accepts pkt = true) :
    (writtenTag pkt h).Readable ∧
      (writtenTag pkt h).contents.map MediaContent.dts = [pkt.dts % 2 ^ 24] := by
  obtain ⟨header, hread, hlen⟩ := exists_mediaHeader_of_accepts haccepts pkt.buffer
  have hhas : (writtenTag pkt h).HasHeader header := by
    refine ⟨hread, ?_⟩
    show header.headerLen ≤ (mediaHeaderData pkt ++ pkt.buffer).length
    rw [hlen, List.length_append]
    omega
  have hmedia : (writtenTag pkt h).isMedia := by
    show tagTypeOf pkt = _ ∨ tagTypeOf pkt = _
    rw [tagTypeOf]
    split
    · exact .inr rfl
    · exact .inl rfl
  refine ⟨fun _ => ⟨header, hhas⟩, ?_⟩
  rw [FlvTag.contents_of_header hmedia hhas]
  show [((writtenTag pkt h).timestamp.toNat : Int)] = _
  rw [writtenTag_timestamp]
  congr 1
  omega

/-- The tags of packets that are all accepted. -/
theorem exists_writtenTags {pkts : List MediaPacket}
    (h : ∀ pkt ∈ pkts, accepts pkt = true ∧ pkt.buffer.length < 2 ^ 24 - 5) :
    ∃ tags : List FlvTag, tagsOf pkts = tagsBytes tags ∧ (∀ t ∈ tags, t.Readable) ∧
      (tags.flatMap FlvTag.contents).map MediaContent.dts =
        pkts.map fun pkt => pkt.dts % 2 ^ 24 := by
  induction pkts with
  | nil => exact ⟨[], rfl, by simp, rfl⟩
  | cons pkt pkts ih =>
    rw [List.forall_mem_cons] at h
    obtain ⟨tags, hbytes, hreadable, hdts⟩ := ih h.2
    obtain ⟨haccepts, hlen⟩ := h.1
    obtain ⟨hfirst, hcontents⟩ := writtenTag_readable hlen haccepts
    refine ⟨writtenTag pkt hlen :: tags, ?_, List.forall_mem_cons.mpr ⟨hfirst, hreadable⟩, ?_⟩
    · rw [tagsOf_cons, if_pos haccepts, hbytes, ← writtenTag_bytes pkt hlen]
      rfl
    · rw [List.flatMap_cons, List.map_append, hcontents, hdts]
      rfl

/-- A demuxer that gets the file of packets, cut anywhere. -/
theorem demuxed_dts (hasVideo hasAudio : Bool) {pkts pieces : List MediaPacket}
    (h : ∀ pkt ∈ pkts, accepts pkt = true ∧ pkt.buffer.length < 2 ^ 24 - 5)
    (hstream : (pieces.map MediaPacket.buffer).flatten = output pkts { hasVideo, hasAudio }) :
    ∃ d out, FlvDemuxer.inputAll pieces {} = .ok (d, out) ∧
      out.map MediaPacket.dts = pkts.map fun pkt => pkt.dts % 2 ^ 24 := by
  rcases pkts with _ | ⟨pkt, pkts⟩
  · obtain ⟨d, hd⟩ := FlvDemuxer.input_empty hstream
    exact ⟨d, [], hd, rfl⟩
  · obtain ⟨tags, hbytes, hreadable, hdts⟩ := exists_writtenTags h
    have haccepts := (h pkt (by simp)).1
    have hfile : output (pkt :: pkts) { hasVideo, hasAudio } =
        flvFileHeader (headerFlag hasVideo hasAudio) ++ tagsBytes tags := by
      rw [(intact_of_accepts rfl haccepts pkts).output_eq, fileOf, List.any_cons, haccepts, hbytes]
      rfl
    obtain ⟨d, out, hrun, hout⟩ := input_stream hreadable (hstream.trans hfile)
    refine ⟨d, out, hrun, ?_⟩
    rw [← hdts, ← hout, List.map_map]
    rfl

/-- **Timestamps of more than 24 bits.**  The tag of a packet is read back with the
lower 24 bits of its timestamp, so never with the timestamp.  The packets that come out
of a demuxer are in order exactly when the lower bits are. -/
theorem timestamps_wrap (pkts : List MediaPacket) (haccepts : ∀ pkt ∈ pkts, accepts pkt = true) :
    (∀ (m : FlvMuxer), ∀ pkt ∈ pkts, 2 ^ 24 ≤ pkt.dts → pkt.dts < 2 ^ 32 →
      ∃ out, (m.inputPacket pkt).2.2 = [out] ∧
        ∀ (d : FlvDemuxer) (rest : Bytes), d.flvHeaderReady = m.headerReady →
          d.tagHeaderReady = false → d.buffer = out.buffer ++ rest →
          ∃ d₁ d₂, readFlvHeader d = .ok (none, d₁) ∧ readTagHeader d₁ = .ok (none, d₂) ∧
            (d₂.tagTimestamp.toNat : Int) = pkt.dts % 2 ^ 24 ∧
            (d₂.tagTimestamp.toNat : Int) ≠ pkt.dts) ∧
    (∀ (hasVideo hasAudio : Bool) (pieces : List MediaPacket),
      (∀ pkt ∈ pkts, pkt.buffer.length < 2 ^ 24 - 5) →
      (pieces.map MediaPacket.buffer).flatten = output pkts { hasVideo, hasAudio } →
      ∃ d out, FlvDemuxer.inputAll pieces {} = .ok (d, out) ∧
        out.map MediaPacket.dts = (pkts.map fun pkt => pkt.dts % 2 ^ 24) ∧
        ((out.map MediaPacket.dts).Pairwise (· ≤ ·) ↔
          pkts.Pairwise fun a b => a.dts % 2 ^ 24 ≤ b.dts % 2 ^ 24)) := by
  refine ⟨fun m pkt hpkt hlow hhigh => ?_, fun hasVideo hasAudio pieces hlen hstream => ?_⟩
  · obtain ⟨-, hout⟩ := inputPacket_spec pkt m
    rw [if_pos (haccepts pkt hpkt), List.map_eq_singleton_iff] at hout
    obtain ⟨out, hout, hbuffer⟩ := hout
    refine ⟨out, hout, fun d rest hflv htag h => ?_⟩
    rw [hbuffer, List.append_assoc] at h
    obtain ⟨d₁, hfile, htag₁, hrest⟩ := readFlvHeader_output hflv h
    obtain ⟨d₂, hread, htime⟩ := readTagHeader_tagBytes (htag₁.trans htag) hrest
    refine ⟨d₁, d₂, hfile, hread, htime, ?_⟩
    rw [htime]
    omega
  · obtain ⟨d, out, hrun, hdts⟩ := demuxed_dts hasVideo hasAudio
      (fun pkt hpkt => ⟨haccepts pkt hpkt, hlen pkt hpkt⟩) hstream
    refine ⟨d, out, hrun, hdts, ?_⟩
    rw [hdts, List.pairwise_map]

/-- A packet 4.6 hours after the start of a stream. -/
def lateAudio : MediaPacket := { sampleAudio with dts := 16777216, pts := 16777216 }

/-- The late packet, behind a packet of the millisecond before. -/
def latePackets : List MediaPacket := [{ sampleAudio with dts := 16777215 }, lateAudio]

/-- The late packet, as a new muxer writes it, and behind the other one. -/
theorem timestamps_wrap_late :
    (∃ out, (inputPacket lateAudio { hasVideo := false, hasAudio := true }).2.2 = [out] ∧
      ∃ d₁ d₂, readFlvHeader { buffer := out.buffer ++ [] } = .ok (none, d₁) ∧
        readTagHeader d₁ = .ok (none, d₂) ∧ (d₂.tagTimestamp.toNat : Int) = 0) ∧
    ∃ d out, FlvDemuxer.inputAll
        [{ buffer := output latePackets { hasVideo := false, hasAudio := true } }] {} =
          .ok (d, out) ∧
      out.map MediaPacket.dts = [16777215, 0] := by
  have hwrap := timestamps_wrap latePackets (by decide)
  constructor
  · obtain ⟨out, hout, hread⟩ := hwrap.1 { hasVideo := false, hasAudio := true } lateAudio
      (by decide) (by decide) (by decide)
    obtain ⟨d₁, d₂, hfile, htag, htime, -⟩ :=
      hread { buffer := out.buffer ++ [] } [] rfl rfl rfl
    exact ⟨out, hout, d₁, d₂, hfile, htag, htime⟩
  · obtain ⟨d, out, hrun, hdts, -⟩ := hwrap.2 false true
      [{ buffer := output latePackets { hasVideo := false, hasAudio := true } }] (by decide)
      (List.append_nil _)
    exact ⟨d, out, hrun, hdts⟩

/-- The tag of the late packet has the timestamp 0, and the packets come out in the
wrong order. -/
theorem timestamps_not_kept :
    (∀ pkt ∈ latePackets, accepts pkt = true) ∧
      (latePackets.map MediaPacket.dts).Pairwise (· ≤ ·) ∧
      ∃ d out, FlvDemuxer.inputAll
          [{ buffer := output latePackets { hasVideo := false, hasAudio := true } }] {} =
            .ok (d, out) ∧
        (d.tagTimestamp.toNat : Int) ≠ lateAudio.dts ∧
        ¬ (out.map MediaPacket.dts).Pairwise (· ≤ ·) := by
  refine ⟨by decide, by decide, ?_⟩
  obtain ⟨⟨d, out⟩, hrun, hout⟩ := Run.exists_of_map_toOption
    (show (FlvDemuxer.inputAll
        [{ buffer := output latePackets { hasVideo := false, hasAudio := true } }]
        {}).toOption.map (fun r => (r.1.tagTimestamp, r.2.map MediaPacket.dts)) =
          some (0, [16777215, 0]) by decide +kernel)
  rw [Prod.mk.injEq] at hout
  refine ⟨d, out, hrun, ?_, ?_⟩
  · rw [hout.1]
    decide
  · rw [hout.2]
    decide

end FlvMuxer

end MediaServer
