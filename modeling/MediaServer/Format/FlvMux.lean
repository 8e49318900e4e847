import MediaServer.Format.FlvDemux
import MediaServer.Utils.BufferMemory

/-!
# The FLV muxer

`format/flv/flv_mux`.  `input_packet` writes a packet as a tag, behind the file
header if it is the first one.  `add_flv_media_header` does only a part of that:
it puts the media header in front of the payload, in the buffer of the packet.

`MuxesTo` says that a tag carries a packet.  `contents_of_muxesTo` is the reason for
both round trips: a demuxer gives out the content of a packet for a tag that
carries it.
-/

namespace MediaServer

/-! ## Media headers -/

/-- The codec in the first byte of a video header. -/
def videoCodecByte : MediaCodecType → Option UInt8
  | .h264 => some FLV_VIDEO_H264_CODEC
  | .h265 => some FLV_VIDEO_H265_CODEC
  | .vp8 => some FLV_VIDEO_VP8_CODEC
  | .vp9 => some FLV_VIDEO_VP9_CODEC
  | _ => none

/-- The codec in the first byte of an audio header. -/
def audioCodecByte : MediaCodecType → Option UInt8
  | .aac => some FLV_AUDIO_AAC_CODEC
  | .opus => some FLV_AUDIO_OPUS_CODEC
  | _ => none

/-- `ts_delta`, an `uint32_t`. -/
def tsDelta (pkt : MediaPacket) : Nat :=
  if pkt.pts > pkt.dts then ((pkt.pts - pkt.dts) % 2 ^ 32).toNat else 0

/-! ## The muxer -/

/-- `flv_muxer`. -/
structure FlvMuxer where
  hasVideo : Bool
  hasAudio : Bool
  headerReady : Bool := false
  deriving DecidableEq, Repr

namespace FlvMuxer

/-- The flags of the file header. -/
def headerFlag (hasVideo hasAudio : Bool) : UInt8 :=
  (if hasVideo then 0x01 else 0) ||| (if hasAudio then 0x04 else 0)

/-- `mux_flv_header`. -/
def muxFlvHeader (m : FlvMuxer) : Bytes := flvFileHeader (headerFlag m.hasVideo m.hasAudio)

/-- The first 11 bytes of `header_data`. -/
def tagHeaderData (tagType : UInt8) (mediaSize : Nat) (dts : Int) : Bytes :=
  let timestampBase : Nat := (dts % 2 ^ 24).toNat
  let timestampExt : UInt8 := UInt8.ofNat (timestampBase >>> 24)
  tagType :: (BigEndian.digits 3 mediaSize ++ (BigEndian.digits 3 timestampBase ++
    [timestampExt, 0, 0, 1]))

/-- The bytes of `header_data` behind them, for video. -/
def videoHeaderData (pkt : MediaPacket) (codec : UInt8) : Bytes :=
  let (flag, avc) :=
    if pkt.isSeqHdr then (FLV_VIDEO_KEY_FLAG, FLV_VIDEO_AVC_SEQHDR)
    else if pkt.isKeyFrame then (FLV_VIDEO_KEY_FLAG, FLV_VIDEO_AVC_NALU)
    else (FLV_VIDEO_INTER_FLAG, FLV_VIDEO_AVC_NALU)
  (flag ||| codec) :: avc :: BigEndian.digits 3 (tsDelta pkt)

@[simp] theorem videoHeaderData_length (pkt : MediaPacket) (codec : UInt8) :
    (videoHeaderData pkt codec).length = 5 := by
  simp [videoHeaderData]

/-- The bytes of `header_data` behind them, for audio. -/
def audioHeaderData (pkt : MediaPacket) (codec : UInt8) : Bytes :=
  [0x0f ||| codec, if pkt.isSeqHdr then 0x00 else 0x01]

/-- The packet that the callback gets. -/
def outputPacket (fileHeader headerData : Bytes) (preSize : Nat) (pkt : MediaPacket) :
    MediaPacket :=
  { avType := pkt.avType
    codecType := pkt.codecType
    fmtType := .flv
    dts := pkt.dts
    pts := pkt.pts
    buffer := fileHeader ++ headerData ++ pkt.buffer ++ BigEndian.digits 4 preSize }

/-- `input_packet`, with what the callback gets.  The header counts as written also
when the packet is refused. -/
def inputPacket (pkt : MediaPacket) (m : FlvMuxer) : Int × FlvMuxer × List MediaPacket :=
  let fileHeader := if m.headerReady then [] else m.muxFlvHeader
  let m := { m with headerReady := true }
  let dataSize := pkt.buffer.length
  match pkt.avType with
  | .video =>
    match videoCodecByte pkt.codecType with
    | none => (-1, m, [])
    | some codec =>
      let headerData := tagHeaderData FLV_TAG_VIDEO (2 + 3 + dataSize) pkt.dts ++
        videoHeaderData pkt codec
      (0, m, [outputPacket fileHeader headerData (11 + 5 + dataSize) pkt])
  | .audio =>
    match audioCodecByte pkt.codecType with
    | none => (-1, m, [])
    | some codec =>
      let headerData := tagHeaderData FLV_TAG_AUDIO (2 + dataSize) pkt.dts ++
        audioHeaderData pkt codec
      (0, m, [outputPacket fileHeader headerData (11 + 2 + dataSize) pkt])
  | _ => (0, m, [])

/-- What the callback gets for packets that are put in one after another. -/
def inputAll : List MediaPacket → FlvMuxer → List MediaPacket
  | [], _ => []
  | pkt :: rest, m => (m.inputPacket pkt).2.2 ++ inputAll rest (m.inputPacket pkt).2.1

/-- The bytes that `add_flv_media_header` stores through the pointer that
`consume_data` has returned. -/
def store (pointer : Option Int) (bytes : Bytes) (b : BufferMemory) :
    Except Fault BufferMemory :=
  match pointer with
  | none => .error .nullPointer
  | some offset => do
    return { b with buffer := ← BufferMemory.writeMemory b.buffer offset bytes }

/-- The bytes `p[0]` and `p[1]` for audio. -/
def storedAudioHeader (pkt : MediaPacket) (codec : UInt8) : Bytes :=
  [codec ||| 0x0f, if pkt.isSeqHdr then 0x00 else 0x01]

/-- The bytes `p[0]` to `p[4]` for video. -/
def storedVideoHeader (pkt : MediaPacket) (codec : UInt8) : Bytes :=
  let p0 : UInt8 := 0 ||| codec
  let (p0, p1) : UInt8 × UInt8 :=
    if pkt.isKeyFrame || pkt.isSeqHdr then
      (p0 ||| FLV_VIDEO_KEY_FLAG, if pkt.isSeqHdr then 0x00 else 0x01)
    else (p0 ||| FLV_VIDEO_INTER_FLAG, 0x01)
  p0 :: p1 :: BigEndian.digits 3 (tsDelta pkt)

/-- `add_flv_media_header`, for a packet whose buffer is `b`.  A packet with an
unknown codec is left with the bytes that were taken back. -/
def addFlvMediaHeader (pkt : MediaPacket) (b : BufferMemory) : Except Fault (Int × BufferMemory) :=
  match pkt.avType with
  | .audio =>
    let (b, pointer) := b.consumeData (-2)
    match audioCodecByte pkt.codecType with
    | none => .ok (-1, b)
    | some codec => do
      return (0, ← store pointer (storedAudioHeader pkt codec) b)
  | .video =>
    let (b, pointer) := b.consumeData (-5)
    match videoCodecByte pkt.codecType with
    | none => do
      return (-1, ← store pointer [0] b)
    | some codec => do
      return (0, ← store pointer (storedVideoHeader pkt codec) b)
  | _ => .ok (0, b)

/-- Both ways to write a video header agree. -/
theorem storedVideoHeader_eq (pkt : MediaPacket) (codec : UInt8) :
    storedVideoHeader pkt codec = videoHeaderData pkt codec := by
  rw [storedVideoHeader, videoHeaderData]
  rcases pkt.isSeqHdr with _ | _
  · rcases pkt.isKeyFrame with _ | _
    · simp [FLV_VIDEO_AVC_NALU, UInt8.or_comm codec]
    · simp [FLV_VIDEO_AVC_NALU, UInt8.or_comm codec]
  · simp [FLV_VIDEO_AVC_SEQHDR, UInt8.or_comm codec]

theorem storedAudioHeader_eq (pkt : MediaPacket) (codec : UInt8) :
    storedAudioHeader pkt codec = audioHeaderData pkt codec := by
  rw [storedAudioHeader, audioHeaderData, UInt8.or_comm]

end FlvMuxer

/-! ## Packets in tags -/

/-- A video packet that FLV can carry. -/
structure MediaPacket.IsVideo (pkt : MediaPacket) : Prop where
  avType : pkt.avType = .video
  codec : pkt.codecType ∈ [.h264, .h265, .vp8, .vp9]
  flags : ¬ (pkt.isKeyFrame = true ∧ pkt.isSeqHdr = true)
  order : pkt.dts ≤ pkt.pts
  delta : pkt.pts - pkt.dts < 2 ^ 24

/-- An audio packet that FLV can carry. -/
structure MediaPacket.IsAudio (pkt : MediaPacket) : Prop where
  avType : pkt.avType = .audio
  codec : pkt.codecType ∈ [.aac, .opus]
  flags : pkt.isKeyFrame = false
  order : pkt.pts = pkt.dts

/-- The media header of a packet. -/
def mediaHeaderData (pkt : MediaPacket) : Bytes :=
  match pkt.avType with
  | .video => (videoCodecByte pkt.codecType).elim [] (FlvMuxer.videoHeaderData pkt)
  | .audio => (audioCodecByte pkt.codecType).elim [] (FlvMuxer.audioHeaderData pkt)
  | _ => []

/-- The type of the tag of a packet. -/
def tagTypeOf (pkt : MediaPacket) : UInt8 :=
  if pkt.avType = .video then FLV_TAG_VIDEO else FLV_TAG_AUDIO

/-- The tag carries the packet. -/
structure MuxesTo (pkt : MediaPacket) (t : FlvTag) : Prop where
  tagType : t.tagType = tagTypeOf pkt
  timestamp : (t.timestamp.toNat : Int) = pkt.dts
  data : t.data = mediaHeaderData pkt ++ pkt.buffer

open FlvDemuxer

/-- A video header with a codec that is known. -/
theorem videoHeader_cons {p0 p1 : UInt8} {codecType : MediaCodecType} (delta : Nat) (rest : Bytes)
    (hcodec : videoCodec p0 = some codecType)
    (hkey : (keyFlag p0 && p1 != 0x00 && p1 != 0x01) = false) :
    videoHeader (p0 :: p1 :: (BigEndian.digits 3 delta ++ rest)) =
      .ok (some { avType := .video, codecType := codecType
                  isKeyFrame := keyFlag p0 && p1 == 0x01, isSeqHdr := keyFlag p0 && p1 == 0x00
                  tsDelta := read3bytes (BigEndian.digits 3 delta ++ rest), headerLen := 5 }) := by
  have h0 : byteAt (p0 :: p1 :: (BigEndian.digits 3 delta ++ rest)) 0 = .ok p0 := rfl
  have h1 : byteAt (p0 :: p1 :: (BigEndian.digits 3 delta ++ rest)) 1 = .ok p1 := rfl
  rw [videoHeader, h0, Run.ok_bind, hcodec]
  show (byteAt _ 1 >>= _) = _
  rw [h1, Run.ok_bind, hkey]
  rfl

theorem audioHeader_cons {p0 : UInt8} {codecType : MediaCodecType} (p1 : UInt8) (rest : Bytes)
    (hcodec : audioCodec p0 = some codecType) :
    audioHeader (p0 :: p1 :: rest) =
      .ok (some { avType := .audio, codecType := codecType, isSeqHdr := p1 == 0x00
                  headerLen := 2 }) := by
  have h0 : byteAt (p0 :: p1 :: rest) 0 = .ok p0 := rfl
  rw [audioHeader, h0, Run.ok_bind, hcodec]
  rfl

/-- The difference of the timestamps comes back. -/
theorem read3bytes_tsDelta {pkt : MediaPacket} (h : pkt.IsVideo) (rest : Bytes) :
    ((read3bytes (BigEndian.digits 3 (tsDelta pkt) ++ rest)).toNat : Int) = pkt.pts - pkt.dts := by
  have horder := h.order
  have hdelta := h.delta
  have heq : (tsDelta pkt : Int) = pkt.pts - pkt.dts := by
    rw [tsDelta]
    split <;> omega
  rw [read3bytes, BigEndian.take_digits_append, BigEndian.value_digits, UInt32.toNat_ofNat']
  omega

/-- The first byte of a video header. -/
theorem videoCodec_byte {codecType : MediaCodecType} (h : codecType ∈ [.h264, .h265, .vp8, .vp9]) :
    ∃ codec, videoCodecByte codecType = some codec ∧
      ∀ flag ∈ [FLV_VIDEO_KEY_FLAG, FLV_VIDEO_INTER_FLAG],
        videoCodec (flag ||| codec) = some codecType ∧
          keyFlag (flag ||| codec) = (flag == FLV_VIDEO_KEY_FLAG) := by
  simp only [List.mem_cons, List.not_mem_nil, or_false] at h
  rcases h with rfl | rfl | rfl | rfl
  all_goals
    refine ⟨_, rfl, ?_⟩
    intro flag hflag
    simp only [List.mem_cons, List.not_mem_nil, or_false] at hflag
    rcases hflag with rfl | rfl
    · decide
    · decide

/-- The first byte of an audio header. -/
theorem audioCodec_byte {codecType : MediaCodecType} (h : codecType ∈ [.aac, .opus]) :
    ∃ codec, audioCodecByte codecType = some codec ∧
      audioCodec (0x0f ||| codec) = some codecType := by
  simp only [List.mem_cons, List.not_mem_nil, or_false] at h
  rcases h with rfl | rfl <;> exact ⟨_, rfl, by decide⟩

/-- A header is read back as the packet has it. -/
structure ReadsBack (pkt : MediaPacket) (header : MediaHeader) : Prop where
  avType : header.avType = pkt.avType
  codecType : header.codecType = pkt.codecType
  isKeyFrame : header.isKeyFrame = pkt.isKeyFrame
  isSeqHdr : header.isSeqHdr = pkt.isSeqHdr
  tsDelta : (header.tsDelta.toNat : Int) = pkt.pts - pkt.dts
  headerLen : header.headerLen = (mediaHeaderData pkt).length

/-- The two bytes before the timestamp say what the flags of the packet are. -/
theorem videoHeaderData_eq {pkt : MediaPacket} (codec : UInt8)
    (h : ¬ (pkt.isKeyFrame = true ∧ pkt.isSeqHdr = true)) :
    ∃ flag ∈ [FLV_VIDEO_KEY_FLAG, FLV_VIDEO_INTER_FLAG], ∃ avc,
      FlvMuxer.videoHeaderData pkt codec =
        (flag ||| codec) :: avc :: BigEndian.digits 3 (tsDelta pkt) ∧
      ((flag == FLV_VIDEO_KEY_FLAG) && avc == 0x01) = pkt.isKeyFrame ∧
      ((flag == FLV_VIDEO_KEY_FLAG) && avc == 0x00) = pkt.isSeqHdr ∧
      ((flag == FLV_VIDEO_KEY_FLAG) && avc != 0x00 && avc != 0x01) = false := by
  rw [FlvMuxer.videoHeaderData]
  rcases hseq : pkt.isSeqHdr with _ | _
  · rcases hkey : pkt.isKeyFrame with _ | _
    · exact ⟨FLV_VIDEO_INTER_FLAG, by simp, FLV_VIDEO_AVC_NALU, rfl, rfl, rfl, rfl⟩
    · exact ⟨FLV_VIDEO_KEY_FLAG, by simp, FLV_VIDEO_AVC_NALU, rfl, rfl, rfl, rfl⟩
  · rcases hkey : pkt.isKeyFrame with _ | _
    · exact ⟨FLV_VIDEO_KEY_FLAG, by simp, FLV_VIDEO_AVC_SEQHDR, rfl, rfl, rfl, rfl⟩
    · exact absurd ⟨hkey, hseq⟩ h

theorem videoHeader_readsBack {pkt : MediaPacket} (h : pkt.IsVideo) (rest : Bytes) :
    ∃ header, videoHeader (mediaHeaderData pkt ++ rest) = .ok (some header) ∧
      ReadsBack pkt header := by
  have hdelta := read3bytes_tsDelta h rest
  obtain ⟨hav, hcodec, hflags, -, -⟩ := h
  obtain ⟨codec, hbyte, hread⟩ := videoCodec_byte hcodec
  obtain ⟨flag, hflag, avc, heq, hkey, hseq, hgood⟩ := videoHeaderData_eq codec hflags
  obtain ⟨htype, hkeyFlag⟩ := hread flag hflag
  have hdata : mediaHeaderData pkt = (flag ||| codec) :: avc :: BigEndian.digits 3 (tsDelta pkt) := by
    rw [mediaHeaderData, hav, hbyte]
    exact heq
  rw [← hkeyFlag] at hkey hseq hgood
  rw [hdata]
  refine ⟨_, videoHeader_cons (tsDelta pkt) rest htype hgood, hav.symm, rfl, hkey, hseq, hdelta, ?_⟩
  rw [hdata]
  simp

theorem audioHeader_readsBack {pkt : MediaPacket} (h : pkt.IsAudio) (rest : Bytes) :
    ∃ header, audioHeader (mediaHeaderData pkt ++ rest) = .ok (some header) ∧
      ReadsBack pkt header := by
  obtain ⟨hav, hcodec, hflags, horder⟩ := h
  obtain ⟨codec, hbyte, htype⟩ := audioCodec_byte hcodec
  have hdata : mediaHeaderData pkt =
      [0x0f ||| codec, if pkt.isSeqHdr then (0x00 : UInt8) else 0x01] := by
    rw [mediaHeaderData, hav, hbyte]
    rfl
  rw [hdata]
  refine ⟨_, audioHeader_cons _ rest htype, hav.symm, rfl, hflags.symm, ?_, ?_, ?_⟩
  · rcases pkt.isSeqHdr with _ | _ <;> rfl
  · show ((0 : UInt32).toNat : Int) = _
    simp [horder]
  · rw [hdata]
    rfl

/-- A demuxer gives out the content of the packet that a tag carries. -/
theorem contents_of_muxesTo {pkt : MediaPacket} {t : FlvTag} (h : MuxesTo pkt t)
    (hpkt : pkt.IsVideo ∨ pkt.IsAudio) (hpts : pkt.pts < 2 ^ 32) :
    t.Readable ∧ t.contents = [pkt.content] := by
  obtain ⟨htype, htime, hdata⟩ := h
  obtain ⟨hmedia, header, hheader, hback⟩ : t.isMedia ∧ ∃ header,
      mediaHeader t.tagType t.data = .ok (some header) ∧ ReadsBack pkt header := by
    rw [FlvTag.isMedia, htype, tagTypeOf, hdata]
    rcases hpkt with hvideo | haudio
    · rw [if_pos hvideo.avType]
      exact ⟨.inr rfl, videoHeader_readsBack hvideo pkt.buffer⟩
    · rw [if_neg (by rw [haudio.avType]; decide)]
      exact ⟨.inl rfl, audioHeader_readsBack haudio pkt.buffer⟩
  obtain ⟨hav, hcodec, hkey, hseq, hdelta, hlen⟩ := hback
  have hhas : t.HasHeader header := ⟨hheader, by rw [hdata, hlen]; simp⟩
  refine ⟨fun _ => ⟨header, hhas⟩, ?_⟩
  rw [FlvTag.contents_of_header hmedia hhas, FlvTag.mediaContent, MediaPacket.content, hav, hcodec,
    hkey, hseq, htime, hdata, hlen, List.drop_left]
  have hsum : ((t.timestamp + header.tsDelta).toNat : Int) = pkt.pts := by
    have horder : pkt.dts ≤ pkt.pts := by
      rcases hpkt with hvideo | haudio
      · exact hvideo.order
      · exact Int.le_of_eq haudio.order.symm
    rw [UInt32.toNat_add]
    omega
  rw [hsum]

theorem mediaHeaderData_length_le (pkt : MediaPacket) : (mediaHeaderData pkt).length ≤ 5 := by
  rw [mediaHeaderData]
  split
  · rcases videoCodecByte pkt.codecType with _ | codec
    · exact Nat.zero_le _
    · exact Nat.le_of_eq (FlvMuxer.videoHeaderData_length pkt codec)
  · rcases audioCodecByte pkt.codecType with _ | codec
    · exact Nat.zero_le _
    · exact Nat.le_add_right 2 3
  · exact Nat.zero_le _

/-- The tag of a packet whose timestamp has 32 bits. -/
def FlvTag.ofPacket (pkt : MediaPacket) (h : pkt.buffer.length < 2 ^ 24 - 5) : FlvTag where
  tagType := tagTypeOf pkt
  timestamp := UInt32.ofNat pkt.dts.toNat
  streamId := [0, 0, 1]
  data := mediaHeaderData pkt ++ pkt.buffer
  preSize := BigEndian.digits 4 (11 + (mediaHeaderData pkt ++ pkt.buffer).length)
  data_length := by
    have hlen := mediaHeaderData_length_le pkt
    rw [List.length_append]
    omega
  streamId_length := rfl
  preSize_length := by simp

theorem muxesTo_ofPacket {pkt : MediaPacket} (h : pkt.buffer.length < 2 ^ 24 - 5)
    (hlow : 0 ≤ pkt.dts) (hhigh : pkt.dts < 2 ^ 32) : MuxesTo pkt (FlvTag.ofPacket pkt h) where
  tagType := rfl
  timestamp := by
    show ((UInt32.ofNat pkt.dts.toNat).toNat : Int) = pkt.dts
    rw [UInt32.toNat_ofNat']
    omega
  data := rfl

/-! ## The muxer against the demuxer -/

namespace FlvMuxer

/-- A packet that the muxer writes so that it can be read back. -/
structure Muxable (pkt : MediaPacket) : Prop where
  media : pkt.IsVideo ∨ pkt.IsAudio
  dts_nonneg : 0 ≤ pkt.dts
  dts_lt : pkt.dts < 2 ^ 24
  payload : pkt.buffer.length < 2 ^ 24 - 5

theorem Muxable.pts_lt {pkt : MediaPacket} (h : Muxable pkt) : pkt.pts < 2 ^ 32 := by
  have hdts := h.dts_lt
  rcases h.media with hvideo | haudio
  · have hdelta := hvideo.delta
    omega
  · have horder := haudio.order
    omega

/-- The first bytes of a tag, with a timestamp of 24 bits. -/
theorem tagHeaderData_eq {pkt : MediaPacket} (h : Muxable pkt) {size : Nat}
    (hsize : size = (mediaHeaderData pkt ++ pkt.buffer).length) :
    tagHeaderData (tagTypeOf pkt) size pkt.dts = (FlvTag.ofPacket pkt h.payload).header := by
  have hlow := h.dts_nonneg
  have hhigh := h.dts_lt
  have hbase : (pkt.dts % 2 ^ 24).toNat = (UInt32.ofNat pkt.dts.toNat).toNat := by
    rw [UInt32.toNat_ofNat']
    omega
  rw [tagHeaderData, FlvTag.header, hbase, Nat.shiftRight_eq_div_pow, hsize]
  rfl

/-! ### What is written for a packet -/

/-- The muxer writes the packet.  It rejects any other. -/
def accepts (pkt : MediaPacket) : Bool :=
  match pkt.avType with
  | .video => (videoCodecByte pkt.codecType).isSome
  | .audio => (audioCodecByte pkt.codecType).isSome
  | _ => false

/-- The tag of a packet that is accepted. -/
def tagBytes (pkt : MediaPacket) : Bytes :=
  let data := mediaHeaderData pkt ++ pkt.buffer
  tagHeaderData (tagTypeOf pkt) data.length pkt.dts ++
    (data ++ BigEndian.digits 4 (11 + data.length))

theorem outputPacket_buffer {pkt : MediaPacket} (fileHeader : Bytes) {tagType : UInt8}
    {size preSize : Nat} (htype : tagTypeOf pkt = tagType)
    (hsize : size = (mediaHeaderData pkt ++ pkt.buffer).length) (hpre : preSize = 11 + size) :
    (outputPacket fileHeader (tagHeaderData tagType size pkt.dts ++ mediaHeaderData pkt)
      preSize pkt).buffer = fileHeader ++ tagBytes pkt := by
  subst htype hsize hpre
  show fileHeader ++ (_ ++ mediaHeaderData pkt) ++ pkt.buffer ++ _ = _
  simp only [tagBytes, List.append_assoc]

/-- `input_packet` writes the tag of a packet that it accepts, behind the file header
if that is not yet written, and nothing for another packet. -/
theorem inputPacket_spec (pkt : MediaPacket) (m : FlvMuxer) :
    (m.inputPacket pkt).2.1 = { m with headerReady := true } ∧
      (m.inputPacket pkt).2.2.map MediaPacket.buffer =
        if accepts pkt then [(if m.headerReady then [] else m.muxFlvHeader) ++ tagBytes pkt]
        else [] := by
  rw [inputPacket, accepts]
  rcases hav : pkt.avType with _ | _ | _ | _
  · exact ⟨rfl, rfl⟩
  · rcases hcodec : videoCodecByte pkt.codecType with _ | codec
    · exact ⟨rfl, rfl⟩
    · have hdata : mediaHeaderData pkt = videoHeaderData pkt codec := by
        rw [mediaHeaderData, hav, hcodec]
        rfl
      refine ⟨rfl, congrArg (· :: []) ?_⟩
      rw [← hdata]
      apply outputPacket_buffer
      · exact if_pos hav
      · rw [List.length_append, hdata, videoHeaderData_length]
      · omega
  · rcases hcodec : audioCodecByte pkt.codecType with _ | codec
    · exact ⟨rfl, rfl⟩
    · have hdata : mediaHeaderData pkt = audioHeaderData pkt codec := by
        rw [mediaHeaderData, hav, hcodec]
        rfl
      refine ⟨rfl, congrArg (· :: []) ?_⟩
      rw [← hdata]
      apply outputPacket_buffer
      · exact if_neg (by rw [hav]; decide)
      · rw [List.length_append, hdata]
        rfl
      · omega
  · exact ⟨rfl, rfl⟩

theorem Muxable.accepts {pkt : MediaPacket} (h : Muxable pkt) : accepts pkt = true := by
  rw [FlvMuxer.accepts]
  rcases h.media with hvideo | haudio
  · obtain ⟨codec, hbyte, -⟩ := videoCodec_byte hvideo.codec
    rw [hvideo.avType, hbyte]
    rfl
  · obtain ⟨codec, hbyte, -⟩ := audioCodec_byte haudio.codec
    rw [haudio.avType, hbyte]
    rfl

/-- The bytes that `input_packet` writes for a packet. -/
theorem inputPacket_eq {pkt : MediaPacket} (h : Muxable pkt) (m : FlvMuxer) :
    (m.inputPacket pkt).2.1 = { m with headerReady := true } ∧
      (m.inputPacket pkt).2.2.map MediaPacket.buffer =
        [(if m.headerReady then [] else m.muxFlvHeader) ++
          (FlvTag.ofPacket pkt h.payload).bytes] := by
  obtain ⟨hmuxer, hout⟩ := inputPacket_spec pkt m
  refine ⟨hmuxer, ?_⟩
  rw [hout, if_pos h.accepts, tagBytes, tagHeaderData_eq h rfl]
  rfl

/-- What a muxer that has written its header gives for packets. -/
theorem inputAll_eq {pkts : List MediaPacket} (h : ∀ pkt ∈ pkts, Muxable pkt) {m : FlvMuxer}
    (hready : m.headerReady = true) :
    ∃ tags : List FlvTag, List.Forall₂ MuxesTo pkts tags ∧
      (inputAll pkts m).map MediaPacket.buffer = tags.map FlvTag.bytes := by
  induction pkts with
  | nil => exact ⟨[], .nil, rfl⟩
  | cons pkt pkts ih =>
    obtain ⟨tags, hmuxes, hbytes⟩ := ih fun p hp => h p (List.mem_cons_of_mem _ hp)
    have hpkt := h pkt (by simp)
    obtain ⟨hmuxer, hbuffer⟩ := inputPacket_eq hpkt m
    have hlow := hpkt.dts_nonneg
    have hhigh := hpkt.dts_lt
    refine ⟨FlvTag.ofPacket pkt hpkt.payload :: tags,
      .cons (muxesTo_ofPacket hpkt.payload hlow (by omega)) hmuxes, ?_⟩
    have hsame : { m with headerReady := true } = m := by rw [← hready]
    rw [inputAll, hmuxer, hsame, List.map_append, hbytes, hbuffer, hready]
    rfl

/-- Tags, with complete tags of other types between them. -/
inductive Woven : List Bytes → Bytes → Prop
  | nil : Woven [] []
  | tag (bytes : Bytes) {tags : List Bytes} {stream : Bytes} (h : Woven tags stream) :
    Woven (bytes :: tags) (bytes ++ stream)
  | other (t : FlvTag) (ht : ¬ t.isMedia) {tags : List Bytes} {stream : Bytes}
    (h : Woven tags stream) : Woven tags (t.bytes ++ stream)

/-- A stream of what a muxer has written, with other tags between its tags.  The
first output has the file header in front of its tag. -/
def WovenStream (fileHeader : Bytes) : List Bytes → Bytes → Prop
  | [], stream => stream = []
  | first :: rest, stream =>
    ∃ tag tail, first = fileHeader ++ tag ∧ stream = fileHeader ++ tail ∧ Woven (tag :: rest) tail

/-- A woven stream is a stream of tags that a demuxer understands. -/
theorem exists_tags_of_woven {outs : List Bytes} {stream : Bytes} (h : Woven outs stream)
    {pkts : List MediaPacket} {tags : List FlvTag} (hpkts : ∀ pkt ∈ pkts, Muxable pkt)
    (hmuxes : List.Forall₂ MuxesTo pkts tags) (houts : outs = tags.map FlvTag.bytes) :
    ∃ all : List FlvTag, (∀ t ∈ all, t.Readable) ∧ stream = tagsBytes all ∧
      all.flatMap FlvTag.contents = pkts.map MediaPacket.content := by
  induction h generalizing pkts tags with
  | nil =>
    cases List.map_eq_nil_iff.mp houts.symm
    cases hmuxes
    exact ⟨[], by simp, rfl, rfl⟩
  | tag bytes h ih =>
    rcases hmuxes with _ | ⟨hmux, hmuxes⟩
    · cases houts
    · rename_i pkt t pkts tags
      obtain ⟨rfl, hrest⟩ := List.cons.inj houts
      obtain ⟨all, hall, rfl, hcontents⟩ :=
        ih (fun p hp => hpkts p (List.mem_cons_of_mem _ hp)) hmuxes hrest
      have hpkt := hpkts pkt (by simp)
      obtain ⟨hreadable, hcontent⟩ := contents_of_muxesTo hmux hpkt.media hpkt.pts_lt
      refine ⟨t :: all, List.forall_mem_cons.mpr ⟨hreadable, hall⟩, rfl, ?_⟩
      rw [List.flatMap_cons, hcontent, hcontents]
      rfl
  | other t ht h ih =>
    obtain ⟨all, hall, rfl, hcontents⟩ := ih hpkts hmuxes houts
    refine ⟨t :: all, List.forall_mem_cons.mpr ⟨fun hmedia => absurd hmedia ht, hall⟩, rfl, ?_⟩
    rw [List.flatMap_cons, FlvTag.contents_of_not_media ht, hcontents]
    rfl

/-- **Round trip.**  What a muxer writes for packets, with tags of other types
between its tags and cut into any pieces, makes a demuxer give out the same
packets. -/
theorem flv_round_trip (hasVideo hasAudio : Bool) {pkts pieces : List MediaPacket}
    (hpkts : ∀ pkt ∈ pkts, Muxable pkt)
    (hstream : WovenStream (muxFlvHeader { hasVideo, hasAudio })
      ((inputAll pkts { hasVideo, hasAudio }).map MediaPacket.buffer)
      (pieces.map MediaPacket.buffer).flatten) :
    ∃ d out, FlvDemuxer.inputAll pieces {} = .ok (d, out) ∧
      out.map MediaPacket.content = pkts.map MediaPacket.content := by
  rcases pkts with _ | ⟨pkt, pkts⟩
  · obtain ⟨d, hd⟩ := FlvDemuxer.input_empty hstream
    exact ⟨d, [], hd, rfl⟩
  · have hpkt := hpkts pkt (by simp)
    obtain ⟨hmuxer, hbuffer⟩ := inputPacket_eq hpkt { hasVideo, hasAudio }
    obtain ⟨tags, hmuxes, hbytes⟩ :=
      @inputAll_eq pkts (fun p hp => hpkts p (List.mem_cons_of_mem _ hp))
        { hasVideo, hasAudio, headerReady := true } rfl
    rw [inputAll, hmuxer, List.map_append, hbytes, hbuffer] at hstream
    obtain ⟨tag, tail, hfirst, hcut, hwoven⟩ := hstream
    have htag := List.append_cancel_left hfirst
    subst htag
    have hlow := hpkt.dts_nonneg
    have hhigh := hpkt.dts_lt
    obtain ⟨all, hall, htail, hcontents⟩ := exists_tags_of_woven hwoven hpkts
      (.cons (muxesTo_ofPacket hpkt.payload hlow (by omega)) hmuxes) rfl
    rw [htail] at hcut
    obtain ⟨d, pkts', hrun, hout⟩ := input_stream hall hcut
    exact ⟨d, pkts', hrun, hout.trans hcontents⟩

/-- A sample video packet. -/
def sampleVideo : MediaPacket :=
  { avType := .video, codecType := .h265, dts := 16777215, pts := 16777300, isKeyFrame := true
    buffer := [1, 2, 3] }

/-- A sample audio packet. -/
def sampleAudio : MediaPacket :=
  { avType := .audio, codecType := .opus, dts := 7, pts := 7, isSeqHdr := true }

/-- A sample tag with script data. -/
def sampleScript : FlvTag where
  tagType := 18
  timestamp := 5
  streamId := [0, 0, 0]
  data := [2, 0]
  preSize := [0, 0, 0, 13]
  data_length := by decide
  streamId_length := rfl
  preSize_length := rfl

/-- The sample packets as a muxer writes them, with the sample tag between them. -/
def sampleStream : Bytes :=
  muxFlvHeader { hasVideo := true, hasAudio := true } ++
    ((FlvTag.ofPacket sampleVideo (by decide)).bytes ++
      (sampleScript.bytes ++ ((FlvTag.ofPacket sampleAudio (by decide)).bytes ++ [])))

/-- The sample stream, cut inside the header of its first tag. -/
theorem flv_round_trip_sample :
    ∃ d out, FlvDemuxer.inputAll [{ buffer := sampleStream.take 20 },
        { buffer := sampleStream.drop 20 }] {} = .ok (d, out) ∧
      out.map MediaPacket.content = [sampleVideo, sampleAudio].map MediaPacket.content := by
  apply flv_round_trip true true
  · intro pkt hpkt
    simp only [List.mem_cons, List.not_mem_nil, or_false] at hpkt
    rcases hpkt with rfl | rfl
    · exact ⟨.inl ⟨rfl, by decide, by decide, by decide, by decide⟩, by decide, by decide, by decide⟩
    · exact ⟨.inr ⟨rfl, by decide, rfl, rfl⟩, by decide, by decide, by decide⟩
  · refine ⟨(FlvTag.ofPacket sampleVideo (by decide)).bytes, _, by decide +kernel, ?_,
      .tag _ (.other sampleScript (by decide) (.tag _ .nil))⟩
    decide +kernel

end FlvMuxer

end MediaServer
