import Mathlib.Data.List.Basic
import Mathlib.Tactic.Common
import MediaServer.Av.GopCache
import MediaServer.Lib.Run

/-!
# The FLV demuxer

`format/flv/flv_demux`.  The demuxer gets a stream in pieces of any size.  It
waits for the file header, then for the header of a tag, then for the data of
this tag and the four bytes behind it.  A tag with audio or video becomes a
packet, and any other tag is skipped.

`FlvTag` is a tag on the wire.  `input_stream` says what comes out for a stream
of tags that the demuxer understands: one packet for each tag with media, in
order, however the stream is cut.  `Expects` carries the proof.  It says which
tags a demuxer still has to see, given its unread bytes and the bytes to come.
-/

namespace MediaServer

/-! ## Constants -/

/-- The type of an audio tag. -/
def FLV_TAG_AUDIO : UInt8 := 0x08

/-- The type of a video tag. -/
def FLV_TAG_VIDEO : UInt8 := 0x09

/-- The frame type of a key frame. -/
def FLV_VIDEO_KEY_FLAG : UInt8 := 0x10

/-- The frame type of any other frame. -/
def FLV_VIDEO_INTER_FLAG : UInt8 := 0x20

/-- The packet type of a sequence header. -/
def FLV_VIDEO_AVC_SEQHDR : UInt8 := 0x00

/-- The packet type of a frame. -/
def FLV_VIDEO_AVC_NALU : UInt8 := 0x01

/-- The codec id of H.264. -/
def FLV_VIDEO_H264_CODEC : UInt8 := 0x07

/-- The codec id of H.265. -/
def FLV_VIDEO_H265_CODEC : UInt8 := 0x0c

/-- The codec id of VP8. -/
def FLV_VIDEO_VP8_CODEC : UInt8 := 0x0e

/-- The codec id of VP9. -/
def FLV_VIDEO_VP9_CODEC : UInt8 := 0x0f

/-- The sound format of Opus. -/
def FLV_AUDIO_OPUS_CODEC : UInt8 := 0x90

/-- The sound format of AAC. -/
def FLV_AUDIO_AAC_CODEC : UInt8 := 0xa0

/-- The result of a call that waits for more bytes. -/
def FLV_RET_NEED_MORE : Int := 1

/-- The length of the header of the file. -/
def FLV_HEADER_LEN : Nat := 9

/-- The length of the size of the tag before. -/
def FLV_TAG_PRE_SIZE : Nat := 4

/-- The length of the header of a tag. -/
def FLV_TAG_HEADER_LEN : Nat := 11

/-! ## The demuxer -/

/-- `flv_demuxer`. -/
structure FlvDemuxer where
  buffer : DataBuffer := []
  key : Bytes := []
  hasVideo : Bool := false
  hasAudio : Bool := false
  flvHeaderReady : Bool := false
  tagHeaderReady : Bool := false
  tagType : UInt8 := 0
  tagDataSize : UInt32 := 0
  tagTimestamp : UInt32 := 0
  deriving DecidableEq, Repr

namespace FlvDemuxer

/-- `p[i]`, where `p` points to the unread bytes. -/
def byteAt (p : Bytes) (i : Nat) : Except Fault UInt8 :=
  match p[i]? with
  | some b => .ok b
  | none => .error .outOfBounds

/-- The file header.  The result is the code to return, if any. -/
def readFlvHeader (d : FlvDemuxer) : Except Fault (Option Int × FlvDemuxer) :=
  if d.flvHeaderReady then .ok (none, d)
  else if !d.buffer.require (FLV_HEADER_LEN + FLV_TAG_PRE_SIZE) then
    .ok (some FLV_RET_NEED_MORE, d)
  else do
    let p := d.buffer
    if (← byteAt p 0) ≠ 0x46 ∨ (← byteAt p 1) ≠ 0x4c ∨ (← byteAt p 2) ≠ 0x56 then
      return (some (-1), d)
    let flags ← byteAt p 4
    let d := { d with
      hasVideo := d.hasVideo || flags &&& 0x01 == 0x01
      hasAudio := d.hasAudio || flags &&& 0x04 == 0x04 }
    if (← byteAt p 5) ≠ 0 ∨ (← byteAt p 6) ≠ 0 ∨ (← byteAt p 7) ≠ 0 ∨ (← byteAt p 8) ≠ 9 then
      return (some (-1), d)
    return (none, { d with
      buffer := d.buffer.consumeData (FLV_HEADER_LEN + FLV_TAG_PRE_SIZE)
      flvHeaderReady := true })

/-- The header of a tag. -/
def readTagHeader (d : FlvDemuxer) : Except Fault (Option Int × FlvDemuxer) :=
  if d.tagHeaderReady then .ok (none, d)
  else if !d.buffer.require FLV_TAG_HEADER_LEN then .ok (some FLV_RET_NEED_MORE, d)
  else do
    let p := d.buffer
    let tagType ← byteAt p 0
    let extended ← byteAt p 7
    return (none, { d with
      tagType := tagType
      tagDataSize := read3bytes (p.drop 1)
      tagTimestamp := read3bytes (p.drop 4) ||| extended.toUInt32 <<< 24
      tagHeaderReady := true
      buffer := d.buffer.consumeData FLV_TAG_HEADER_LEN })

/-- The fields of a packet that the media header gives, and its length. -/
structure MediaHeader where
  avType : MediaPktType
  codecType : MediaCodecType
  isKeyFrame : Bool := false
  isSeqHdr : Bool := false
  tsDelta : UInt32 := 0
  headerLen : Nat
  deriving DecidableEq, Repr

/-- The codec that the first byte of audio data names. -/
def audioCodec (p0 : UInt8) : Option MediaCodecType :=
  if p0 &&& 0xf0 = FLV_AUDIO_AAC_CODEC then some .aac
  else if p0 &&& 0xf0 = FLV_AUDIO_OPUS_CODEC then some .opus
  else none

/-- The two bytes before audio data. -/
def audioHeader (p : Bytes) : Except Fault (Option MediaHeader) := do
  let p0 ← byteAt p 0
  match audioCodec p0 with
  | none => return none
  | some codecType =>
    let p1 ← byteAt p 1
    return some
      { avType := .audio, codecType := codecType, isSeqHdr := p1 == 0x00, headerLen := 2 }

/-- The codec that the first byte of video data names. -/
def videoCodec (p0 : UInt8) : Option MediaCodecType :=
  if p0 &&& 0x0f = FLV_VIDEO_H264_CODEC then some .h264
  else if p0 &&& 0x0f = FLV_VIDEO_H265_CODEC then some .h265
  else if p0 &&& 0x0f = FLV_VIDEO_VP8_CODEC then some .vp8
  else if p0 &&& 0x0f = FLV_VIDEO_VP9_CODEC then some .vp9
  else none

/-- The first byte of video data names a key frame. -/
def keyFlag (p0 : UInt8) : Bool := p0 &&& 0xf0 == FLV_VIDEO_KEY_FLAG

/-- The five bytes before video data. -/
def videoHeader (p : Bytes) : Except Fault (Option MediaHeader) := do
  let p0 ← byteAt p 0
  match videoCodec p0 with
  | none => return none
  | some codecType =>
    let p1 ← byteAt p 1
    if keyFlag p0 && p1 != 0x00 && p1 != 0x01 then return none
    else
      -- `read_3bytes(p + 2)`
      let _ ← byteAt p 4
      return some
        { avType := .video, codecType := codecType
          isKeyFrame := keyFlag p0 && p1 == 0x01, isSeqHdr := keyFlag p0 && p1 == 0x00
          tsDelta := read3bytes (p.drop 2), headerLen := 5 }

/-- The bytes before the data of an audio or video tag. -/
def mediaHeader (tagType : UInt8) (p : Bytes) : Except Fault (Option MediaHeader) :=
  if tagType = FLV_TAG_AUDIO then audioHeader p else videoHeader p

/-- The data of a tag.  `output` is what `output_packet` of the callback returns.
A size below the length of the media header wraps, and the copy leaves the
buffer. -/
def readTagData (output : MediaPacket → Int) (d : FlvDemuxer) :
    Except Fault (Int × FlvDemuxer × List MediaPacket) :=
  let total := d.tagDataSize.toNat + FLV_TAG_PRE_SIZE
  if !d.buffer.require total then .ok (FLV_RET_NEED_MORE, d, [])
  else
    let p := d.buffer
    let next := { d with buffer := d.buffer.consumeData total, tagHeaderReady := false }
    if d.tagType = FLV_TAG_AUDIO ∨ d.tagType = FLV_TAG_VIDEO then do
      match ← mediaHeader d.tagType p with
      | none => return (-1, d, [])
      | some header =>
        if d.tagDataSize.toNat < header.headerLen then .error .outOfBounds
        else
          let pkt : MediaPacket :=
            { avType := header.avType
              codecType := header.codecType
              fmtType := .raw
              dts := d.tagTimestamp.toNat
              pts := (d.tagTimestamp + header.tsDelta).toNat
              isKeyFrame := header.isKeyFrame
              isSeqHdr := header.isSeqHdr
              buffer := (p.take d.tagDataSize.toNat).drop header.headerLen
              key := d.key }
          return (output pkt, next, [pkt])
    else .ok (0, next, [])

/-- `handle_packet` behind the file header. -/
def handleTag (output : MediaPacket → Int) (d : FlvDemuxer) :
    Except Fault (Int × FlvDemuxer × List MediaPacket) := do
  match ← readTagHeader d with
  | (some ret, d) => return (ret, d, [])
  | (none, d) => readTagData output d

/-- `handle_packet`, with the packets that the callback gets. -/
def handlePacket (output : MediaPacket → Int) (d : FlvDemuxer) :
    Except Fault (Int × FlvDemuxer × List MediaPacket) := do
  match ← readFlvHeader d with
  | (some ret, d) => return (ret, d, [])
  | (none, d) => handleTag output d

/-- The loop of `input_packet`.  A turn that returns 0 has consumed bytes, so one
turn more than there are bytes is enough. -/
def handleLoop (output : MediaPacket → Int) :
    Nat → FlvDemuxer → Except Fault (Int × FlvDemuxer × List MediaPacket)
  | 0, _ => .error .hang
  | turns + 1, d => do
    let (ret, d, out) ← handlePacket output d
    if ret = 0 then
      let (ret, d, rest) ← handleLoop output turns d
      return (ret, d, out ++ rest)
    else return (ret, d, out)

/-- `input_packet`.  The first key that comes with a packet stays. -/
def inputPacket (output : MediaPacket → Int) (pkt : MediaPacket) (d : FlvDemuxer) :
    Except Fault (Int × FlvDemuxer × List MediaPacket) :=
  let d := { d with
    buffer := d.buffer.appendData pkt.buffer
    key := if d.key.isEmpty && !pkt.key.isEmpty then pkt.key else d.key }
  handleLoop output (d.buffer.length + 1) d

/-- Pieces of a stream, one after another.  The callback returns 0. -/
def inputAll : List MediaPacket → FlvDemuxer → Except Fault (FlvDemuxer × List MediaPacket)
  | [], d => .ok (d, [])
  | pkt :: rest, d => do
    let (_, d, out) ← inputPacket (fun _ => 0) pkt d
    let (d, outs) ← inputAll rest d
    return (d, out ++ outs)

end FlvDemuxer

/-! ## Tags on the wire -/

/-- What a packet says about its media. -/
structure MediaContent where
  avType : MediaPktType
  codecType : MediaCodecType
  dts : Int
  pts : Int
  isKeyFrame : Bool
  isSeqHdr : Bool
  payload : Bytes
  deriving DecidableEq, Repr

/-- What a packet says about its media, without the stream that it belongs to. -/
def MediaPacket.content (pkt : MediaPacket) : MediaContent :=
  { avType := pkt.avType, codecType := pkt.codecType, dts := pkt.dts, pts := pkt.pts
    isKeyFrame := pkt.isKeyFrame, isSeqHdr := pkt.isSeqHdr, payload := pkt.buffer }

/-- A complete tag. -/
structure FlvTag where
  tagType : UInt8
  timestamp : UInt32
  streamId : Bytes
  data : Bytes
  preSize : Bytes
  data_length : data.length < 2 ^ 24
  streamId_length : streamId.length = 3
  preSize_length : preSize.length = 4

namespace FlvTag

open FlvDemuxer

/-- The tag header, with the high byte of the timestamp behind the others. -/
def header (t : FlvTag) : Bytes :=
  t.tagType :: (BigEndian.digits 3 t.data.length ++ (BigEndian.digits 3 t.timestamp.toNat ++
    (UInt8.ofNat (t.timestamp.toNat / 2 ^ 24) :: t.streamId)))

/-- The tag as it stands in a stream. -/
def bytes (t : FlvTag) : Bytes := t.header ++ (t.data ++ t.preSize)

/-- The demuxer makes a packet of the tag, or refuses it. -/
def isMedia (t : FlvTag) : Prop := t.tagType = FLV_TAG_AUDIO ∨ t.tagType = FLV_TAG_VIDEO

instance (t : FlvTag) : Decidable t.isMedia := inferInstanceAs (Decidable (_ ∨ _))

/-- A media header that stands in the data of the tag. -/
def HasHeader (t : FlvTag) (header : MediaHeader) : Prop :=
  mediaHeader t.tagType t.data = .ok (some header) ∧ header.headerLen ≤ t.data.length

/-- A demuxer understands the tag. -/
def Readable (t : FlvTag) : Prop := t.isMedia → ∃ header, t.HasHeader header

/-- The packet of a tag with a media header. -/
def mediaContent (t : FlvTag) (header : MediaHeader) : MediaContent :=
  { avType := header.avType
    codecType := header.codecType
    dts := t.timestamp.toNat
    pts := (t.timestamp + header.tsDelta).toNat
    isKeyFrame := header.isKeyFrame
    isSeqHdr := header.isSeqHdr
    payload := t.data.drop header.headerLen }

/-- What a demuxer gives out for a tag. -/
def contents (t : FlvTag) : List MediaContent :=
  if t.isMedia then
    match mediaHeader t.tagType t.data with
    | .ok (some header) => [t.mediaContent header]
    | _ => []
  else []

theorem contents_of_header {t : FlvTag} {header : MediaHeader} (hmedia : t.isMedia)
    (h : t.HasHeader header) : t.contents = [t.mediaContent header] := by
  rw [contents, if_pos hmedia, h.1]

theorem contents_of_not_media {t : FlvTag} (hmedia : ¬ t.isMedia) : t.contents = [] :=
  if_neg hmedia

@[simp] theorem header_length (t : FlvTag) : t.header.length = FLV_TAG_HEADER_LEN := by
  simp [header, t.streamId_length, FLV_TAG_HEADER_LEN]

end FlvTag

/-- The bytes before the first tag. -/
def flvFileHeader (flags : UInt8) : Bytes :=
  [0x46, 0x4c, 0x56, 0x01, flags, 0x00, 0x00, 0x00, 0x09, 0x00, 0x00, 0x00, 0x00]

namespace FlvDemuxer

/-! ## Bytes -/

theorem byteAt_append {p : Bytes} {i : Nat} {b : UInt8} (h : byteAt p i = .ok b) (rest : Bytes) :
    byteAt (p ++ rest) i = .ok b := by
  rw [byteAt] at h ⊢
  rcases hb : p[i]? with _ | c
  · rw [hb] at h
    cases h
  · rw [hb] at h
    rw [List.getElem?_append_left (List.getElem?_eq_some_iff.mp hb).1, hb]
    exact h

theorem lt_length_of_byteAt {p : Bytes} {i : Nat} {b : UInt8} (h : byteAt p i = .ok b) :
    i < p.length := by
  rw [byteAt] at h
  rcases hb : p[i]? with _ | c
  · rw [hb] at h
    cases h
  · exact (List.getElem?_eq_some_iff.mp hb).1

/-- A media header is the same whatever follows it. -/
theorem audioHeader_append {p : Bytes} {header : MediaHeader}
    (h : audioHeader p = .ok (some header)) (rest : Bytes) :
    audioHeader (p ++ rest) = .ok (some header) := by
  rw [audioHeader] at h ⊢
  obtain ⟨p0, h0, h⟩ := Run.exists_of_bind_ok h
  rw [byteAt_append h0, Run.ok_bind]
  rcases hcodec : audioCodec p0 with _ | codecType
  · rw [hcodec] at h
    cases h
  · rw [hcodec] at h
    obtain ⟨p1, h1, h⟩ := Run.exists_of_bind_ok h
    show (byteAt (p ++ rest) 1 >>= _) = _
    rw [byteAt_append h1, Run.ok_bind]
    exact h

theorem videoHeader_append {p : Bytes} {header : MediaHeader}
    (h : videoHeader p = .ok (some header)) (rest : Bytes) :
    videoHeader (p ++ rest) = .ok (some header) := by
  rw [videoHeader] at h ⊢
  obtain ⟨p0, h0, h⟩ := Run.exists_of_bind_ok h
  rw [byteAt_append h0, Run.ok_bind]
  rcases hcodec : videoCodec p0 with _ | codecType
  · rw [hcodec] at h
    cases h
  · rw [hcodec] at h
    obtain ⟨p1, h1, h⟩ := Run.exists_of_bind_ok h
    show (byteAt (p ++ rest) 1 >>= _) = _
    rw [byteAt_append h1, Run.ok_bind]
    split at h
    · cases h
    · rename_i hkey
      obtain ⟨p4, h4, h⟩ := Run.exists_of_bind_ok h
      have hlen := lt_length_of_byteAt h4
      have hdelta : read3bytes ((p ++ rest).drop 2) = read3bytes (p.drop 2) := by
        rw [List.drop_append_of_le_length (by omega), read3bytes, read3bytes,
          List.take_append_of_le_length (by rw [List.length_drop]; omega)]
      rw [if_neg hkey, byteAt_append h4, Run.ok_bind, hdelta]
      exact h

theorem mediaHeader_append {tagType : UInt8} {p : Bytes} {header : MediaHeader}
    (h : mediaHeader tagType p = .ok (some header)) (rest : Bytes) :
    mediaHeader tagType (p ++ rest) = .ok (some header) := by
  rw [mediaHeader] at h ⊢
  by_cases haudio : tagType = FLV_TAG_AUDIO
  · rw [if_pos haudio] at h ⊢
    exact audioHeader_append h rest
  · rw [if_neg haudio] at h ⊢
    exact videoHeader_append h rest

/-! ## Waiting -/

/-- The part of a stream that the unread bytes begin with. -/
theorem exists_of_append_eq {buffer future part rest : Bytes}
    (h : buffer ++ future = part ++ rest) (hle : part.length ≤ buffer.length) :
    ∃ unread, buffer = part ++ unread ∧ unread ++ future = rest := by
  obtain ⟨unread, rfl⟩ : part <+: buffer :=
    List.prefix_of_prefix_length_le ⟨rest, h.symm⟩ (List.prefix_append buffer future) hle
  rw [List.append_assoc] at h
  exact ⟨unread, rfl, List.append_cancel_left h⟩

theorem ne_nil_of_append_eq {buffer future part rest : Bytes}
    (h : buffer ++ future = part ++ rest) (hlt : buffer.length < part.length) : future ≠ [] := by
  rintro rfl
  have hlen := congrArg List.length h
  simp only [List.length_append, List.length_nil] at hlen
  omega

theorem consumeData_of_append {buffer part unread : Bytes} {n : Nat}
    (h : buffer = part ++ unread) (hn : n = part.length) :
    DataBuffer.consumeData buffer n = unread := by
  subst h hn
  rw [DataBuffer.consumeData_eq_drop (by simp), List.drop_left]

/-- The file header, with the bytes that are still to come. -/
theorem readFlvHeader_spec {d : FlvDemuxer} {flags : UInt8} {future rest : Bytes}
    (hready : d.flvHeaderReady = false) (h : d.buffer ++ future = flvFileHeader flags ++ rest) :
    readFlvHeader d = .ok (some FLV_RET_NEED_MORE, d) ∧ future ≠ [] ∨
    ∃ d', readFlvHeader d = .ok (none, d') ∧ d'.flvHeaderReady = true ∧
      d'.tagHeaderReady = d.tagHeaderReady ∧ d'.key = d.key ∧ d'.buffer ++ future = rest ∧
      d'.buffer.length < d.buffer.length := by
  have hlen : (flvFileHeader flags).length = FLV_HEADER_LEN + FLV_TAG_PRE_SIZE := rfl
  by_cases hmore : d.buffer.length < FLV_HEADER_LEN + FLV_TAG_PRE_SIZE
  · refine .inl ⟨?_, ne_nil_of_append_eq h (by omega)⟩
    rw [readFlvHeader, if_neg (by simp [hready]), DataBuffer.require_eq_false.mpr hmore]
    rfl
  · obtain ⟨unread, hbuffer, hrest⟩ := exists_of_append_eq h (by omega)
    refine .inr ?_
    have hrequire : d.buffer.require (FLV_HEADER_LEN + FLV_TAG_PRE_SIZE) = true :=
      DataBuffer.require_eq_true.mpr (by omega)
    rw [readFlvHeader, if_neg (by simp [hready]), hrequire]
    have hbyte : ∀ i b, (flvFileHeader flags)[i]? = some b → byteAt d.buffer i = .ok b := by
      intro i b hb
      rw [hbuffer]
      apply byteAt_append
      rw [byteAt, hb]
    simp only [hbyte 0 0x46 rfl, hbyte 1 0x4c rfl, hbyte 2 0x56 rfl, hbyte 4 flags rfl,
      hbyte 5 0 rfl, hbyte 6 0 rfl, hbyte 7 0 rfl, hbyte 8 9 rfl, Run.ok_bind]
    have hconsume := consumeData_of_append hbuffer hlen.symm
    refine ⟨_, rfl, rfl, rfl, rfl, ?_, ?_⟩
    · show d.buffer.consumeData _ ++ future = rest
      rw [hconsume, hrest]
    · show (d.buffer.consumeData _).length < _
      rw [hconsume, hbuffer, List.length_append, hlen]
      exact Nat.lt_add_of_pos_left (by decide)

theorem timestamp_eq (ts : UInt32) (rest : Bytes) :
    read3bytes (BigEndian.digits 3 ts.toNat ++ rest) |||
      (UInt8.ofNat (ts.toNat / 2 ^ 24)).toUInt32 <<< 24 = ts := by
  have hlt := ts.toNat_lt
  rw [read3bytes, BigEndian.take_digits_append, BigEndian.value_digits, ← UInt32.toNat_inj,
    UInt32.toNat_or, UInt32.toNat_shiftLeft, UInt32.toNat_ofNat', UInt8.toNat_toUInt32,
    UInt8.toNat_ofNat']
  have hhigh : ts.toNat / 2 ^ 24 % 2 ^ 8 = ts.toNat / 2 ^ 24 := Nat.mod_eq_of_lt (by omega)
  have hlow : ts.toNat % 256 ^ 3 % 2 ^ 32 = ts.toNat % 2 ^ 24 := by omega
  have hshift : (ts.toNat / 2 ^ 24) <<< (UInt32.toNat 24 % 32) % 2 ^ 32 =
      (ts.toNat / 2 ^ 24) <<< 24 := by
    show (ts.toNat / 2 ^ 24) <<< 24 % 2 ^ 32 = _
    rw [Nat.shiftLeft_eq]
    omega
  rw [hhigh, hlow, hshift, Nat.or_comm,
    ← Nat.shiftLeft_add_eq_or_of_lt (Nat.mod_lt _ (by decide)), Nat.shiftLeft_eq]
  omega

/-- The header of a tag. -/
theorem readTagHeader_spec {d : FlvDemuxer} {t : FlvTag} {future rest : Bytes}
    (hready : d.tagHeaderReady = false) (h : d.buffer ++ future = t.header ++ rest) :
    readTagHeader d = .ok (some FLV_RET_NEED_MORE, d) ∧ future ≠ [] ∨
    ∃ d', readTagHeader d = .ok (none, d') ∧ d'.flvHeaderReady = d.flvHeaderReady ∧
      d'.tagHeaderReady = true ∧ d'.key = d.key ∧ d'.tagType = t.tagType ∧
      d'.tagDataSize.toNat = t.data.length ∧ d'.tagTimestamp = t.timestamp ∧
      d'.buffer ++ future = rest ∧ d'.buffer.length ≤ d.buffer.length := by
  by_cases hmore : d.buffer.length < FLV_TAG_HEADER_LEN
  · refine .inl ⟨?_, ne_nil_of_append_eq h (by simpa using hmore)⟩
    rw [readTagHeader, if_neg (by simp [hready]), DataBuffer.require_eq_false.mpr hmore]
    rfl
  · obtain ⟨unread, hbuffer, hrest⟩ := exists_of_append_eq h (by simpa using Nat.not_lt.mp hmore)
    have hrequire : d.buffer.require FLV_TAG_HEADER_LEN = true :=
      DataBuffer.require_eq_true.mpr (by omega)
    have hconsume := consumeData_of_append hbuffer t.header_length.symm
    have htype : byteAt d.buffer 0 = .ok t.tagType := by
      rw [hbuffer]
      rfl
    have hextended : byteAt d.buffer 7 = .ok (UInt8.ofNat (t.timestamp.toNat / 2 ^ 24)) := by
      rw [hbuffer]
      rfl
    have hsize : read3bytes (d.buffer.drop 1) = UInt32.ofNat t.data.length := by
      rw [hbuffer]
      show read3bytes (BigEndian.digits 3 t.data.length ++ _ ++ unread) = _
      rw [List.append_assoc, read3bytes, BigEndian.take_digits_append, BigEndian.value_digits,
        Nat.mod_eq_of_lt (show _ < 256 ^ 3 from t.data_length)]
    have htime : read3bytes (d.buffer.drop 4) |||
        (UInt8.ofNat (t.timestamp.toNat / 2 ^ 24)).toUInt32 <<< 24 = t.timestamp := by
      rw [hbuffer]
      exact timestamp_eq t.timestamp _
    have hdata := t.data_length
    refine .inr ⟨{ d with
      tagType := t.tagType
      tagDataSize := UInt32.ofNat t.data.length
      tagTimestamp := t.timestamp
      tagHeaderReady := true
      buffer := unread }, ?_, rfl, rfl, rfl, rfl, ?_, rfl, hrest, ?_⟩
    · rw [readTagHeader, if_neg (by simp [hready]), hrequire]
      simp only [htype, hextended, hsize, htime, hconsume, Run.ok_bind]
      rfl
    · show (UInt32.ofNat t.data.length).toNat = _
      rw [UInt32.toNat_ofNat']
      omega
    · rw [hbuffer, List.length_append]
      exact Nat.le_add_left _ _

/-- The data of a tag. -/
theorem readTagData_spec {d : FlvDemuxer} {t : FlvTag} {future rest : Bytes}
    (hreadable : t.Readable) (htype : d.tagType = t.tagType)
    (hsize : d.tagDataSize.toNat = t.data.length) (htime : d.tagTimestamp = t.timestamp)
    (h : d.buffer ++ future = t.data ++ t.preSize ++ rest) :
    readTagData (fun _ => 0) d = .ok (FLV_RET_NEED_MORE, d, []) ∧ future ≠ [] ∨
    ∃ d' pkts, readTagData (fun _ => 0) d = .ok (0, d', pkts) ∧
      pkts.map MediaPacket.content = t.contents ∧ d'.flvHeaderReady = d.flvHeaderReady ∧
      d'.tagHeaderReady = false ∧ d'.buffer ++ future = rest ∧
      d'.buffer.length < d.buffer.length := by
  have hlen : (t.data ++ t.preSize).length = t.data.length + FLV_TAG_PRE_SIZE := by
    rw [List.length_append, t.preSize_length]
    rfl
  by_cases hmore : d.buffer.length < t.data.length + FLV_TAG_PRE_SIZE
  · refine .inl ⟨?_, ne_nil_of_append_eq h (by omega)⟩
    rw [readTagData, hsize, DataBuffer.require_eq_false.mpr hmore]
    rfl
  · obtain ⟨unread, hbuffer, hrest⟩ := exists_of_append_eq h (by omega)
    have hrequire : d.buffer.require (t.data.length + FLV_TAG_PRE_SIZE) = true :=
      DataBuffer.require_eq_true.mpr (by omega)
    have hconsume := consumeData_of_append hbuffer hlen.symm
    have hshort : unread.length < d.buffer.length := by
      rw [hbuffer, List.length_append, hlen]
      exact Nat.lt_add_of_pos_left (Nat.lt_of_lt_of_le (by decide) (Nat.le_add_left _ _))
    rw [readTagData, hsize, hrequire, htype, htime, hconsume]
    refine .inr ?_
    by_cases hmedia : t.isMedia
    · obtain ⟨header, hheader⟩ := hreadable hmedia
      have hle := hheader.2
      have hread : mediaHeader t.tagType d.buffer = .ok (some header) := by
        rw [hbuffer, List.append_assoc]
        exact mediaHeader_append hheader.1 _
      have hpayload : (d.buffer.take t.data.length).drop header.headerLen =
          t.data.drop header.headerLen := by
        rw [hbuffer, List.append_assoc, List.take_left]
      rw [FlvTag.contents_of_header hmedia hheader]
      simp only [hread, hpayload, Run.ok_bind, Bool.not_true, Bool.false_eq_true, if_false]
      rw [if_pos (show _ ∨ _ from hmedia), if_neg (by omega)]
      exact ⟨_, _, rfl, rfl, rfl, rfl, hrest, hshort⟩
    · rw [FlvTag.contents_of_not_media hmedia]
      simp only [Bool.not_true, Bool.false_eq_true, if_false]
      rw [if_neg (show ¬ (_ ∨ _) from hmedia)]
      exact ⟨_, _, rfl, rfl, rfl, rfl, hrest, hshort⟩

/-! ## Streams -/

/-- The tags one after another. -/
def tagsBytes (tags : List FlvTag) : Bytes := (tags.map FlvTag.bytes).flatten

/-- The tags that a demuxer has still to see.  The bytes `future` are still to
come. -/
def Expects (d : FlvDemuxer) (tags : List FlvTag) (future : Bytes) : Prop :=
  match d.flvHeaderReady, d.tagHeaderReady with
  | false, false =>
    (∃ flags, d.buffer ++ future = flvFileHeader flags ++ tagsBytes tags) ∨
      d.buffer ++ future = [] ∧ tags = []
  | true, false => d.buffer ++ future = tagsBytes tags
  | _, true =>
    ∃ t rest, tags = t :: rest ∧ d.flvHeaderReady = true ∧ d.tagType = t.tagType ∧
      d.tagDataSize.toNat = t.data.length ∧ d.tagTimestamp = t.timestamp ∧
      d.buffer ++ future = t.data ++ t.preSize ++ tagsBytes rest

/-- What `handle_packet` gives to a demuxer with `unread` bytes: it waits, or it has
dealt with one tag. -/
inductive Handled (unread : Nat) (tags : List FlvTag) (future : Bytes) :
    Except Fault (Int × FlvDemuxer × List MediaPacket) → Prop
  | more (d : FlvDemuxer) (hexpects : d.Expects tags future) (hend : future = [] → tags = []) :
    Handled unread tags future (.ok (FLV_RET_NEED_MORE, d, []))
  | tag {t : FlvTag} {rest : List FlvTag} (htags : tags = t :: rest) (d : FlvDemuxer)
    (pkts : List MediaPacket) (hout : pkts.map MediaPacket.content = t.contents)
    (hexpects : d.Expects rest future) (hless : d.buffer.length < unread) :
    Handled unread tags future (.ok (0, d, pkts))

theorem handled_data {d : FlvDemuxer} {t : FlvTag} {rest : List FlvTag} {future : Bytes}
    {unread : Nat} (hreadable : t.Readable) (hflv : d.flvHeaderReady = true)
    (htag : d.tagHeaderReady = true) (htype : d.tagType = t.tagType)
    (hsize : d.tagDataSize.toNat = t.data.length) (htime : d.tagTimestamp = t.timestamp)
    (h : d.buffer ++ future = t.data ++ t.preSize ++ tagsBytes rest)
    (hless : d.buffer.length ≤ unread) :
    Handled unread (t :: rest) future (readTagData (fun _ => 0) d) := by
  obtain ⟨hdata, hfuture⟩ | ⟨d', pkts, hdata, hout, hflv', htag', hrest, hlt⟩ :=
    readTagData_spec hreadable htype hsize htime h
  · rw [hdata]
    refine .more d ?_ fun hnil => absurd hnil hfuture
    rw [Expects, hflv, htag]
    exact ⟨t, rest, rfl, rfl, htype, hsize, htime, h⟩
  · rw [hdata]
    refine .tag rfl d' pkts hout ?_ (by omega)
    rw [Expects, hflv', hflv, htag']
    exact hrest

theorem handled_tag {d : FlvDemuxer} {tags : List FlvTag} {future : Bytes} {unread : Nat}
    (hreadable : ∀ t ∈ tags, t.Readable) (hflv : d.flvHeaderReady = true) (h : d.Expects tags future)
    (hless : d.buffer.length ≤ unread) :
    Handled unread tags future (handleTag (fun _ => 0) d) := by
  rw [handleTag]
  rcases htag : d.tagHeaderReady with _ | _
  · rw [Expects, hflv, htag] at h
    rcases tags with _ | ⟨t, rest⟩
    · -- behind the last tag
      have hempty : d.buffer.length < FLV_TAG_HEADER_LEN := by
        rw [(List.append_eq_nil_iff.mp h).1]
        decide
      have hwait : readTagHeader d = .ok (some FLV_RET_NEED_MORE, d) := by
        rw [readTagHeader, if_neg (by simp [htag]), DataBuffer.require_eq_false.mpr hempty]
        rfl
      rw [hwait]
      refine .more d ?_ fun _ => rfl
      rw [Expects, hflv, htag]
      exact h
    · have hsplit : d.buffer ++ future = t.header ++ (t.data ++ t.preSize ++ tagsBytes rest) := by
        rw [h, tagsBytes, List.map_cons, List.flatten_cons, FlvTag.bytes, List.append_assoc]
        rfl
      obtain ⟨hwait, hfuture⟩ | ⟨d', hread, hflv', htag', -, htype, hsize, htime, hrest, hle⟩ :=
        readTagHeader_spec htag hsplit
      · rw [hwait]
        refine .more d ?_ fun hnil => absurd hnil hfuture
        rw [Expects, hflv, htag]
        exact h
      · rw [hread]
        exact handled_data (hreadable t (by simp)) (hflv'.trans hflv) htag' htype hsize htime hrest
          (by omega)
  · rw [Expects, htag] at h
    simp only [hflv] at h
    obtain ⟨t, rest, rfl, -, htype, hsize, htime, hrest⟩ := h
    have hread : readTagHeader d = .ok (none, d) := by
      rw [readTagHeader, if_pos htag]
    rw [hread]
    exact handled_data (hreadable t (by simp)) hflv htag htype hsize htime hrest hless

/-- One call of `handle_packet`. -/
theorem handled_handlePacket {d : FlvDemuxer} {tags : List FlvTag} {future : Bytes}
    (hreadable : ∀ t ∈ tags, t.Readable) (h : d.Expects tags future) :
    Handled d.buffer.length tags future (handlePacket (fun _ => 0) d) := by
  rw [handlePacket]
  rcases hflv : d.flvHeaderReady with _ | _
  · rcases htag : d.tagHeaderReady with _ | _
    · rw [Expects, hflv, htag] at h
      rcases h with ⟨flags, h⟩ | ⟨h, rfl⟩
      · obtain ⟨hwait, hfuture⟩ | ⟨d', hread, hflv', htag', -, hrest, hlt⟩ :=
          readFlvHeader_spec hflv h
        · rw [hwait]
          refine .more d ?_ fun hnil => absurd hnil hfuture
          rw [Expects, hflv, htag]
          exact .inl ⟨flags, h⟩
        · rw [hread]
          refine handled_tag hreadable hflv' ?_ (by omega)
          rw [Expects, hflv', htag', htag]
          exact hrest
      · -- nothing has come yet
        have hempty : d.buffer.length < FLV_HEADER_LEN + FLV_TAG_PRE_SIZE := by
          rw [(List.append_eq_nil_iff.mp h).1]
          decide
        have hwait : readFlvHeader d = .ok (some FLV_RET_NEED_MORE, d) := by
          rw [readFlvHeader, if_neg (by simp [hflv]), DataBuffer.require_eq_false.mpr hempty]
          rfl
        rw [hwait]
        refine .more d ?_ fun _ => rfl
        rw [Expects, hflv, htag]
        exact .inr ⟨h, rfl⟩
    · rw [Expects, hflv, htag] at h
      obtain ⟨t, rest, rfl, htrue, -⟩ := h
      cases htrue
  · have hread : readFlvHeader d = .ok (none, d) := by
      rw [readFlvHeader, if_pos hflv]
    rw [hread]
    exact handled_tag hreadable hflv h (Nat.le_refl _)

/-- The loop goes on until the unread bytes do not suffice. -/
theorem handleLoop_spec {d : FlvDemuxer} {tags : List FlvTag} {future : Bytes} {turns : Nat}
    (hreadable : ∀ t ∈ tags, t.Readable) (h : d.Expects tags future)
    (hturns : d.buffer.length < turns) :
    ∃ d' pkts done rest, handleLoop (fun _ => 0) turns d = .ok (FLV_RET_NEED_MORE, d', pkts) ∧
      tags = done ++ rest ∧ pkts.map MediaPacket.content = done.flatMap FlvTag.contents ∧
      d'.Expects rest future ∧ (future = [] → rest = []) := by
  induction turns generalizing d tags with
  | zero => omega
  | succ turns ih =>
    have hhandled := handled_handlePacket hreadable h
    rw [handleLoop]
    cases hr : handlePacket (fun _ => 0) d with
    | error e =>
      rw [hr] at hhandled
      cases hhandled
    | ok r =>
      rw [hr] at hhandled
      cases hhandled with
      | more d' hexpects hend => exact ⟨d', [], [], tags, rfl, rfl, rfl, hexpects, hend⟩
      | @tag t rest htags d' pkts hout hexpects hless =>
        subst htags
        obtain ⟨d'', pkts', done, rest', hloop, rfl, hout', hexpects', hend⟩ :=
          ih (fun u hu => hreadable u (List.mem_cons_of_mem _ hu)) hexpects (by omega)
        refine ⟨d'', pkts ++ pkts', t :: done, rest', ?_, rfl, ?_, hexpects', hend⟩
        · rw [Run.ok_bind]
          simp only [hloop, Run.ok_bind, if_true]
          rfl
        · rw [List.map_append, hout, hout', List.flatMap_cons]

/-- A piece of the stream. -/
theorem Expects.push {d : FlvDemuxer} {tags : List FlvTag} {piece future : Bytes} (key : Bytes)
    (h : d.Expects tags (piece ++ future)) :
    Expects { d with buffer := d.buffer.appendData piece, key := key } tags future := by
  have hassoc : d.buffer ++ piece ++ future = d.buffer ++ (piece ++ future) :=
    List.append_assoc d.buffer piece future
  rw [Expects] at h ⊢
  simp only [DataBuffer.appendData, hassoc]
  exact h

/-- All pieces of the stream. -/
theorem inputAll_spec {d : FlvDemuxer} {tags : List FlvTag} {pieces : List MediaPacket}
    (hreadable : ∀ t ∈ tags, t.Readable)
    (h : d.Expects tags (pieces.map MediaPacket.buffer).flatten) (hend : pieces = [] → tags = []) :
    ∃ d' pkts, inputAll pieces d = .ok (d', pkts) ∧
      pkts.map MediaPacket.content = tags.flatMap FlvTag.contents := by
  induction pieces generalizing d tags with
  | nil => exact ⟨d, [], rfl, by simp [hend rfl]⟩
  | cons piece pieces ih =>
    rw [List.map_cons, List.flatten_cons] at h
    obtain ⟨d₁, pkts, done, rest, hloop, rfl, hout, hexpects, hrest⟩ :=
      handleLoop_spec hreadable
        (h.push (if d.key.isEmpty && !piece.key.isEmpty then piece.key else d.key))
        (Nat.lt_succ_self _)
    have hlast : pieces = [] → rest = [] := by
      rintro rfl
      exact hrest rfl
    obtain ⟨d₂, pkts', hall, hout'⟩ :=
      ih (fun t ht => hreadable t (List.mem_append_right _ ht)) hexpects hlast
    refine ⟨d₂, pkts ++ pkts', ?_, ?_⟩
    · rw [inputAll, inputPacket, hloop, Run.ok_bind]
      simp only [hall, Run.ok_bind]
      rfl
    · rw [List.map_append, hout, hout', List.flatMap_append]

/-- A fresh demuxer that gets a file header and tags that it understands, cut
anywhere, gives out the packet of each tag with media. -/
theorem input_stream {flags : UInt8} {tags : List FlvTag} {pieces : List MediaPacket}
    (hreadable : ∀ t ∈ tags, t.Readable)
    (hstream : (pieces.map MediaPacket.buffer).flatten = flvFileHeader flags ++ tagsBytes tags) :
    ∃ d pkts, inputAll pieces {} = .ok (d, pkts) ∧
      pkts.map MediaPacket.content = tags.flatMap FlvTag.contents := by
  refine inputAll_spec hreadable (.inl ⟨flags, hstream⟩) ?_
  rintro rfl
  cases hstream

/-- A stream without a byte. -/
theorem input_empty {pieces : List MediaPacket}
    (hstream : (pieces.map MediaPacket.buffer).flatten = []) :
    ∃ d, inputAll pieces {} = .ok (d, []) := by
  obtain ⟨d, pkts, hall, hout⟩ :=
    @inputAll_spec {} [] pieces (by simp) (.inr ⟨hstream, rfl⟩) fun _ => rfl
  exact ⟨d, by rw [hall, List.map_eq_nil_iff.mp hout]⟩

end FlvDemuxer

end MediaServer
