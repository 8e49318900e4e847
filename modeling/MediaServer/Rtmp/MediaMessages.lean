import MediaServer.Format.FlvSafety
import MediaServer.Rtmp.Handling

/-!
# Media messages

`rtmp_session_base::get_media_packet` reads the same media headers as the FLV demuxer,
by code of its own.

* `media_handled_iff`: the messages that the server survives.  A message of less than
  two bytes gives a null pointer, an unknown codec fails an assertion, and a video
  message of less than five bytes is read beyond its end.
* `media_headers_agree`: the two parsers agree on bodies that are long enough.
  `getMediaPacket_of_body` and `getMediaPacket_of_refused` say what `get_media_packet`
  makes of a header that the demuxer finds or refuses.
-/

namespace MediaServer

namespace Session

/-! ## Messages that the server survives -/

/-- The message was handled: its packet is published, or the loop ends with a negative
code, with which `on_read` closes the session. -/
def Handled (m : Message)
    (r : Except Fault (Option Message × Option RtmpRet × Action × Session)) : Prop :=
  ∃ ret action s, r = .ok (some m, ret, action, s) ∧
    ((∃ pkt, action = .publish pkt) ∧ ret ≠ some .error ∨ action = .none ∧ ret = some .error)

/-- What `get_media_packet` needs of a message with media. -/
def survives (m : Message) : Bool :=
  match m.payload with
  | p0 :: p1 :: rest =>
    if m.typeId = 9 then
      (videoCodec p0).isSome &&
        (p0 &&& 0xf0 = 0x10 && p1 != 0x00 && p1 != 0x01 || 3 ≤ rest.length)
    else if m.typeId = 8 then (audioCodec p0).isSome
    else true
  | _ => false

/-- `get_media_packet` with nothing behind the payload. -/
theorem getMediaPacket_ok_iff (m : Message) (s : Session) :
    (∃ pkt, s.getMediaPacket [] m = .ok pkt) ↔ survives m = true := by
  rw [getMediaPacket, survives]
  rcases m.payload with _ | ⟨p0, _ | ⟨p1, rest⟩⟩
  · simp
  · simp
  · by_cases hvideo : m.typeId = 9
    · simp only [if_pos hvideo, List.append_nil]
      rcases videoCodec p0 with _ | codec
      · simp
      · by_cases hkey : p0 &&& 0xf0 = 0x10 ∧ p1 ≠ 0x00 ∧ p1 ≠ 0x01
        · simp [hkey]
        · have hno : (decide (p0 &&& 0xf0 = 0x10) && p1 != 0x00 && p1 != 0x01) = false := by
            rw [Bool.eq_false_iff]
            simpa [and_assoc] using hkey
          simp only [if_neg hkey, hno, Bool.false_or, Option.isSome_some, Bool.true_and]
          by_cases hlen : rest.length < 3
          · simp [hlen]
          · simp [hlen, Nat.le_of_not_lt hlen]
    · simp only [if_neg hvideo]
      by_cases haudio : m.typeId = 8
      · simp only [if_pos haudio]
        rcases audioCodec p0 with _ | codec
        · simp
        · simp
      · simp [if_neg haudio]

/-- The part of `handleMessage` for media. -/
theorem handleMessage_media {m : Message} (hmedia : isMedia m.typeId = true) (after : Bytes)
    (s : Session) :
    s.handleMessage after m = do
      let pkt ← (s.sendRtmpAck (UInt32.ofNat m.payload.length)).getMediaPacket after m
      if pkt.buffer.dataLen = 0 then
        return (.error, .none, s.sendRtmpAck (UInt32.ofNat m.payload.length))
      else return (.ok, .publish pkt, s.sendRtmpAck (UInt32.ofNat m.payload.length)) := by
  have hctrl : ¬ (1 ≤ m.typeId ∧ m.typeId ≤ 6) := by
    intro h
    rw [isMedia_of_le h.2] at hmedia
    cases hmedia
  have h20 : m.typeId ≠ 20 := by
    intro h
    rw [h] at hmedia
    cases hmedia
  have h17 : m.typeId ≠ 17 := by
    intro h
    rw [h] at hmedia
    cases hmedia
  rw [handleMessage]
  simp only [if_neg hctrl, if_neg h20, if_neg h17, if_pos hmedia]

/-- **Media messages.**  A ready message with media is handled, and no byte behind its
payload is read, exactly when `survives` holds of it. -/
theorem media_handled_iff {s : Session} {base : SessionBase}
    (hread : s.base.readChunkStream = (.ok, base)) (hready : base.currentStream.isReady = true)
    (hmedia : isMedia base.currentStream.typeId = true) :
    Handled base.currentStream.message (s.receivePass []) ↔
      survives base.currentStream.message = true := by
  obtain ⟨m, hm⟩ : ∃ m, base.currentStream.message = m := ⟨_, rfl⟩
  have htype : isMedia m.typeId = true := by
    rw [← hm]
    exact hmedia
  rw [receivePass, hread]
  simp only [hready, hm, handleMessage_media htype, Bool.not_true, Bool.false_eq_true, if_false]
  obtain ⟨s', hs'⟩ : ∃ s', sendRtmpAck (UInt32.ofNat m.payload.length) { s with base := base } = s' :=
    ⟨_, rfl⟩
  rw [hs', ← getMediaPacket_ok_iff m s']
  constructor
  · rintro ⟨ret, action, s₁, hpass, -⟩
    obtain ⟨r, hpkt, -⟩ := Run.exists_of_bind_ok hpass
    obtain ⟨pkt, hpkt, -⟩ := Run.exists_of_bind_ok hpkt
    exact ⟨pkt, hpkt⟩
  · rintro ⟨pkt, hpkt⟩
    rw [hpkt, Run.ok_bind]
    by_cases hempty : pkt.buffer.dataLen = 0
    · simp only [if_pos hempty]
      exact ⟨_, _, _, rfl, .inr ⟨rfl, rfl⟩⟩
    · simp only [if_neg hempty]
      refine ⟨_, _, _, rfl, .inl ⟨⟨pkt, rfl⟩, ?_⟩⟩
      split
      · exact nofun
      · exact nofun

/-- A session that has received a message of at most 128 bytes in one chunk. -/
def withMessage (typeId : UInt8) (payload : Bytes) : Session :=
  { base := { recvBuffer := [0x04, 0, 0, 0] ++ write3bytes (UInt32.ofNat payload.length) ++
      [typeId, 1, 0, 0, 0] ++ payload } }

/-- An AAC message of two bytes. -/
theorem media_handled_iff_aac :
    Handled ((withMessage 8 [0xaf, 0x01]).base.readChunkStream.2.currentStream.message)
      ((withMessage 8 [0xaf, 0x01]).receivePass []) := by
  have hread : (withMessage 8 [0xaf, 0x01]).base.readChunkStream =
      (.ok, (withMessage 8 [0xaf, 0x01]).base.readChunkStream.2) :=
    Prod.ext (by decide +kernel) rfl
  exact (media_handled_iff hread (by decide +kernel) (by decide +kernel)).mpr (by decide +kernel)

/-- An audio message without payload, one with the codec MP3, and an H264 message of two
bytes. -/
theorem media_faults :
    (withMessage 8 []).receivePass [] = .error .nullPointer ∧
      (withMessage 8 [0x2f, 0x00]).receivePass [] = .error .assertFailed ∧
      (withMessage 9 [0x17, 0x01]).receivePass [] = .error .outOfBounds ∧
      ∀ m, ¬ Handled m ((withMessage 8 []).receivePass []) := by
  have hnull : (withMessage 8 []).receivePass [] = .error .nullPointer :=
    Run.eq_error_of_fault (by decide +kernel)
  refine ⟨hnull, Run.eq_error_of_fault (by decide +kernel), Run.eq_error_of_fault (by decide +kernel),
    ?_⟩
  rintro m ⟨ret, action, s, h, -⟩
  rw [hnull] at h
  cases h

/-! ## One header, two parsers -/

open FlvDemuxer (MediaHeader MediaBody)

theorem videoCodec_eq (p0 : UInt8) : videoCodec p0 = FlvDemuxer.videoCodec p0 := rfl

theorem audioCodec_eq (p0 : UInt8) : audioCodec p0 = FlvDemuxer.audioCodec p0 := rfl

theorem refused_iff (p0 p1 : UInt8) :
    (p0 &&& 0xf0 = 0x10 ∧ p1 ≠ 0x00 ∧ p1 ≠ 0x01) ↔
      (FlvDemuxer.keyFlag p0 && p1 != 0x00 && p1 != 0x01) = true := by
  simp [FlvDemuxer.keyFlag, FLV_VIDEO_KEY_FLAG, and_assoc]

/-- What a media header says, before the other fields are filled in. -/
def headerPacket (header : MediaHeader) : MediaPacket :=
  { avType := header.avType
    codecType := header.codecType
    isSeqHdr := header.isSeqHdr
    isKeyFrame := header.isKeyFrame }

/-- The type of a message that has a media header. -/
def HasHeader (m : Message) : Prop := m.typeId = FLV_TAG_AUDIO ∨ m.typeId = FLV_TAG_VIDEO

theorem HasHeader.video {m : Message} (h : HasHeader m) (hne : m.typeId ≠ FLV_TAG_AUDIO) :
    m.typeId = 9 :=
  h.resolve_left hne

/-- A header that the demuxer finds becomes the packet of the message. -/
theorem getMediaPacket_of_body {m : Message} (htype : HasHeader m) {header : MediaHeader}
    (h : MediaBody m.typeId m.payload (some header)) (after : Bytes) (s : Session) :
    s.getMediaPacket after m = .ok (s.fillPacket m header.tsDelta (headerPacket header)) := by
  rw [getMediaPacket]
  generalize hpayload : m.payload = payload at h
  cases h with
  | @audio p0 p1 rest codecType haudio hcodec =>
    have h8 : m.typeId = 8 := haudio
    simp only [h8, audioCodec_eq, hcodec]
    rfl
  | @video p0 p1 p2 p3 p4 rest codecType hvideo hcodec hkey =>
    simp only [htype.video hvideo, videoCodec_eq, hcodec]
    have hno := mt (refused_iff p0 p1).mp (by rw [hkey]; exact Bool.false_ne_true)
    have hlong : ¬ (p2 :: p3 :: p4 :: rest ++ after).length < 3 := by simp
    have hflag : ∀ b, decide (p0 &&& 0xf0 = 0x10 ∧ p1 = b) =
        (FlvDemuxer.keyFlag p0 && p1 == b) := by
      intro b
      simp [FlvDemuxer.keyFlag, FLV_VIDEO_KEY_FLAG, beq_eq_decide]
    simp only [if_true, if_neg hno, if_neg hlong, hflag]
    rfl

/-- A header that the demuxer refuses fails an assertion or leaves the packet empty. -/
theorem getMediaPacket_of_refused {m : Message} (htype : HasHeader m)
    (hlen : 2 ≤ m.payload.length) (h : MediaBody m.typeId m.payload none) (after : Bytes)
    (s : Session) :
    s.getMediaPacket after m = .error .assertFailed ∨
      ∃ pkt, s.getMediaPacket after m = .ok pkt ∧ pkt.buffer = [] := by
  rw [getMediaPacket]
  generalize hpayload : m.payload = payload at h hlen
  cases h with
  | @audioUnknown p0 rest haudio hcodec =>
    have h8 : m.typeId = 8 := haudio
    rcases rest with _ | ⟨p1, rest⟩
    · exact absurd hlen (by simp)
    · simp only [h8, audioCodec_eq, hcodec]
      exact .inl rfl
  | @videoUnknown p0 rest hvideo hcodec =>
    rcases rest with _ | ⟨p1, rest⟩
    · exact absurd hlen (by simp)
    · simp only [htype.video hvideo, videoCodec_eq, hcodec]
      exact .inl rfl
  | @videoRefused p0 p1 rest codecType hvideo hcodec hkey =>
    simp only [htype.video hvideo, videoCodec_eq, hcodec]
    simp only [if_true, if_pos ((refused_iff p0 p1).mpr hkey)]
    exact .inr ⟨_, rfl, rfl⟩

end Session

namespace FlvDemuxer

/-- The next tag of a demuxer is `t`. -/
def Faces (d : FlvDemuxer) (t : FlvTag) : Prop :=
  ∃ rest, match d.flvHeaderReady, d.tagHeaderReady with
    | false, false => ∃ flags, d.buffer = flvFileHeader flags ++ (t.bytes ++ rest)
    | true, false => d.buffer = t.bytes ++ rest
    | false, true => False
    | true, true =>
      d.tagType = t.tagType ∧ d.tagDataSize.toNat = t.data.length ∧
        d.tagTimestamp = t.timestamp ∧ d.buffer = t.data ++ t.preSize ++ rest

/-- A demuxer that faces a tag comes to its data. -/
theorem Faces.handlePacket_eq {d : FlvDemuxer} {t : FlvTag} (h : d.Faces t)
    (output : MediaPacket → Int) :
    ∃ d₂ rest, handlePacket output d = readTagData output d₂ ∧ d₂.tagType = t.tagType ∧
      d₂.tagDataSize.toNat = t.data.length ∧ d₂.tagTimestamp = t.timestamp ∧
      d₂.buffer = t.data ++ t.preSize ++ rest := by
  have htagged : ∀ {d : FlvDemuxer} {rest : Bytes}, d.tagHeaderReady = false →
      d.buffer = t.bytes ++ rest →
      ∃ d₂, handleTag output d = readTagData output d₂ ∧ d₂.tagType = t.tagType ∧
        d₂.tagDataSize.toNat = t.data.length ∧ d₂.tagTimestamp = t.timestamp ∧
        d₂.buffer = t.data ++ t.preSize ++ rest := by
    intro d rest htag hbuffer
    have hsplit : d.buffer ++ [] = t.header ++ (t.data ++ t.preSize ++ rest) := by
      rw [hbuffer, FlvTag.bytes, List.append_nil]
      simp only [List.append_assoc]
    obtain ⟨-, hnil⟩ | ⟨d₂, hread, -, -, -, htype, hsize, htime, hrest, -⟩ :=
      readTagHeader_spec htag hsplit
    · exact absurd rfl hnil
    · rw [List.append_nil] at hrest
      refine ⟨d₂, ?_, htype, hsize, htime, hrest⟩
      rw [handleTag, hread]
      rfl
  obtain ⟨rest, h⟩ := h
  rw [handlePacket]
  rcases hflv : d.flvHeaderReady with _ | _
  · rcases htag : d.tagHeaderReady with _ | _
    · rw [hflv, htag] at h
      obtain ⟨flags, h⟩ := h
      rw [← List.append_nil d.buffer] at h
      obtain ⟨-, hnil⟩ | ⟨d₁, hread, -, htag₁, -, hrest, -⟩ := readFlvHeader_spec hflv h
      · exact absurd rfl hnil
      · rw [List.append_nil] at hrest
        rw [hread]
        obtain ⟨d₂, hd₂⟩ := htagged (htag₁.trans htag) hrest
        exact ⟨d₂, rest, hd₂⟩
    · rw [hflv, htag] at h
      exact h.elim
  · rw [readFlvHeader_of_ready hflv]
    rcases htag : d.tagHeaderReady with _ | _
    · rw [hflv, htag] at h
      obtain ⟨d₂, hd₂⟩ := htagged htag h
      exact ⟨d₂, rest, hd₂⟩
    · rw [hflv, htag] at h
      refine ⟨d, rest, ?_, h⟩
      show handleTag output d = _
      rw [handleTag, readTagHeader_of_ready htag]
      rfl

/-- What a demuxer gives out for the tag that it faces. -/
theorem Faces.delivers {d : FlvDemuxer} {t : FlvTag} (h : d.Faces t) (hmedia : t.isMedia)
    {header : Option MediaHeader} (hbody : MediaBody t.tagType t.data header) :
    ∃ ret d' out, handlePacket (fun _ => 0) d = .ok (ret, d', out) ∧
      out.map MediaPacket.content = header.toList.map t.mediaContent := by
  obtain ⟨d₂, rest, heq, htype, hsize, htime, hbuffer⟩ := h.handlePacket_eq fun _ => 0
  have hle : t.data.length + FLV_TAG_PRE_SIZE ≤ d₂.buffer.length := by
    rw [hbuffer, List.length_append, List.length_append, t.preSize_length]
    exact Nat.le_add_right _ _
  have hread : mediaHeader t.tagType d₂.buffer = .ok header := by
    rw [hbuffer, List.append_assoc]
    exact hbody.mediaHeader_append _
  rw [heq, readTagData, hsize, htype, htime, DataBuffer.require_eq_true.mpr hle, Bool.not_true,
    if_neg Bool.false_ne_true, if_pos (show _ ∨ _ from hmedia), hread, Run.ok_bind]
  rcases header with _ | header
  · exact ⟨_, _, _, rfl, rfl⟩
  · have hlen := hbody.headerLen_le
    have hroom : ¬ t.data.length < header.headerLen := by omega
    simp only [if_neg hroom]
    refine ⟨_, _, _, rfl, ?_⟩
    rw [hbuffer, List.append_assoc, List.take_left]
    rfl

end FlvDemuxer

namespace FlvTag

open FlvDemuxer

/-- The body is as long as any media header of its type. -/
def LongBody (t : FlvTag) : Prop :=
  t.tagType = FLV_TAG_VIDEO ∧ 5 ≤ t.data.length ∨ t.tagType = FLV_TAG_AUDIO ∧ 2 ≤ t.data.length

/-- The three bytes of a video header that are added to the timestamp. -/
def compositionTime (t : FlvTag) : UInt32 :=
  if t.tagType = FLV_TAG_VIDEO then read3bytes (t.data.drop 2) else 0

/-- The length of the media header. -/
def mediaHeaderLen (t : FlvTag) : Nat := if t.tagType = FLV_TAG_VIDEO then 5 else 2

theorem LongBody.two_le {t : FlvTag} (h : t.LongBody) : 2 ≤ t.data.length := by
  rcases h with h | h
  · omega
  · exact h.2

theorem LongBody.isMedia {t : FlvTag} (h : t.LongBody) : t.isMedia := by
  rcases h with h | h
  · exact .inr h.1
  · exact .inl h.1

theorem LongBody.headerFits {t : FlvTag} (h : t.LongBody) : headerFits t.tagType t.data = true := by
  rcases h with ⟨htype, hlen⟩ | ⟨htype, hlen⟩
  · rw [htype]
    rcases hdata : t.data with _ | ⟨p0, _ | ⟨p1, rest⟩⟩
    · simp [hdata] at hlen
    · simp [hdata] at hlen
    · rw [hdata, List.length_cons, List.length_cons] at hlen
      simp [FlvDemuxer.headerFits, FLV_TAG_VIDEO, FLV_TAG_AUDIO, show 3 ≤ rest.length by omega]
  · rw [htype]
    rcases hdata : t.data with _ | ⟨p0, _ | ⟨p1, rest⟩⟩
    · simp [hdata] at hlen
    · simp [hdata] at hlen
    · simp [FlvDemuxer.headerFits]

/-- The two numbers in a media header that is found. -/
theorem header_numbers {t : FlvTag} (hmedia : t.isMedia) {header : MediaHeader}
    (h : MediaBody t.tagType t.data (some header)) :
    header.tsDelta = t.compositionTime ∧ header.headerLen = t.mediaHeaderLen := by
  rw [compositionTime, mediaHeaderLen]
  generalize t.data = data at h
  cases h with
  | audio p1 rest htype hcodec =>
    rw [htype, if_neg (by decide), if_neg (by decide)]
    exact ⟨rfl, rfl⟩
  | video p2 p3 p4 rest htype hcodec hkey =>
    rw [if_pos (hmedia.resolve_left htype), if_pos (hmedia.resolve_left htype)]
    exact ⟨rfl, rfl⟩

end FlvTag

namespace Session

open FlvDemuxer

/-- The packet `pkt` of the demuxer and the packet `pkt'` of the session say the same about
the tag `t`.  The sum of the timestamps has 32 bits in the demuxer. -/
structure SameMedia (t : FlvTag) (pkt pkt' : MediaPacket) : Prop where
  avType : pkt.avType = pkt'.avType
  codecType : pkt.codecType = pkt'.codecType
  isKeyFrame : pkt.isKeyFrame = pkt'.isKeyFrame
  isSeqHdr : pkt.isSeqHdr = pkt'.isSeqHdr
  dts : pkt.dts = pkt'.dts
  pts : t.timestamp.toNat + t.compositionTime.toNat < 2 ^ 32 → pkt.pts = pkt'.pts
  payload : pkt.buffer = pkt'.buffer.drop t.mediaHeaderLen

theorem sameMedia_of_header {t : FlvTag} {m : Message} (htime : m.timestamp = t.timestamp)
    (hpayload : m.payload = t.data) {header : MediaHeader}
    (hdelta : header.tsDelta = t.compositionTime) (hlen : header.headerLen = t.mediaHeaderLen)
    {pkt : MediaPacket} (hpkt : pkt.content = t.mediaContent header) (s : Session) :
    SameMedia t pkt (s.fillPacket m header.tsDelta (headerPacket header)) where
  avType := congrArg MediaContent.avType hpkt
  codecType := congrArg MediaContent.codecType hpkt
  isKeyFrame := congrArg MediaContent.isKeyFrame hpkt
  isSeqHdr := congrArg MediaContent.isSeqHdr hpkt
  dts := by
    show _ = ((m.timestamp.toNat : Nat) : Int)
    rw [htime]
    exact congrArg MediaContent.dts hpkt
  pts := by
    intro hfits
    have hpts : pkt.pts = ((t.timestamp + header.tsDelta).toNat : Int) :=
      congrArg MediaContent.pts hpkt
    show _ = (m.timestamp.toNat : Int) + (header.tsDelta.toNat : Int)
    rw [hpts, htime, hdelta, UInt32.toNat_add, Nat.mod_eq_of_lt hfits, Int.natCast_add]
  payload := by
    have hbuffer : pkt.buffer = t.data.drop header.headerLen := congrArg MediaContent.payload hpkt
    show _ = m.payload.drop _
    rw [hbuffer, hpayload, hlen]

/-- **Two parsers.**  For a body that is long enough, the demuxer gives out a packet
exactly when `get_media_packet` returns one with data, and the two say the same. -/
theorem media_headers_agree {t : FlvTag} (hlong : t.LongBody) {d : FlvDemuxer} (hd : d.Faces t)
    {m : Message} (htype : m.typeId = t.tagType) (htime : m.timestamp = t.timestamp)
    (hpayload : m.payload = t.data) (after : Bytes) (s : Session) :
    ∃ ret d' out, handlePacket (fun _ => 0) d = .ok (ret, d', out) ∧
      ((∃ pkt, out = [pkt]) ↔ ∃ pkt, s.getMediaPacket after m = .ok pkt ∧ pkt.buffer ≠ []) ∧
      ∀ pkt pkt', out = [pkt] → s.getMediaPacket after m = .ok pkt' → SameMedia t pkt pkt' := by
  obtain ⟨header, hbody⟩ := exists_mediaBody hlong.headerFits
  obtain ⟨ret, d', out, hhandle, hout⟩ := hd.delivers hlong.isMedia hbody
  have hmedia : HasHeader m := by
    rw [HasHeader, htype]
    exact hlong.isMedia
  have hlen : 2 ≤ m.payload.length := by
    rw [hpayload]
    exact hlong.two_le
  rw [← htype, ← hpayload] at hbody
  refine ⟨ret, d', out, hhandle, ?_⟩
  rcases header with _ | header
  · have hnone : out = [] := List.map_eq_nil_iff.mp hout
    subst hnone
    constructor
    · constructor
      · rintro ⟨pkt, hpkt⟩
        cases hpkt
      · rintro ⟨pkt, hpkt, hne⟩
        rcases getMediaPacket_of_refused hmedia hlen hbody after s with hfail | ⟨pkt', hpkt', hnil⟩
        · rw [hfail] at hpkt
          cases hpkt
        · rw [hpkt', Except.ok.injEq] at hpkt
          subst hpkt
          exact absurd hnil hne
    · intro pkt pkt' hpkt
      cases hpkt
  · obtain ⟨pkt, rfl, hpkt⟩ := List.map_eq_singleton_iff.mp hout
    have hget := getMediaPacket_of_body hmedia hbody after s
    constructor
    · refine ⟨fun _ => ⟨_, hget, ?_⟩, fun _ => ⟨pkt, rfl⟩⟩
      show m.payload ≠ []
      exact List.ne_nil_of_length_pos (by omega)
    · intro pkt₁ pkt' hpkt₁ hpkt'
      rw [List.singleton_inj] at hpkt₁
      rw [hget, Except.ok.injEq] at hpkt'
      subst hpkt₁ hpkt'
      rw [htype, hpayload] at hbody
      obtain ⟨hdelta, hheader⟩ := FlvTag.header_numbers hlong.isMedia hbody
      exact sameMedia_of_header htime hpayload hdelta hheader hpkt s

/-- An H264 key frame of five bytes. -/
def keyFrameTag (timestamp : UInt32) (p1 p4 : UInt8) : FlvTag where
  tagType := FLV_TAG_VIDEO
  timestamp := timestamp
  streamId := write3bytes 0
  data := [0x17, p1, 0, 0, p4]
  preSize := [0, 0, 0, 16]
  data_length := show 5 < 2 ^ 24 by decide
  streamId_length := write3bytes_length 0
  preSize_length := rfl

/-- A demuxer that has read the file header, with a tag. -/
def demuxerAt (t : FlvTag) : FlvDemuxer := { flvHeaderReady := true, buffer := t.bytes }

/-- The message with the body of a tag. -/
def messageOf (t : FlvTag) : Message :=
  { csid := 6, timestamp := t.timestamp, typeId := t.tagType, msgStreamId := 1, payload := t.data }

/-- A key frame that is shown 7 ms after it is decoded. -/
theorem media_headers_agree_key :
    ∃ ret d' pkt pkt', handlePacket (fun _ => 0) (demuxerAt (keyFrameTag 40 1 7)) =
        .ok (ret, d', [pkt]) ∧
      getMediaPacket [] (messageOf (keyFrameTag 40 1 7)) {} = .ok pkt' ∧ pkt.pts = pkt'.pts := by
  obtain ⟨ret, d', out, hhandle, hiff, hsame⟩ :=
    media_headers_agree (t := keyFrameTag 40 1 7) (.inl ⟨rfl, by decide⟩)
      (d := demuxerAt (keyFrameTag 40 1 7)) ⟨[], (List.append_nil _).symm⟩
      (m := messageOf (keyFrameTag 40 1 7)) rfl rfl rfl [] {}
  obtain ⟨pkt', hpkt', hlen⟩ := Run.exists_of_map_toOption
    (show (getMediaPacket [] (messageOf (keyFrameTag 40 1 7)) {}).toOption.map
      (fun pkt => pkt.buffer.length) = some 5 by decide +kernel)
  obtain ⟨pkt, rfl⟩ := hiff.mpr ⟨pkt', hpkt', List.ne_nil_of_length_pos (by omega)⟩
  exact ⟨ret, d', pkt, pkt', hhandle, hpkt', (hsame pkt pkt' rfl hpkt').pts (by decide)⟩

/-- A key frame with the packet type 2 is not delivered, but `get_media_packet` returns a
packet, without data.  At the last timestamp, the demuxer's `pts` wraps. -/
theorem media_headers_differ :
    (∃ ret d' pkt', handlePacket (fun _ => 0) (demuxerAt (keyFrameTag 0 2 0)) = .ok (ret, d', []) ∧
      getMediaPacket [] (messageOf (keyFrameTag 0 2 0)) {} = .ok pkt' ∧ pkt'.buffer = []) ∧
    ∃ ret d' pkt pkt', handlePacket (fun _ => 0) (demuxerAt (keyFrameTag 0xffffffff 1 1)) =
        .ok (ret, d', [pkt]) ∧
      getMediaPacket [] (messageOf (keyFrameTag 0xffffffff 1 1)) {} = .ok pkt' ∧
      pkt.pts = 0 ∧ pkt'.pts = 2 ^ 32 := by
  constructor
  · obtain ⟨⟨ret, d', out⟩, hhandle, hout⟩ := Run.exists_of_map_toOption
      (show (handlePacket (fun _ => 0) (demuxerAt (keyFrameTag 0 2 0))).toOption.map
        (fun r => r.2.2) = some [] by decide +kernel)
    obtain ⟨pkt', hpkt', hbuffer⟩ := Run.exists_of_map_toOption
      (show (getMediaPacket [] (messageOf (keyFrameTag 0 2 0)) {}).toOption.map
        (fun pkt => pkt.buffer) = some [] by decide +kernel)
    rw [show out = [] from hout] at hhandle
    exact ⟨ret, d', pkt', hhandle, hpkt', hbuffer⟩
  · obtain ⟨⟨ret, d', out⟩, hhandle, hout⟩ := Run.exists_of_map_toOption
      (show (handlePacket (fun _ => 0) (demuxerAt (keyFrameTag 0xffffffff 1 1))).toOption.map
        (fun r => r.2.2.map MediaPacket.pts) = some [0] by decide +kernel)
    obtain ⟨pkt', hpkt', hpts'⟩ := Run.exists_of_map_toOption
      (show (getMediaPacket [] (messageOf (keyFrameTag 0xffffffff 1 1)) {}).toOption.map
        (fun pkt => pkt.pts) = some (2 ^ 32) by decide +kernel)
    obtain ⟨pkt, hpkt, hpts⟩ := List.map_eq_singleton_iff.mp hout
    rw [show out = [pkt] from hpkt] at hhandle
    exact ⟨ret, d', pkt, pkt', hhandle, hpkt', hpts, hpts'⟩

end Session

end MediaServer
