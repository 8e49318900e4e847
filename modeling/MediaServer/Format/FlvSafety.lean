import MediaServer.Format.FlvMux

/-!
# Any bytes given to the FLV demuxer

`handle_packet` waits until the data of a tag and the four bytes behind it are there,
and then looks at the first bytes of the data.  It does not ask whether the data is as
long as the media header, so a tag with less data is read beyond its end.

`Inside` says that one call of `handle_packet` stays inside the data of its tag, and
`calls` lists the states in which it is called.  `streamTags` reads the tags with media
off a stream.  `demux_safe_iff` says that all calls stay inside exactly when each of
these tags has room for its header.  `ahead` carries the proof: it lists the tags that
a demuxer has still to look at.
-/

namespace MediaServer

namespace FlvDemuxer

/-! ## What a call looks at -/

/-- The type of an audio or video tag. -/
def isMediaType (tagType : UInt8) : Bool := tagType == FLV_TAG_AUDIO || tagType == FLV_TAG_VIDEO

/-- The data of the tag whose header has been read. -/
def ownData (d : FlvDemuxer) : Bytes := d.buffer.take d.tagDataSize.toNat

/-- The state in which `handle_packet` looks at a media header, if it comes so far. -/
def atData (d : FlvDemuxer) : Option FlvDemuxer :=
  match readFlvHeader d with
  | .ok (none, d) =>
    match readTagHeader d with
    | .ok (none, d) =>
      if isMediaType d.tagType && d.buffer.require (d.tagDataSize.toNat + FLV_TAG_PRE_SIZE) then
        some d
      else none
    | _ => none
  | _ => none

/-- A call reads no byte behind the data of its tag, and the length that it gives to
`append_data` is not negative. -/
def Inside (d : FlvDemuxer) : Prop :=
  ∀ d₂, atData d = some d₂ →
    mediaHeader d₂.tagType (ownData d₂) ≠ .error .outOfBounds ∧
      ∀ header, mediaHeader d₂.tagType d₂.buffer = .ok (some header) →
        header.headerLen ≤ d₂.tagDataSize.toNat

/-- The states in which the loop of `input_packet` calls `handle_packet`. -/
def loopCalls : Nat → FlvDemuxer → List FlvDemuxer
  | 0, _ => []
  | turns + 1, d =>
    d :: match handlePacket (fun _ => 0) d with
      | .ok (ret, d, _) => if ret = 0 then loopCalls turns d else []
      | .error _ => []

/-- The demuxer with a piece of the stream, before the loop. -/
def push (piece : MediaPacket) (d : FlvDemuxer) : FlvDemuxer :=
  { d with
    buffer := d.buffer.appendData piece.buffer
    key := if d.key.isEmpty && !piece.key.isEmpty then piece.key else d.key }

/-- The states in which `handle_packet` is called for the pieces of a stream. -/
def calls : List MediaPacket → FlvDemuxer → List FlvDemuxer
  | [], _ => []
  | piece :: pieces, d =>
    loopCalls ((push piece d).buffer.length + 1) (push piece d) ++
      match inputPacket (fun _ => 0) piece d with
      | .ok (_, d, _) => calls pieces d
      | .error _ => []

/-! ## The tags of a stream -/

/-- A demuxer makes a packet of the data. -/
def hasMediaHeader (tagType : UInt8) (data : Bytes) : Bool :=
  match mediaHeader tagType data with
  | .ok (some _) => true
  | _ => false

/-- The tags with media at the front of `s`, behind the header of a tag.  A tag that is
refused stays where it is, so none is looked at behind it. -/
def dataTags (next : Bytes → List (UInt8 × Bytes)) (tagType : UInt8) (size : Nat) (s : Bytes) :
    List (UInt8 × Bytes) :=
  if s.length < size + FLV_TAG_PRE_SIZE then []
  else if isMediaType tagType then
    (tagType, s.take size) ::
      if hasMediaHeader tagType (s.take size) then next (s.drop (size + FLV_TAG_PRE_SIZE)) else []
  else next (s.drop (size + FLV_TAG_PRE_SIZE))

/-- The complete tags with media that `s` begins with. -/
def tagsFrom : Nat → Bytes → List (UInt8 × Bytes)
  | 0, _ => []
  | fuel + 1, s =>
    if s.length < FLV_TAG_HEADER_LEN then []
    else dataTags (tagsFrom fuel) (s.headD 0) (read3bytes (s.drop 1)).toNat
      (s.drop FLV_TAG_HEADER_LEN)

/-- The complete tags with media at the front of a stream. -/
def tagsIn (s : Bytes) : List (UInt8 × Bytes) := tagsFrom s.length s

/-- The bytes of a file header that `handle_packet` asks for. -/
def isFlvHeader (s : Bytes) : Bool :=
  s[0]? == some 0x46 && s[1]? == some 0x4c && s[2]? == some 0x56 &&
    (s[5]? == some 0 && s[6]? == some 0 && s[7]? == some 0 && s[8]? == some 9)

/-- The complete tags with media of a stream, up to the first that is refused. -/
def streamTags (s : Bytes) : List (UInt8 × Bytes) :=
  if s.length < FLV_HEADER_LEN + FLV_TAG_PRE_SIZE then []
  else if isFlvHeader s then tagsIn (s.drop (FLV_HEADER_LEN + FLV_TAG_PRE_SIZE))
  else []

/-- The data has room for its media header, as far as `handle_packet` reads it. -/
def headerFits (tagType : UInt8) (data : Bytes) : Bool :=
  match data with
  | [] => false
  | p0 :: rest =>
    if tagType = FLV_TAG_AUDIO then (audioCodec p0).isNone || 1 ≤ rest.length
    else (videoCodec p0).isNone ||
      match rest with
      | [] => false
      | p1 :: rest => (keyFlag p0 && p1 != 0x00 && p1 != 0x01) || 3 ≤ rest.length

/-! ## Media headers -/

theorem audioHeader_unknown {p0 : UInt8} (h : audioCodec p0 = none) (rest : Bytes) :
    audioHeader (p0 :: rest) = .ok none := by
  show (Except.ok p0 >>= _) = _
  rw [Run.ok_bind, h]
  rfl

theorem videoHeader_unknown {p0 : UInt8} (h : videoCodec p0 = none) (rest : Bytes) :
    videoHeader (p0 :: rest) = .ok none := by
  show (Except.ok p0 >>= _) = _
  rw [Run.ok_bind, h]
  rfl

/-- A key frame that is neither a sequence header nor data. -/
theorem videoHeader_refused {p0 p1 : UInt8} {codecType : MediaCodecType}
    (hcodec : videoCodec p0 = some codecType)
    (hkey : (keyFlag p0 && p1 != 0x00 && p1 != 0x01) = true) (rest : Bytes) :
    videoHeader (p0 :: p1 :: rest) = .ok none := by
  show (Except.ok p0 >>= _) = _
  rw [Run.ok_bind, hcodec]
  show (Except.ok p1 >>= _) = _
  rw [Run.ok_bind, if_pos hkey]
  rfl

/-- The header of five bytes. -/
theorem videoHeader_five {p0 p1 : UInt8} {codecType : MediaCodecType}
    (hcodec : videoCodec p0 = some codecType)
    (hkey : (keyFlag p0 && p1 != 0x00 && p1 != 0x01) = false) (p2 p3 p4 : UInt8) (rest : Bytes) :
    videoHeader (p0 :: p1 :: p2 :: p3 :: p4 :: rest) =
      .ok (some { avType := .video, codecType := codecType
                  isKeyFrame := keyFlag p0 && p1 == 0x01, isSeqHdr := keyFlag p0 && p1 == 0x00
                  tsDelta := read3bytes [p2, p3, p4], headerLen := 5 }) := by
  show (Except.ok p0 >>= _) = _
  rw [Run.ok_bind, hcodec]
  show (Except.ok p1 >>= _) = _
  rw [Run.ok_bind, hkey]
  rfl

/-- The data of a tag that has room for its media header, with what `handle_packet`
finds there.  A tag whose type is not audio is read as video. -/
inductive MediaBody : UInt8 → Bytes → Option MediaHeader → Prop
  | audioUnknown {tagType p0 : UInt8} (rest : Bytes) (htype : tagType = FLV_TAG_AUDIO)
    (hcodec : audioCodec p0 = none) : MediaBody tagType (p0 :: rest) none
  | audio {tagType p0 : UInt8} (p1 : UInt8) (rest : Bytes) {codecType : MediaCodecType}
    (htype : tagType = FLV_TAG_AUDIO) (hcodec : audioCodec p0 = some codecType) :
    MediaBody tagType (p0 :: p1 :: rest)
      (some { avType := .audio, codecType := codecType, isSeqHdr := p1 == 0x00, headerLen := 2 })
  | videoUnknown {tagType p0 : UInt8} (rest : Bytes) (htype : tagType ≠ FLV_TAG_AUDIO)
    (hcodec : videoCodec p0 = none) : MediaBody tagType (p0 :: rest) none
  | videoRefused {tagType p0 p1 : UInt8} (rest : Bytes) {codecType : MediaCodecType}
    (htype : tagType ≠ FLV_TAG_AUDIO) (hcodec : videoCodec p0 = some codecType)
    (hkey : (keyFlag p0 && p1 != 0x00 && p1 != 0x01) = true) :
    MediaBody tagType (p0 :: p1 :: rest) none
  | video {tagType p0 p1 : UInt8} (p2 p3 p4 : UInt8) (rest : Bytes) {codecType : MediaCodecType}
    (htype : tagType ≠ FLV_TAG_AUDIO) (hcodec : videoCodec p0 = some codecType)
    (hkey : (keyFlag p0 && p1 != 0x00 && p1 != 0x01) = false) :
    MediaBody tagType (p0 :: p1 :: p2 :: p3 :: p4 :: rest)
      (some { avType := .video, codecType := codecType
              isKeyFrame := keyFlag p0 && p1 == 0x01, isSeqHdr := keyFlag p0 && p1 == 0x00
              tsDelta := read3bytes [p2, p3, p4], headerLen := 5 })

/-- A header that has room is read the same whatever follows the data. -/
theorem MediaBody.mediaHeader_append {tagType : UInt8} {data : Bytes} {header : Option MediaHeader}
    (h : MediaBody tagType data header) (rest : Bytes) :
    mediaHeader tagType (data ++ rest) = .ok header := by
  rw [mediaHeader]
  cases h with
  | audioUnknown tail htype hcodec =>
    rw [if_pos htype]
    exact audioHeader_unknown hcodec (tail ++ rest)
  | audio p1 tail htype hcodec =>
    rw [if_pos htype]
    exact audioHeader_cons p1 (tail ++ rest) hcodec
  | videoUnknown tail htype hcodec =>
    rw [if_neg htype]
    exact videoHeader_unknown hcodec (tail ++ rest)
  | videoRefused tail htype hcodec hkey =>
    rw [if_neg htype]
    exact videoHeader_refused hcodec hkey (tail ++ rest)
  | video p2 p3 p4 tail htype hcodec hkey =>
    rw [if_neg htype]
    exact videoHeader_five hcodec hkey p2 p3 p4 (tail ++ rest)

theorem MediaBody.mediaHeader {tagType : UInt8} {data : Bytes} {header : Option MediaHeader}
    (h : MediaBody tagType data header) : mediaHeader tagType data = .ok header := by
  rw [← List.append_nil data]
  exact h.mediaHeader_append []

theorem MediaBody.headerLen_le {tagType : UInt8} {data : Bytes} {header : MediaHeader}
    (h : MediaBody tagType data (some header)) : header.headerLen ≤ data.length := by
  cases h with
  | audio => exact Nat.le_add_left 2 _
  | video => exact Nat.le_add_left 5 _

theorem exists_mediaBody {tagType : UInt8} {data : Bytes} (h : headerFits tagType data = true) :
    ∃ header, MediaBody tagType data header := by
  rcases data with _ | ⟨p0, data⟩
  · cases h
  change (if tagType = FLV_TAG_AUDIO then _ else _) = true at h
  by_cases haudio : tagType = FLV_TAG_AUDIO
  · rw [if_pos haudio] at h
    rcases hcodec : audioCodec p0 with _ | codecType
    · exact ⟨none, .audioUnknown data haudio hcodec⟩
    · rcases data with _ | ⟨p1, data⟩
      · simp [hcodec] at h
      · exact ⟨_, .audio p1 data haudio hcodec⟩
  · rw [if_neg haudio] at h
    rcases hcodec : videoCodec p0 with _ | codecType
    · exact ⟨none, .videoUnknown data haudio hcodec⟩
    · rcases data with _ | ⟨p1, data⟩
      · simp [hcodec] at h
      · rcases hkey : keyFlag p0 && p1 != 0x00 && p1 != 0x01 with _ | _
        · rcases data with _ | ⟨p2, _ | ⟨p3, _ | ⟨p4, data⟩⟩⟩
          · simp [hcodec, hkey] at h
          · simp [hcodec, hkey] at h
          · simp [hcodec, hkey] at h
          · exact ⟨_, .video p2 p3 p4 data haudio hcodec hkey⟩
        · exact ⟨none, .videoRefused data haudio hcodec hkey⟩

/-- A header without room is read beyond the data. -/
theorem mediaHeader_of_not_fits {tagType : UInt8} {data : Bytes}
    (h : headerFits tagType data = false) :
    mediaHeader tagType data = .error .outOfBounds := by
  rcases data with _ | ⟨p0, data⟩
  · rw [mediaHeader]
    split
    · rfl
    · rfl
  change (if tagType = FLV_TAG_AUDIO then _ else _) = false at h
  by_cases haudio : tagType = FLV_TAG_AUDIO
  · rw [mediaHeader, if_pos haudio]
    rw [if_pos haudio, Bool.or_eq_false_iff] at h
    obtain ⟨codecType, hcodec⟩ := Option.isSome_iff_exists.mp (Option.isNone_eq_false_iff.mp h.1)
    rcases data with _ | ⟨p1, data⟩
    · show (Except.ok p0 >>= _) = _
      rw [Run.ok_bind, hcodec]
      rfl
    · simp at h
  · rw [mediaHeader, if_neg haudio]
    rw [if_neg haudio, Bool.or_eq_false_iff] at h
    obtain ⟨codecType, hcodec⟩ := Option.isSome_iff_exists.mp (Option.isNone_eq_false_iff.mp h.1)
    show (Except.ok p0 >>= _) = _
    rw [Run.ok_bind, hcodec]
    rcases data with _ | ⟨p1, data⟩
    · rfl
    · obtain ⟨hkey, hshort⟩ := Bool.or_eq_false_iff.mp h.2
      show (Except.ok p1 >>= _) = _
      rw [Run.ok_bind, hkey]
      rcases data with _ | ⟨p2, _ | ⟨p3, _ | ⟨p4, data⟩⟩⟩
      · rfl
      · rfl
      · rfl
      · simp at hshort

/-! ## The scan -/

/-- One turn for each byte is enough. -/
theorem tagsFrom_fuel {fuel : Nat} {s : Bytes} (h : s.length ≤ fuel) :
    tagsFrom fuel s = tagsIn s := by
  have hsame : ∀ {a b : Nat} {s : Bytes}, s.length ≤ a → s.length ≤ b →
      tagsFrom a s = tagsFrom b s := by
    intro a
    induction a with
    | zero =>
      intro b s ha hb
      rcases b with _ | b
      · rfl
      · rw [tagsFrom, tagsFrom, if_pos (by rw [FLV_TAG_HEADER_LEN]; omega)]
    | succ a ih =>
      intro b s ha hb
      rcases b with _ | b
      · rw [tagsFrom, tagsFrom, if_pos (by rw [FLV_TAG_HEADER_LEN]; omega)]
      · have hnext : ∀ n, tagsFrom a ((s.drop FLV_TAG_HEADER_LEN).drop (n + FLV_TAG_PRE_SIZE)) =
            tagsFrom b ((s.drop FLV_TAG_HEADER_LEN).drop (n + FLV_TAG_PRE_SIZE)) := by
          intro n
          apply ih
          · simp only [List.length_drop, FLV_TAG_HEADER_LEN]
            omega
          · simp only [List.length_drop, FLV_TAG_HEADER_LEN]
            omega
        rw [tagsFrom, tagsFrom, dataTags, dataTags, hnext]
  exact hsame h (Nat.le_refl _)

theorem tagsIn_eq (s : Bytes) :
    tagsIn s = if s.length < FLV_TAG_HEADER_LEN then []
      else dataTags tagsIn (s.headD 0) (read3bytes (s.drop 1)).toNat
        (s.drop FLV_TAG_HEADER_LEN) := by
  rcases s with _ | ⟨b, s⟩
  · rfl
  · rw [tagsIn, List.length_cons, tagsFrom, dataTags, dataTags, List.length_cons,
      tagsFrom_fuel (by simp only [List.length_drop, List.length_cons, FLV_TAG_HEADER_LEN]; omega)]

/-- The tags with media that a demuxer has still to look at.  The bytes `future` are
still to come. -/
def ahead (d : FlvDemuxer) (future : Bytes) : List (UInt8 × Bytes) :=
  if d.flvHeaderReady then
    if d.tagHeaderReady then
      dataTags tagsIn d.tagType d.tagDataSize.toNat (d.buffer ++ future)
    else tagsIn (d.buffer ++ future)
  else streamTags (d.buffer ++ future)

/-! ## One call -/

/-- What `readFlvHeader` does when the bytes are there. -/
theorem readFlvHeader_cases {d : FlvDemuxer} (hready : d.flvHeaderReady = false)
    (hlen : FLV_HEADER_LEN + FLV_TAG_PRE_SIZE ≤ d.buffer.length) :
    ∃ hasVideo hasAudio,
      readFlvHeader d =
        if isFlvHeader d.buffer then
          .ok (none, { d with
            hasVideo, hasAudio, flvHeaderReady := true
            buffer := d.buffer.drop (FLV_HEADER_LEN + FLV_TAG_PRE_SIZE) })
        else .ok (some (-1), { d with hasVideo, hasAudio }) := by
  have hbyte : ∀ i, i < 13 → ∃ b, d.buffer[i]? = some b := by
    intro i hi
    apply Option.isSome_iff_exists.mp
    rw [isSome_getElem?]
    exact Nat.lt_of_lt_of_le hi hlen
  obtain ⟨b0, h0⟩ := hbyte 0 (by omega)
  obtain ⟨b1, h1⟩ := hbyte 1 (by omega)
  obtain ⟨b2, h2⟩ := hbyte 2 (by omega)
  obtain ⟨b4, h4⟩ := hbyte 4 (by omega)
  obtain ⟨b5, h5⟩ := hbyte 5 (by omega)
  obtain ⟨b6, h6⟩ := hbyte 6 (by omega)
  obtain ⟨b7, h7⟩ := hbyte 7 (by omega)
  obtain ⟨b8, h8⟩ := hbyte 8 (by omega)
  have hheader : isFlvHeader d.buffer = true ↔
      ¬ (b0 ≠ 0x46 ∨ b1 ≠ 0x4c ∨ b2 ≠ 0x56) ∧ ¬ (b5 ≠ 0 ∨ b6 ≠ 0 ∨ b7 ≠ 0 ∨ b8 ≠ 9) := by
    simp only [isFlvHeader, h0, h1, h2, h5, h6, h7, h8, Bool.and_eq_true, beq_iff_eq,
      Option.some.injEq]
    tauto
  rw [readFlvHeader, if_neg (by simp [hready]), DataBuffer.require_eq_true.mpr hlen, Bool.not_true,
    if_neg Bool.false_ne_true]
  simp only [byteAt, h0, h1, h2, h4, h5, h6, h7, h8, Run.ok_bind]
  by_cases hmagic : b0 ≠ 0x46 ∨ b1 ≠ 0x4c ∨ b2 ≠ 0x56
  · refine ⟨d.hasVideo, d.hasAudio, ?_⟩
    rw [if_pos hmagic, if_neg fun h => (hheader.mp h).1 hmagic]
    rfl
  · refine ⟨d.hasVideo || b4 &&& 0x01 == 0x01, d.hasAudio || b4 &&& 0x04 == 0x04, ?_⟩
    rw [if_neg hmagic]
    by_cases hsize : b5 ≠ 0 ∨ b6 ≠ 0 ∨ b7 ≠ 0 ∨ b8 ≠ 9
    · rw [if_pos hsize, if_neg fun h => (hheader.mp h).2 hsize]
      rfl
    · rw [if_neg hsize, if_pos (hheader.mpr ⟨hmagic, hsize⟩), DataBuffer.consumeData_eq_drop hlen]
      rfl

theorem isFlvHeader_append {p : Bytes} (h : FLV_HEADER_LEN ≤ p.length) (rest : Bytes) :
    isFlvHeader (p ++ rest) = isFlvHeader p := by
  have hbyte : ∀ i, i < 9 → (p ++ rest)[i]? = p[i]? := fun i hi =>
    List.getElem?_append_left (Nat.lt_of_lt_of_le hi h)
  simp only [isFlvHeader, hbyte 0 (by omega), hbyte 1 (by omega), hbyte 2 (by omega),
    hbyte 5 (by omega), hbyte 6 (by omega), hbyte 7 (by omega), hbyte 8 (by omega)]

/-- What `readTagHeader` does when the bytes are there. -/
theorem readTagHeader_of_le {d : FlvDemuxer} (hready : d.tagHeaderReady = false)
    (hlen : FLV_TAG_HEADER_LEN ≤ d.buffer.length) :
    ∃ timestamp, readTagHeader d = .ok (none, { d with
      tagType := d.buffer.headD 0
      tagDataSize := read3bytes (d.buffer.drop 1)
      tagTimestamp := timestamp
      tagHeaderReady := true
      buffer := d.buffer.drop FLV_TAG_HEADER_LEN }) := by
  have hlen' : 11 ≤ d.buffer.length := hlen
  have htype : byteAt d.buffer 0 = .ok (d.buffer.headD 0) := by
    rcases hb : d.buffer with _ | ⟨b, rest⟩
    · rw [hb, List.length_nil] at hlen'
      omega
    · rfl
  obtain ⟨b7, h7⟩ : ∃ b, byteAt d.buffer 7 = .ok b := by
    rw [byteAt, List.getElem?_eq_getElem (by omega)]
    exact ⟨_, rfl⟩
  rw [readTagHeader, if_neg (by simp [hready]), DataBuffer.require_eq_true.mpr hlen, Bool.not_true,
    if_neg Bool.false_ne_true, DataBuffer.consumeData_eq_drop hlen]
  simp only [htype, h7, Run.ok_bind]
  exact ⟨_, rfl⟩

theorem readFlvHeader_of_ready {d : FlvDemuxer} (h : d.flvHeaderReady = true) :
    readFlvHeader d = .ok (none, d) := by
  rw [readFlvHeader, if_pos h]

theorem readTagHeader_of_ready {d : FlvDemuxer} (h : d.tagHeaderReady = true) :
    readTagHeader d = .ok (none, d) := by
  rw [readTagHeader, if_pos h]

theorem atData_eq {d d₁ d₂ : FlvDemuxer} (hfile : readFlvHeader d = .ok (none, d₁))
    (htag : readTagHeader d₁ = .ok (none, d₂)) :
    atData d = if isMediaType d₂.tagType &&
      d₂.buffer.require (d₂.tagDataSize.toNat + FLV_TAG_PRE_SIZE) then some d₂ else none := by
  rw [atData, hfile]
  simp only [htag]

theorem inside_congr {d d' : FlvDemuxer} (h : atData d = atData d') : Inside d ↔ Inside d' := by
  rw [Inside, Inside, h]

theorem inside_of_none {d : FlvDemuxer} (h : atData d = none) : Inside d := by
  intro d₂ h₂
  rw [h] at h₂
  cases h₂

/-- When its own data has room for the header, a tag is read from the buffer as from its
data alone. -/
theorem mediaHeader_buffer {d : FlvDemuxer} (hfits : headerFits d.tagType (ownData d) = true) :
    ∃ header, mediaHeader d.tagType (ownData d) = .ok header ∧
      mediaHeader d.tagType d.buffer = .ok header ∧
      ∀ found, header = some found → found.headerLen ≤ d.tagDataSize.toNat := by
  obtain ⟨header, hbody⟩ := exists_mediaBody hfits
  have hbuffer := hbody.mediaHeader_append (d.buffer.drop d.tagDataSize.toNat)
  rw [ownData, List.take_append_drop] at hbuffer
  refine ⟨header, hbody.mediaHeader, hbuffer, ?_⟩
  intro found hfound
  rw [hfound] at hbody
  have hle := hbody.headerLen_le
  rw [ownData, List.length_take] at hle
  omega

/-- A call stays inside the data of its tag when this has room for the header. -/
theorem inside_iff_fits {d d₂ : FlvDemuxer} (h : atData d = some d₂) :
    Inside d ↔ headerFits d₂.tagType (ownData d₂) = true := by
  constructor
  · intro hinside
    by_contra hfits
    rw [Bool.not_eq_true] at hfits
    exact (hinside d₂ h).1 (mediaHeader_of_not_fits hfits)
  · intro hfits d' h'
    rw [h, Option.some.injEq] at h'
    subst h'
    obtain ⟨header, hown, hbuffer, hlen⟩ := mediaHeader_buffer hfits
    constructor
    · rw [hown]
      exact fun h => nomatch h
    · intro found hfound
      rw [hfound, Except.ok.injEq] at hbuffer
      exact hlen found hbuffer.symm

/-- The tag header is read only behind the file header. -/
def Ordered (d : FlvDemuxer) : Prop := d.flvHeaderReady = false → d.tagHeaderReady = false

/-- What one call of `handle_packet` does.  `inside` says that it stays inside the data,
`tags` are the tags ahead of it, and `unread` is the number of bytes before it. -/
inductive Turn (inside : Prop) (tags : List (UInt8 × Bytes)) (unread : Nat) (future : Bytes) :
    Except Fault (Int × FlvDemuxer × List MediaPacket) → Prop
  | stops (ret : Int) (d : FlvDemuxer) (hret : ret ≠ 0) (hinside : inside) (hordered : d.Ordered)
    (hahead : d.ahead future = tags)
    (hend : future = [] → ∀ tag ∈ tags, headerFits tag.1 tag.2 = true) :
    Turn inside tags unread future (.ok (ret, d, []))
  | goesOn (d : FlvDemuxer) (out : List MediaPacket) (hinside : inside) (hordered : d.Ordered)
    (hahead : (∀ tag ∈ tags, headerFits tag.1 tag.2 = true) ↔
      ∀ tag ∈ d.ahead future, headerFits tag.1 tag.2 = true)
    (hless : d.buffer.length < unread) : Turn inside tags unread future (.ok (0, d, out))
  | leaves (r : Except Fault (Int × FlvDemuxer × List MediaPacket)) (hinside : ¬ inside)
    (hunfit : ∃ tag ∈ tags, headerFits tag.1 tag.2 = false) : Turn inside tags unread future r

/-- The demuxer behind the tag whose header has been read. -/
def behindTag (d : FlvDemuxer) : FlvDemuxer :=
  { d with
    buffer := d.buffer.drop (d.tagDataSize.toNat + FLV_TAG_PRE_SIZE), tagHeaderReady := false }

theorem length_behindTag_lt {d : FlvDemuxer}
    (hle : d.tagDataSize.toNat + FLV_TAG_PRE_SIZE ≤ d.buffer.length) :
    (behindTag d).buffer.length < d.buffer.length := by
  show (d.buffer.drop _).length < _
  rw [FLV_TAG_PRE_SIZE] at hle
  rw [List.length_drop, FLV_TAG_PRE_SIZE]
  omega

/-- What `handle_packet` does with the data of a tag. -/
inductive DataCase (output : MediaPacket → Int) (d : FlvDemuxer) :
    Except Fault (Int × FlvDemuxer × List MediaPacket) → Prop
  | waits (hmore : d.buffer.length < d.tagDataSize.toNat + FLV_TAG_PRE_SIZE) :
    DataCase output d (.ok (FLV_RET_NEED_MORE, d, []))
  | skips (hle : d.tagDataSize.toNat + FLV_TAG_PRE_SIZE ≤ d.buffer.length)
    (hmedia : isMediaType d.tagType = false) : DataCase output d (.ok (0, behindTag d, []))
  | faults (hle : d.tagDataSize.toNat + FLV_TAG_PRE_SIZE ≤ d.buffer.length)
    (hmedia : isMediaType d.tagType = true)
    (hunfit : headerFits d.tagType (ownData d) = false) :
    DataCase output d (.error .outOfBounds)
  | refuses (hle : d.tagDataSize.toNat + FLV_TAG_PRE_SIZE ≤ d.buffer.length)
    (hmedia : isMediaType d.tagType = true)
    (hheader : mediaHeader d.tagType d.buffer = .ok none) : DataCase output d (.ok (-1, d, []))
  | gives (hle : d.tagDataSize.toNat + FLV_TAG_PRE_SIZE ≤ d.buffer.length)
    (hmedia : isMediaType d.tagType = true) (header : MediaHeader)
    (hheader : mediaHeader d.tagType d.buffer = .ok (some header)) (pkt : MediaPacket) :
    DataCase output d (.ok (output pkt, behindTag d, [pkt]))

theorem readTagData_case (output : MediaPacket → Int) (d : FlvDemuxer) :
    DataCase output d (readTagData output d) := by
  rw [readTagData]
  by_cases hmore : d.buffer.length < d.tagDataSize.toNat + FLV_TAG_PRE_SIZE
  · rw [DataBuffer.require_eq_false.mpr hmore]
    exact DataCase.waits hmore
  · have hle := Nat.le_of_not_lt hmore
    rw [DataBuffer.require_eq_true.mpr hle, DataBuffer.consumeData_eq_drop hle, Bool.not_true,
      if_neg Bool.false_ne_true]
    by_cases hmedia : d.tagType = FLV_TAG_AUDIO ∨ d.tagType = FLV_TAG_VIDEO
    · have hmedia' : isMediaType d.tagType = true := by simpa [isMediaType] using hmedia
      rw [if_pos hmedia]
      rcases hfits : headerFits d.tagType d.buffer with _ | _
      · -- not even the bytes behind the tag have room for the header
        rw [mediaHeader_of_not_fits hfits]
        apply DataCase.faults hle hmedia'
        by_contra hown
        obtain ⟨header, -, hbuffer, -⟩ := mediaHeader_buffer (by simpa using hown)
        rw [mediaHeader_of_not_fits hfits] at hbuffer
        cases hbuffer
      · obtain ⟨header, hbody⟩ := exists_mediaBody hfits
        rw [hbody.mediaHeader, Run.ok_bind]
        rcases header with _ | header
        · exact DataCase.refuses hle hmedia' hbody.mediaHeader
        · show DataCase output d (if _ then _ else _)
          split_ifs with hroom
          · apply DataCase.faults hle hmedia'
            by_contra hown
            obtain ⟨found, -, hbuffer, hlen⟩ := mediaHeader_buffer (by simpa using hown)
            rw [hbody.mediaHeader, Except.ok.injEq] at hbuffer
            exact Nat.not_le.mpr hroom (hlen header hbuffer.symm)
          · exact DataCase.gives hle hmedia' header hbody.mediaHeader _
    · rw [if_neg hmedia]
      exact DataCase.skips hle (by simpa [isMediaType] using hmedia)

/-- The tags ahead when the data of the next one is there. -/
theorem ahead_of_data {d : FlvDemuxer} (hflv : d.flvHeaderReady = true)
    (htag : d.tagHeaderReady = true)
    (hle : d.tagDataSize.toNat + FLV_TAG_PRE_SIZE ≤ d.buffer.length) (future : Bytes) :
    d.ahead future =
      if isMediaType d.tagType then
        (d.tagType, ownData d) ::
          if hasMediaHeader d.tagType (ownData d) then (behindTag d).ahead future else []
      else (behindTag d).ahead future := by
  have hlong : ¬ (d.buffer ++ future).length < d.tagDataSize.toNat + FLV_TAG_PRE_SIZE := by
    rw [List.length_append]
    omega
  have hown : (d.buffer ++ future).take d.tagDataSize.toNat = ownData d :=
    List.take_append_of_le_length (by omega)
  have hnext : (behindTag d).ahead future =
      tagsIn ((d.buffer ++ future).drop (d.tagDataSize.toNat + FLV_TAG_PRE_SIZE)) := by
    rw [List.drop_append_of_le_length hle, ahead, if_pos (by exact hflv)]
    rfl
  rw [ahead, if_pos hflv, if_pos htag, dataTags, if_neg hlong, hown, hnext]

/-- A tag with media whose data is there is the next one ahead, and it decides whether the
call stays inside. -/
theorem media_tag_next {d : FlvDemuxer} (hflv : d.flvHeaderReady = true)
    (htag : d.tagHeaderReady = true)
    (hle : d.tagDataSize.toNat + FLV_TAG_PRE_SIZE ≤ d.buffer.length)
    (hmedia : isMediaType d.tagType = true) (future : Bytes) :
    (Inside d ↔ headerFits d.tagType (ownData d) = true) ∧
      d.ahead future = (d.tagType, ownData d) ::
        if hasMediaHeader d.tagType (ownData d) then (behindTag d).ahead future else [] := by
  have hat := atData_eq (readFlvHeader_of_ready hflv) (readTagHeader_of_ready htag)
  rw [hmedia, DataBuffer.require_eq_true.mpr hle, Bool.true_and, if_pos rfl] at hat
  refine ⟨inside_iff_fits hat, ?_⟩
  rw [ahead_of_data hflv htag hle, if_pos hmedia]

/-- A tag without room for its header makes the call leave the data. -/
theorem turn_of_unfit {d : FlvDemuxer} (hflv : d.flvHeaderReady = true)
    (htag : d.tagHeaderReady = true)
    (hle : d.tagDataSize.toNat + FLV_TAG_PRE_SIZE ≤ d.buffer.length)
    (hmedia : isMediaType d.tagType = true)
    (hunfit : headerFits d.tagType (ownData d) = false) (future : Bytes) (unread : Nat)
    (r : Except Fault (Int × FlvDemuxer × List MediaPacket)) :
    Turn (Inside d) (d.ahead future) unread future r := by
  obtain ⟨hinside, hahead⟩ := media_tag_next hflv htag hle hmedia future
  apply Turn.leaves
  · rw [hinside, hunfit]
    exact Bool.false_ne_true
  · refine ⟨(d.tagType, ownData d), ?_, hunfit⟩
    rw [hahead]
    exact List.mem_cons_self

/-- The last part of `handle_packet`. -/
theorem turn_data {d : FlvDemuxer} (hflv : d.flvHeaderReady = true)
    (htag : d.tagHeaderReady = true) (future : Bytes) {unread : Nat}
    (hunread : d.buffer.length ≤ unread) :
    Turn (Inside d) (d.ahead future) unread future (readTagData (fun _ => 0) d) := by
  have hordered : d.Ordered := by
    intro h
    rw [hflv] at h
    cases h
  have hat := atData_eq (readFlvHeader_of_ready hflv) (readTagHeader_of_ready htag)
  have hcase := readTagData_case (fun _ => 0) d
  generalize readTagData (fun _ => 0) d = r at hcase ⊢
  cases hcase with
  | waits hmore =>
    rw [DataBuffer.require_eq_false.mpr hmore, Bool.and_false, if_neg Bool.false_ne_true] at hat
    apply Turn.stops _ d (by decide) (inside_of_none hat) hordered rfl
    intro hnil
    rw [hnil, ahead, if_pos hflv, if_pos htag, dataTags, List.append_nil, if_pos hmore]
    simp
  | skips hle hmedia =>
    rw [hmedia, Bool.false_and, if_neg Bool.false_ne_true] at hat
    have hless := length_behindTag_lt hle
    refine Turn.goesOn _ _ (inside_of_none hat) (fun _ => rfl) ?_ (by omega)
    rw [ahead_of_data hflv htag hle, hmedia, if_neg Bool.false_ne_true]
  | faults hle hmedia hunfit => exact turn_of_unfit hflv htag hle hmedia hunfit future unread _
  | refuses hle hmedia hheader =>
    cases hfits : headerFits d.tagType (ownData d) with
    | false => exact turn_of_unfit hflv htag hle hmedia hfits future unread _
    | true =>
      obtain ⟨hinside, hahead⟩ := media_tag_next hflv htag hle hmedia future
      obtain ⟨header, hown, hbuffer, -⟩ := mediaHeader_buffer hfits
      rw [hheader, Except.ok.injEq] at hbuffer
      apply Turn.stops _ d (by decide) (hinside.mpr hfits) hordered rfl
      intro _ tag htag
      rw [hahead, hasMediaHeader, hown, ← hbuffer, if_neg Bool.false_ne_true] at htag
      rw [List.mem_singleton.mp htag]
      exact hfits
  | gives hle hmedia header hheader pkt =>
    cases hfits : headerFits d.tagType (ownData d) with
    | false => exact turn_of_unfit hflv htag hle hmedia hfits future unread _
    | true =>
      obtain ⟨hinside, hahead⟩ := media_tag_next hflv htag hle hmedia future
      obtain ⟨found, hown, hbuffer, -⟩ := mediaHeader_buffer hfits
      rw [hheader, Except.ok.injEq] at hbuffer
      have hless := length_behindTag_lt hle
      refine Turn.goesOn _ _ (hinside.mpr hfits) (fun _ => rfl) ?_ (by omega)
      rw [hahead, hasMediaHeader, hown, ← hbuffer, if_pos rfl, List.forall_mem_cons]
      exact and_iff_right hfits

/-- `handle_packet` behind the file header. -/
theorem turn_tag {d : FlvDemuxer} (hflv : d.flvHeaderReady = true) (future : Bytes) {unread : Nat}
    (hunread : d.buffer.length ≤ unread) :
    Turn (Inside d) (d.ahead future) unread future (handleTag (fun _ => 0) d) := by
  rw [handleTag]
  rcases htag : d.tagHeaderReady with _ | _
  · have hfile := readFlvHeader_of_ready hflv
    have hahead : ∀ future, d.ahead future = tagsIn (d.buffer ++ future) := by
      intro future
      rw [ahead, if_pos hflv, htag]
      rfl
    by_cases hmore : d.buffer.length < FLV_TAG_HEADER_LEN
    · have hwait : readTagHeader d = .ok (some FLV_RET_NEED_MORE, d) := by
        rw [readTagHeader, htag, DataBuffer.require_eq_false.mpr hmore]
        rfl
      have hat : atData d = none := by rw [atData, hfile]; simp only [hwait]
      rw [hwait]
      apply Turn.stops _ d (by decide) (inside_of_none hat) (fun _ => htag) rfl
      intro hnil
      rw [hnil, hahead, List.append_nil, tagsIn_eq, if_pos hmore]
      simp
    · have hle : FLV_TAG_HEADER_LEN ≤ d.buffer.length := Nat.le_of_not_lt hmore
      obtain ⟨timestamp, hread⟩ := readTagHeader_of_le htag hle
      generalize hd₂ : ({ d with
        tagType := d.buffer.headD 0
        tagDataSize := read3bytes (d.buffer.drop 1)
        tagTimestamp := timestamp
        tagHeaderReady := true
        buffer := d.buffer.drop FLV_TAG_HEADER_LEN } : FlvDemuxer) = d₂ at hread
      have hflv₂ : d₂.flvHeaderReady = true := by rw [← hd₂]; exact hflv
      have htag₂ : d₂.tagHeaderReady = true := by rw [← hd₂]
      have hbuffer₂ : d₂.buffer = d.buffer.drop FLV_TAG_HEADER_LEN := by rw [← hd₂]
      have hat : atData d = atData d₂ := by
        rw [atData_eq hfile hread,
          atData_eq (readFlvHeader_of_ready hflv₂) (readTagHeader_of_ready htag₂)]
      have hhead : (d.buffer ++ future).headD 0 = d₂.tagType := by
        rw [← hd₂]
        rcases hb : d.buffer with _ | ⟨b, rest⟩
        · rw [hb] at hle
          exact absurd hle (by decide)
        · rfl
      have hsize : read3bytes ((d.buffer ++ future).drop 1) = d₂.tagDataSize := by
        have h11 : 11 ≤ d.buffer.length := hle
        rw [← hd₂, List.drop_append_of_le_length (by omega), read3bytes, read3bytes,
          List.take_append_of_le_length (by rw [List.length_drop]; omega)]
      have hsame : d.ahead future = d₂.ahead future := by
        rw [hahead, tagsIn_eq, if_neg (by rw [List.length_append]; omega), hhead, hsize,
          List.drop_append_of_le_length hle, ← hbuffer₂, ahead, if_pos hflv₂, if_pos htag₂]
      rw [hread, hsame, inside_congr hat]
      apply turn_data hflv₂ htag₂
      rw [hbuffer₂, List.length_drop]
      omega
  · rw [readTagHeader_of_ready htag]
    exact turn_data hflv htag future hunread

/-- One call of `handle_packet`. -/
theorem turn_handlePacket {d : FlvDemuxer} (hordered : d.Ordered) (future : Bytes) :
    Turn (Inside d) (d.ahead future) d.buffer.length future (handlePacket (fun _ => 0) d) := by
  rw [handlePacket]
  rcases hflv : d.flvHeaderReady with _ | _
  · have htag := hordered hflv
    have hahead : ∀ future, d.ahead future = streamTags (d.buffer ++ future) := by
      intro future
      rw [ahead, hflv]
      rfl
    by_cases hmore : d.buffer.length < FLV_HEADER_LEN + FLV_TAG_PRE_SIZE
    · have hwait : readFlvHeader d = .ok (some FLV_RET_NEED_MORE, d) := by
        rw [readFlvHeader, hflv, DataBuffer.require_eq_false.mpr hmore]
        rfl
      have hat : atData d = none := by rw [atData, hwait]
      rw [hwait]
      apply Turn.stops _ d (by decide) (inside_of_none hat) hordered rfl
      intro hnil
      rw [hnil, hahead, List.append_nil, streamTags, if_pos hmore]
      simp
    · have hle := Nat.le_of_not_lt hmore
      have hlong : ¬ (d.buffer ++ future).length < FLV_HEADER_LEN + FLV_TAG_PRE_SIZE := by
        rw [List.length_append]
        omega
      have hsame : isFlvHeader (d.buffer ++ future) = isFlvHeader d.buffer :=
        isFlvHeader_append (Nat.le_trans (Nat.le_add_right _ _) hle) future
      obtain ⟨hasVideo, hasAudio, hread⟩ := readFlvHeader_cases hflv hle
      rcases hheader : isFlvHeader d.buffer with _ | _
      · -- not an FLV stream, whatever comes
        rw [hheader, if_neg Bool.false_ne_true] at hread
        have hat : atData d = none := by rw [atData, hread]
        have hnone : d.ahead future = [] := by
          rw [hahead, streamTags, if_neg hlong, hsame, hheader]
          rfl
        rw [hread, hnone]
        exact Turn.stops (-1) { d with hasVideo, hasAudio } (by decide) (inside_of_none hat)
          (fun _ => htag) hnone (by simp)
      · rw [hheader, if_pos rfl] at hread
        generalize hd₁ : ({ d with
          hasVideo, hasAudio, flvHeaderReady := true
          buffer := d.buffer.drop (FLV_HEADER_LEN + FLV_TAG_PRE_SIZE) } : FlvDemuxer) = d₁ at hread
        have hflv₁ : d₁.flvHeaderReady = true := by rw [← hd₁]
        have htag₁ : d₁.tagHeaderReady = false := by rw [← hd₁]; exact htag
        have hbuffer₁ : d₁.buffer = d.buffer.drop (FLV_HEADER_LEN + FLV_TAG_PRE_SIZE) := by
          rw [← hd₁]
        have hat : atData d = atData d₁ := by
          rw [atData, atData, hread, readFlvHeader_of_ready hflv₁]
        have hnext : d.ahead future = d₁.ahead future := by
          rw [hahead, streamTags, if_neg hlong, hsame, hheader, if_pos rfl, ahead, if_pos hflv₁,
            htag₁, hbuffer₁, List.drop_append_of_le_length hle]
          rfl
        rw [hread, hnext, inside_congr hat]
        apply turn_tag hflv₁
        rw [hbuffer₁, List.length_drop]
        omega
  · rw [readFlvHeader_of_ready hflv]
    exact turn_tag hflv future (Nat.le_refl _)

/-! ## Termination -/

/-- A call fails by a byte that is not there, or returns; a call that returns 0 has
consumed bytes. -/
def Ends (unread : Nat) (r : Except Fault (Int × FlvDemuxer × List MediaPacket)) : Prop :=
  r = .error .outOfBounds ∨
    ∃ ret d out, r = .ok (ret, d, out) ∧ (ret = 0 → d.buffer.length < unread)

theorem readFlvHeader_total (d : FlvDemuxer) :
    ∃ ret d', readFlvHeader d = .ok (ret, d') ∧ d'.buffer.length ≤ d.buffer.length ∧ ret ≠ some 0 := by
  rcases hflv : d.flvHeaderReady with _ | _
  · by_cases hmore : d.buffer.length < FLV_HEADER_LEN + FLV_TAG_PRE_SIZE
    · rw [readFlvHeader, hflv, DataBuffer.require_eq_false.mpr hmore]
      exact ⟨_, _, rfl, Nat.le_refl _, by decide⟩
    · obtain ⟨hasVideo, hasAudio, hread⟩ := readFlvHeader_cases hflv (Nat.le_of_not_lt hmore)
      rw [hread]
      split
      · refine ⟨_, _, rfl, ?_, by decide⟩
        rw [List.length_drop]
        omega
      · exact ⟨_, _, rfl, Nat.le_refl _, by decide⟩
  · exact ⟨_, _, readFlvHeader_of_ready hflv, Nat.le_refl _, by decide⟩

theorem readTagHeader_total (d : FlvDemuxer) :
    ∃ ret d', readTagHeader d = .ok (ret, d') ∧ d'.buffer.length ≤ d.buffer.length ∧ ret ≠ some 0 := by
  rcases htag : d.tagHeaderReady with _ | _
  · by_cases hmore : d.buffer.length < FLV_TAG_HEADER_LEN
    · rw [readTagHeader, htag, DataBuffer.require_eq_false.mpr hmore]
      exact ⟨_, _, rfl, Nat.le_refl _, by decide⟩
    · obtain ⟨timestamp, hread⟩ := readTagHeader_of_le htag (Nat.le_of_not_lt hmore)
      refine ⟨_, _, hread, ?_, by decide⟩
      show (d.buffer.drop _).length ≤ _
      rw [List.length_drop]
      omega
  · exact ⟨_, _, readTagHeader_of_ready htag, Nat.le_refl _, by decide⟩

theorem ends_readTagData (output : MediaPacket → Int) (d : FlvDemuxer) {unread : Nat}
    (h : d.buffer.length ≤ unread) : Ends unread (readTagData output d) := by
  have hcase := readTagData_case output d
  generalize readTagData output d = r at hcase ⊢
  cases hcase with
  | waits => exact .inr ⟨_, _, _, rfl, fun h => absurd h (by decide)⟩
  | skips hle _ =>
    have hless := length_behindTag_lt hle
    exact .inr ⟨_, _, _, rfl, fun _ => by omega⟩
  | faults => exact .inl rfl
  | refuses => exact .inr ⟨_, _, _, rfl, fun h => absurd h (by decide)⟩
  | gives hle =>
    have hless := length_behindTag_lt hle
    exact .inr ⟨_, _, _, rfl, fun _ => by omega⟩

theorem ends_handlePacket (output : MediaPacket → Int) (d : FlvDemuxer) :
    Ends d.buffer.length (handlePacket output d) := by
  obtain ⟨ret, d₁, hfile, hle, hret⟩ := readFlvHeader_total d
  rw [handlePacket, hfile, Run.ok_bind]
  rcases ret with _ | ret
  · show Ends _ (handleTag output d₁)
    obtain ⟨ret, d₂, htag, hle', hret⟩ := readTagHeader_total d₁
    rw [handleTag, htag, Run.ok_bind]
    rcases ret with _ | ret
    · exact ends_readTagData output d₂ (by omega)
    · refine .inr ⟨_, _, _, rfl, ?_⟩
      rintro rfl
      exact absurd rfl hret
  · refine .inr ⟨_, _, _, rfl, ?_⟩
    rintro rfl
    exact absurd rfl hret

/-- The loop has turns enough. -/
theorem handleLoop_avoids_hang (output : MediaPacket → Int) {turns : Nat} {d : FlvDemuxer}
    (h : d.buffer.length < turns) : Run.Avoids .hang (handleLoop output turns d) := by
  induction turns generalizing d with
  | zero => omega
  | succ turns ih =>
    rw [handleLoop]
    apply Run.Avoids.bind
    · rcases ends_handlePacket output d with hfail | ⟨ret, d', out, hok, -⟩
      · rw [hfail]
        exact Run.avoids_of_ne (by decide)
      · rw [hok]
        exact Run.avoids_ok _ _
    · rintro ⟨ret, d', out⟩ hok
      have hless : ret = 0 → d'.buffer.length < d.buffer.length := by
        rcases ends_handlePacket output d with hfail | ⟨_, _, _, hok', hless⟩
        · rw [hfail] at hok
          cases hok
        · rw [hok', Except.ok.injEq] at hok
          cases hok
          exact hless
      by_cases hret : ret = 0
      · have hloop := ih (d := d') (by have := hless hret; omega)
        simp only [if_pos hret]
        exact hloop.bind fun _ _ => Run.avoids_ok _ _
      · simp only [if_neg hret]
        exact Run.avoids_ok _ _

/-- Each call of `input_packet` ends. -/
theorem inputAll_avoids_hang (pieces : List MediaPacket) (d : FlvDemuxer) :
    Run.Avoids .hang (inputAll pieces d) := by
  induction pieces generalizing d with
  | nil => exact Run.avoids_ok _ _
  | cons piece pieces ih =>
    rw [inputAll]
    refine Run.Avoids.bind (handleLoop_avoids_hang _ (Nat.lt_succ_self _)) ?_
    rintro ⟨ret, d', out⟩ -
    exact (ih d').bind fun _ _ => Run.avoids_ok _ _

/-! ## A whole stream -/

/-- The loop of `input_packet` stays inside the data of its tags, or meets a tag without
room for its header. -/
theorem loopCalls_spec {d : FlvDemuxer} (hordered : d.Ordered) (future : Bytes) {turns : Nat}
    (hturns : d.buffer.length < turns) :
    ((∃ c ∈ loopCalls turns d, ¬ Inside c) ∧
      ∃ tag ∈ d.ahead future, headerFits tag.1 tag.2 = false) ∨
    ((∀ c ∈ loopCalls turns d, Inside c) ∧
      ∃ ret d' out, handleLoop (fun _ => 0) turns d = .ok (ret, d', out) ∧ d'.Ordered ∧
        ((∀ tag ∈ d.ahead future, headerFits tag.1 tag.2 = true) ↔
          ∀ tag ∈ d'.ahead future, headerFits tag.1 tag.2 = true) ∧
        (future = [] → ∀ tag ∈ d'.ahead future, headerFits tag.1 tag.2 = true)) := by
  induction turns generalizing d with
  | zero => omega
  | succ turns ih =>
    have hturn := turn_handlePacket hordered future
    rw [loopCalls, handleLoop]
    generalize hr : handlePacket (fun _ => 0) d = r at hturn
    cases hturn with
    | stops ret d' hret hinside hordered' hahead hend =>
      refine .inr ⟨?_, ret, d', [], ?_, hordered', by rw [hahead], ?_⟩
      · simp only [if_neg hret]
        simpa using hinside
      · rw [Run.ok_bind]
        simp only [if_neg hret]
        rfl
      · rw [hahead]
        exact hend
    | goesOn d' out hinside hordered' hahead hless =>
      simp only [if_true]
      rcases ih hordered' (by omega) with ⟨⟨c, hc, hout⟩, tag, htag, hunfit⟩ |
        ⟨hall, ret, d'', out', hloop, hordered'', hahead', hend⟩
      · refine .inl ⟨⟨c, List.mem_cons_of_mem _ hc, hout⟩, ?_⟩
        by_contra hnone
        have hfits : ∀ tag ∈ d.ahead future, headerFits tag.1 tag.2 = true := by
          intro tag htag
          by_contra hfits
          rw [Bool.not_eq_true] at hfits
          exact hnone ⟨tag, htag, hfits⟩
        rw [hahead.mp hfits tag htag] at hunfit
        cases hunfit
      · refine .inr ⟨List.forall_mem_cons.mpr ⟨hinside, hall⟩, ret, d'', out ++ out', ?_,
          hordered'', hahead.trans hahead', hend⟩
        rw [Run.ok_bind]
        simp only [hloop, Run.ok_bind, if_true]
        rfl
    | leaves _ hinside hunfit => exact .inl ⟨⟨d, by simp, hinside⟩, hunfit⟩

theorem ahead_push (piece : MediaPacket) (d : FlvDemuxer) (future : Bytes) :
    (push piece d).ahead future = d.ahead (piece.buffer ++ future) := by
  simp only [ahead, push, DataBuffer.appendData, List.append_assoc]

/-- The pieces that a demuxer still gets. -/
theorem calls_inside_iff {pieces : List MediaPacket} {d : FlvDemuxer} (hordered : d.Ordered)
    (hend : pieces = [] → ∀ tag ∈ d.ahead [], headerFits tag.1 tag.2 = true) :
    (∀ c ∈ calls pieces d, Inside c) ↔
      ∀ tag ∈ d.ahead (pieces.map MediaPacket.buffer).flatten, headerFits tag.1 tag.2 = true := by
  induction pieces generalizing d with
  | nil => exact ⟨fun _ => hend rfl, fun _ => by simp [calls]⟩
  | cons piece pieces ih =>
    have hpush : (push piece d).Ordered := hordered
    rw [List.map_cons, List.flatten_cons, ← ahead_push, calls]
    rcases loopCalls_spec hpush (pieces.map MediaPacket.buffer).flatten (Nat.lt_succ_self _) with
      ⟨⟨c, hc, hout⟩, tag, htag, hunfit⟩ | ⟨hall, ret, d', out, hloop, hordered', hahead, hlast⟩
    · constructor
      · intro hinside
        exact absurd (hinside c (List.mem_append_left _ hc)) hout
      · intro hfits
        rw [hfits tag htag] at hunfit
        cases hunfit
    · have hinput : inputPacket (fun _ => 0) piece d = .ok (ret, d', out) := hloop
      rw [hinput, hahead, ← ih hordered' (by rintro rfl; exact hlast rfl)]
      constructor
      · intro h c hc
        exact h c (List.mem_append_right _ hc)
      · intro h c hc
        rcases List.mem_append.mp hc with hc | hc
        · exact hall c hc
        · exact h c hc

/-- **Safe demuxing.**  Whatever the pieces of a stream are, each call of `input_packet`
ends.  No call of `handle_packet` leaves the data of its tag exactly when each tag with
media of the stream, up to the first that is refused, has room for its media header. -/
theorem demux_safe_iff (pieces : List MediaPacket) :
    ((∀ c ∈ calls pieces {}, Inside c) ∧ Run.Avoids .hang (inputAll pieces {})) ↔
      ∀ tag ∈ streamTags (pieces.map MediaPacket.buffer).flatten,
        headerFits tag.1 tag.2 = true := by
  have hinside := @calls_inside_iff pieces {} (fun _ => rfl) fun _ => List.forall_mem_nil _
  constructor
  · intro h
    exact hinside.mp h.1
  · intro h
    exact ⟨hinside.mpr h, inputAll_avoids_hang pieces {}⟩

/-- A file header and an audio tag without data.  The size behind the tag is `0xa0000000`. -/
def emptyAudioTag : Bytes :=
  flvFileHeader 0x04 ++ [0x08, 0, 0, 0, 0, 0, 0, 0, 0, 0, 0] ++ [0xa0, 0, 0, 0]

/-- The audio header is read from the size behind the tag, and the length of the payload
wraps. -/
theorem not_inside_emptyAudioTag :
    (∃ c ∈ calls [{ buffer := emptyAudioTag }] {}, ¬ Inside c) ∧
      inputAll [{ buffer := emptyAudioTag }] {} = .error .outOfBounds := by
  constructor
  · by_contra h
    have hall : ∀ c ∈ calls [{ buffer := emptyAudioTag }] {}, Inside c := by
      intro c hc
      by_contra hout
      exact h ⟨c, hc, hout⟩
    have hfits := (@calls_inside_iff [{ buffer := emptyAudioTag }] {} (fun _ => rfl) (by simp)).mp
      hall
    revert hfits
    decide +kernel
  · exact Run.eq_error_of_fault (by decide +kernel)

end FlvDemuxer

end MediaServer
