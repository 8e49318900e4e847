import MediaServer.Utils.DataBuffer

/-!
# Media packets, writers and the GOP cache

`utils/av/media_packet` and `utils/av/gop_cache`.  A writer is an object that
the stream manager knows through the interface `av_writer_base`.  What a call
on it does depends on its class, so the interface is a record of operations on
a state `σ` in which the writers of type `W` live.  An operation on a writer
that no longer exists is a fault.

The cache keeps the latest metadata and the latest sequence headers apart from
the list of the other packets, which starts again at a key frame.
-/

namespace MediaServer

/-! ## Packets -/

/-- `MEDIA_PKT_TYPE`. -/
inductive MediaPktType where
  | unkown
  | video
  | audio
  | metadata
  deriving DecidableEq, Repr

/-- `MEDIA_CODEC_TYPE`. -/
inductive MediaCodecType where
  | unkown
  | h264
  | h265
  | vp8
  | vp9
  | aac
  | opus
  | mp3
  deriving DecidableEq, Repr

/-- `MEDIA_FORMAT_TYPE`. -/
inductive MediaFormatType where
  | unkown
  | raw
  | flv
  deriving DecidableEq, Repr

/-- `MEDIA_PACKET`. -/
structure MediaPacket where
  avType : MediaPktType := .unkown
  codecType : MediaCodecType := .unkown
  fmtType : MediaFormatType := .unkown
  dts : Int := 0
  pts : Int := 0
  isKeyFrame : Bool := false
  isSeqHdr : Bool := false
  buffer : DataBuffer := []
  key : Bytes := []
  app : Bytes := []
  streamname : Bytes := []
  streamid : UInt32 := 0
  typeid : UInt8 := 0
  deriving DecidableEq, Repr

/-! ## Writers -/

/-- `av_writer_base`: the calls that the stream manager makes on a writer.
`writePacket` returns the `int` of the source, negative on failure. -/
structure AvWriterBase (σ W : Type) where
  writePacket : MediaPacket → W → σ → Except Fault (Int × σ)
  getKey : W → σ → Except Fault Bytes
  getWriterid : W → σ → Except Fault Bytes
  isInited : W → σ → Except Fault Bool
  setInitFlag : Bool → W → σ → Except Fault σ

/-! ## The cache -/

/-- `gop_cache`. -/
structure GopCache where
  packetList : List MediaPacket := []
  videoHdr : Option MediaPacket := none
  audioHdr : Option MediaPacket := none
  metadataHdr : Option MediaPacket := none
  minGop : UInt32 := 1
  gopCount : UInt32 := 0
  deriving DecidableEq, Repr

namespace GopCache

/-- `insert_packet`.  Its return value, the length of the list, is not used. -/
def insertPacket (pkt : MediaPacket) (c : GopCache) : GopCache :=
  match pkt.avType with
  | .video =>
    if pkt.isSeqHdr then { c with videoHdr := some pkt }
    else if pkt.isKeyFrame then
      let c := { c with gopCount := c.gopCount + 1 }
      if c.gopCount.toNat % c.minGop.toNat = 0 then { c with packetList := [pkt] }
      else { c with packetList := c.packetList ++ [pkt] }
    else { c with packetList := c.packetList ++ [pkt] }
  | .audio =>
    if pkt.isSeqHdr then { c with audioHdr := some pkt }
    else { c with packetList := c.packetList ++ [pkt] }
  | .metadata => { c with metadataHdr := some pkt }
  | .unkown => c

/-- The headers that `writer_gop` sends: those that are there and not empty. -/
def headers (c : GopCache) : List MediaPacket :=
  [c.metadataHdr, c.videoHdr, c.audioHdr].filterMap fun hdr =>
    hdr.filter fun pkt => decide (pkt.buffer.dataLen > 0)

/-- What a writer is sent when it joins. -/
def gop (c : GopCache) : List MediaPacket := c.headers ++ c.packetList

section Writers

variable {σ W : Type} (ops : AvWriterBase σ W)

/-- Packets are written until one of them fails; `ret` is the result so far. -/
def writeList (w : W) : Int → List MediaPacket → σ → Except Fault (Int × σ)
  | ret, [], st => .ok (ret, st)
  | _, pkt :: rest, st => do
    let (ret, st) ← ops.writePacket pkt w st
    if ret < 0 then return (ret, st)
    writeList w ret rest st

/-- `writer_gop`. -/
def writerGop (c : GopCache) (w : W) (st : σ) : Except Fault (Int × σ) :=
  writeList ops w 0 c.gop st

end Writers

theorem mem_gop {c : GopCache} {p : MediaPacket} :
    p ∈ c.gop ↔ ((c.metadataHdr = some p ∨ c.videoHdr = some p ∨ c.audioHdr = some p) ∧
      p.buffer ≠ []) ∨ p ∈ c.packetList := by
  simp only [gop, headers, List.mem_append, List.mem_filterMap, List.mem_cons, List.not_mem_nil,
    or_false, Option.filter_eq_some_iff, decide_eq_true_eq, gt_iff_lt, List.length_pos_iff,
    DataBuffer.dataLen]
  constructor
  · rintro (⟨hdr, hmem, hhdr, hne⟩ | h)
    · exact Or.inl ⟨by rcases hmem with rfl | rfl | rfl <;> simp [hhdr], hne⟩
    · exact Or.inr h
  · rintro (⟨h, hne⟩ | h)
    · exact Or.inl ⟨some p, by rcases h with h | h | h <;> simp [h], rfl, hne⟩
    · exact Or.inr h

/-- Every packet that the cache holds was inserted. -/
theorem forall_insertPacket {P : MediaPacket → Prop} {c : GopCache} {pkt : MediaPacket}
    (h : ∀ p ∈ c.gop, P p) (hpkt : P pkt) : ∀ p ∈ (c.insertPacket pkt).gop, P p := by
  have key : ∀ p ∈ (c.insertPacket pkt).gop, p ∈ c.gop ∨ p = pkt := by
    intro p hp
    simp only [mem_gop] at hp ⊢
    unfold insertPacket at hp
    rcases hav : pkt.avType with _ | _ | _ | _ <;> simp only [hav] at hp
    · exact Or.inl hp
    · split_ifs at hp <;> simp at hp <;> grind
    · split_ifs at hp <;> simp at hp <;> grind
    · simp at hp
      grind
  intro p hp
  rcases key p hp with hold | rfl
  · exact h p hold
  · exact hpkt

end GopCache

end MediaServer
