import Mathlib.Data.List.Induction
import Mathlib.Data.Nat.Basic
import Mathlib.Tactic.SplitIfs
import MediaServer.Av.GopCache

/-!
# What the GOP cache holds

`insert_packet` has one exit for each kind of packet.  `insertPacket_eq` puts
them into one record: which fields a packet writes, and what becomes of the
list.  A key frame counts, and the list is cleared before a key frame whose
number is a multiple of `min_gop_` (`Clears`).

`gop_content` says what the cache holds after any packets: the packets from the
last such key frame on, and the last header of each kind.
-/

namespace MediaServer

namespace GopCache

/-- The cache after packets, one after another. -/
def insertAll (pkts : List MediaPacket) (c : GopCache) : GopCache :=
  pkts.foldl (fun c pkt => c.insertPacket pkt) c

/-! ## Kinds of packets -/

/-- A key frame, at which a group of pictures starts. -/
def isKey (pkt : MediaPacket) : Bool :=
  pkt.avType = .video && pkt.isKeyFrame && !pkt.isSeqHdr

/-- The packets that go into the list. -/
def isMedia (pkt : MediaPacket) : Bool :=
  (pkt.avType = .video || pkt.avType = .audio) && !pkt.isSeqHdr

/-- A video sequence header. -/
def isVideoHdr (pkt : MediaPacket) : Bool := pkt.avType = .video && pkt.isSeqHdr

/-- An audio sequence header. -/
def isAudioHdr (pkt : MediaPacket) : Bool := pkt.avType = .audio && pkt.isSeqHdr

/-- Metadata. -/
def isMetadata (pkt : MediaPacket) : Bool := pkt.avType = .metadata

theorem isMedia_of_isKey {pkt : MediaPacket} (h : isKey pkt = true) : isMedia pkt = true := by
  simp only [isKey, Bool.and_eq_true, decide_eq_true_eq] at h
  simp [isMedia, h.1.1, h.2]

/-- What a packet does to the cache. -/
theorem insertPacket_eq (pkt : MediaPacket) (c : GopCache) :
    c.insertPacket pkt =
      { c with
        packetList :=
          if isKey pkt = true ∧ (c.gopCount + 1).toNat % c.minGop.toNat = 0 then [pkt]
          else if isMedia pkt then c.packetList ++ [pkt] else c.packetList
        videoHdr := if isVideoHdr pkt then some pkt else c.videoHdr
        audioHdr := if isAudioHdr pkt then some pkt else c.audioHdr
        metadataHdr := if isMetadata pkt then some pkt else c.metadataHdr
        gopCount := if isKey pkt then c.gopCount + 1 else c.gopCount } := by
  rw [insertPacket]
  rcases hav : pkt.avType with _ | _ | _ | _
  · simp [isKey, isMedia, isVideoHdr, isAudioHdr, isMetadata, hav]
  · rcases hhdr : pkt.isSeqHdr with _ | _
    · rcases hkey : pkt.isKeyFrame with _ | _
      · simp [isKey, isMedia, isVideoHdr, isAudioHdr, isMetadata, hav, hhdr, hkey]
      · simp only [isKey, isMedia, isVideoHdr, isAudioHdr, isMetadata, hav, hhdr, hkey]
        split_ifs <;> simp_all
    · simp [isKey, isMedia, isVideoHdr, isAudioHdr, isMetadata, hav, hhdr]
  · rcases hhdr : pkt.isSeqHdr with _ | _
    · simp [isKey, isMedia, isVideoHdr, isAudioHdr, isMetadata, hav, hhdr]
    · simp [isKey, isMedia, isVideoHdr, isAudioHdr, isMetadata, hav, hhdr]
  · simp [isKey, isMedia, isVideoHdr, isAudioHdr, isMetadata, hav]

/-! ## The list -/

/-- At position `i` stands a key frame whose number, counted from 1, is a multiple
of `g`. -/
def Clears (g : Nat) (pkts : List MediaPacket) (i : Nat) : Prop :=
  ∃ pkt, pkts[i]? = some pkt ∧ isKey pkt = true ∧ g ∣ (pkts.take (i + 1)).countP isKey

/-- The packets of the list: from the last key frame on that clears it, or all when no
key frame does. -/
inductive Kept (g : Nat) (pkts : List MediaPacket) : List MediaPacket → Prop
  | all (hnone : ∀ i, ¬ Clears g pkts i) : Kept g pkts (pkts.filter isMedia)
  | since (i : Nat) (hclears : Clears g pkts i) (hlast : ∀ j, i < j → ¬ Clears g pkts j) :
    Kept g pkts ((pkts.drop i).filter isMedia)

theorem Clears.lt_length {g i : Nat} {pkts : List MediaPacket} (h : Clears g pkts i) :
    i < pkts.length := by
  obtain ⟨pkt, hget, -⟩ := h
  exact (List.getElem?_eq_some_iff.mp hget).1

theorem clears_concat {g : Nat} {pkts : List MediaPacket} {pkt : MediaPacket} {i : Nat} :
    Clears g (pkts ++ [pkt]) i ↔
      Clears g pkts i ∨ (i = pkts.length ∧ isKey pkt = true ∧ g ∣ pkts.countP isKey + 1) := by
  rcases Nat.lt_trichotomy i pkts.length with hlt | rfl | hgt
  · have hget : (pkts ++ [pkt])[i]? = pkts[i]? := List.getElem?_append_left hlt
    have htake : (pkts ++ [pkt]).take (i + 1) = pkts.take (i + 1) :=
      List.take_append_of_le_length hlt
    have hne : i ≠ pkts.length := Nat.ne_of_lt hlt
    rw [Clears, hget, htake]
    simp [Clears, hne]
  · have hold : ¬ Clears g pkts pkts.length := fun h => Nat.lt_irrefl _ h.lt_length
    have htake : (pkts ++ [pkt]).take (pkts.length + 1) = pkts ++ [pkt] :=
      List.take_of_length_le (by simp)
    rw [Clears, htake]
    simp only [hold, List.getElem?_concat_length, Option.some.injEq, exists_eq_left', true_and,
      false_or]
    refine and_congr_right ?_
    intro hkey
    rw [List.countP_append, List.countP_singleton, if_pos hkey]
  · have hold : ¬ Clears g pkts i := fun h => Nat.lt_asymm hgt h.lt_length
    have hnew : ¬ Clears g (pkts ++ [pkt]) i := by
      intro h
      have hlen := h.lt_length
      rw [List.length_append, List.length_singleton] at hlen
      omega
    have hne : i ≠ pkts.length := Nat.ne_of_gt hgt
    simp [hold, hnew, hne]

/-- A packet that does not clear the list. -/
theorem Kept.concat {g : Nat} {pkts list : List MediaPacket} {pkt : MediaPacket}
    (h : Kept g pkts list) (hno : ¬ (isKey pkt = true ∧ g ∣ pkts.countP isKey + 1)) :
    Kept g (pkts ++ [pkt]) (if isMedia pkt then list ++ [pkt] else list) := by
  have hsame : ∀ i, Clears g (pkts ++ [pkt]) i ↔ Clears g pkts i := by
    intro i
    rw [clears_concat]
    tauto
  have hlast : [pkt].filter isMedia = if isMedia pkt then [pkt] else [] := by
    rw [List.filter_cons, List.filter_nil]
  have happend : ∀ l : List MediaPacket,
      (if isMedia pkt then l ++ [pkt] else l) = l ++ [pkt].filter isMedia := by
    intro l
    rw [hlast]
    split_ifs
    · rfl
    · rw [List.append_nil]
  rw [happend]
  cases h with
  | all hnone =>
    rw [← List.filter_append]
    apply Kept.all
    intro i
    rw [hsame]
    exact hnone i
  | since i hclears hafter =>
    have hdrop : (pkts ++ [pkt]).drop i = pkts.drop i ++ [pkt] :=
      List.drop_append_of_le_length (Nat.le_of_lt hclears.lt_length)
    rw [← List.filter_append, ← hdrop]
    apply Kept.since i
    · rw [hsame]
      exact hclears
    · intro j hj
      rw [hsame]
      exact hafter j hj

/-- A key frame that clears the list. -/
theorem kept_of_clears {g : Nat} {pkts : List MediaPacket} {pkt : MediaPacket}
    (hkey : isKey pkt = true) (hdvd : g ∣ pkts.countP isKey + 1) : Kept g (pkts ++ [pkt]) [pkt] := by
  have hlist : ((pkts ++ [pkt]).drop pkts.length).filter isMedia = [pkt] := by
    rw [List.drop_left, List.filter_cons, if_pos (isMedia_of_isKey hkey), List.filter_nil]
  have hkept : Kept g (pkts ++ [pkt]) (((pkts ++ [pkt]).drop pkts.length).filter isMedia) := by
    apply Kept.since
    · exact clears_concat.mpr (Or.inr ⟨rfl, hkey, hdvd⟩)
    · intro j hj h
      have hlen := h.lt_length
      rw [List.length_append, List.length_singleton] at hlen
      omega
  rw [hlist] at hkept
  exact hkept

/-! ## Any packets -/

/-- What the cache holds after `pkts`. -/
structure Content (g : UInt32) (pkts : List MediaPacket) (c : GopCache) : Prop where
  minGop : c.minGop = g
  gopCount : c.gopCount.toNat = pkts.countP isKey
  packetList : Kept g.toNat pkts c.packetList
  videoHdr : c.videoHdr = (pkts.filter isVideoHdr).getLast?
  audioHdr : c.audioHdr = (pkts.filter isAudioHdr).getLast?
  metadataHdr : c.metadataHdr = (pkts.filter isMetadata).getLast?

theorem getLast?_filter_concat (p : MediaPacket → Bool) (pkts : List MediaPacket)
    (pkt : MediaPacket) :
    ((pkts ++ [pkt]).filter p).getLast? =
      if p pkt then some pkt else (pkts.filter p).getLast? := by
  rw [List.filter_append, List.filter_cons, List.filter_nil]
  split_ifs
  · rw [List.getLast?_concat]
  · rw [List.append_nil]

theorem Content.insertPacket {g : UInt32} {pkts : List MediaPacket} {pkt : MediaPacket}
    {c : GopCache} (h : Content g pkts c) (hcount : (pkts ++ [pkt]).countP isKey < 2 ^ 31) :
    Content g (pkts ++ [pkt]) (c.insertPacket pkt) := by
  rw [List.countP_append, List.countP_singleton] at hcount
  rw [insertPacket_eq]
  have hnext : isKey pkt = true → (c.gopCount + 1).toNat = pkts.countP isKey + 1 := by
    intro hkey
    rw [if_pos hkey] at hcount
    have hone : (1 : UInt32).toNat = 1 := rfl
    rw [UInt32.toNat_add, h.gopCount, hone]
    omega
  constructor
  · exact h.minGop
  · show (if isKey pkt then c.gopCount + 1 else c.gopCount).toNat = _
    rw [List.countP_append, List.countP_singleton]
    split_ifs with hkey
    · exact hnext hkey
    · exact h.gopCount
  · show Kept g.toNat (pkts ++ [pkt]) (if isKey pkt = true ∧ _ then _ else _)
    rw [h.minGop]
    by_cases hclear : isKey pkt = true ∧ (c.gopCount + 1).toNat % g.toNat = 0
    · rw [if_pos hclear]
      obtain ⟨hkey, hmod⟩ := hclear
      rw [hnext hkey] at hmod
      exact kept_of_clears hkey (Nat.dvd_of_mod_eq_zero hmod)
    · rw [if_neg hclear]
      apply h.packetList.concat
      rintro ⟨hkey, hdvd⟩
      apply hclear
      rw [hnext hkey]
      exact ⟨hkey, Nat.mod_eq_zero_of_dvd hdvd⟩
  · rw [getLast?_filter_concat, ← h.videoHdr]
  · rw [getLast?_filter_concat, ← h.audioHdr]
  · rw [getLast?_filter_concat, ← h.metadataHdr]

/-- **Run.**  The content after any packets. -/
theorem content_insertAll (g : UInt32) {pkts : List MediaPacket}
    (hcount : pkts.countP isKey < 2 ^ 31) :
    Content g pkts (insertAll pkts { minGop := g }) := by
  induction pkts using List.reverseRecOn with
  | nil =>
    have hnone : ∀ i, ¬ Clears g.toNat [] i := fun i h => Nat.not_lt_zero _ h.lt_length
    exact ⟨rfl, rfl, Kept.all hnone, rfl, rfl, rfl⟩
  | append_singleton pkts pkt ih =>
    have hbefore : pkts.countP isKey < 2 ^ 31 := by
      rw [List.countP_append] at hcount
      omega
    rw [insertAll, List.foldl_append, List.foldl_cons, List.foldl_nil]
    exact (ih hbefore).insertPacket hcount

/-- When every key frame clears the list, it begins with one and has no other. -/
theorem Kept.of_one {pkts list : List MediaPacket} (h : Kept 1 pkts list)
    (hkey : ∃ pkt ∈ pkts, isKey pkt = true) :
    ∃ key rest, list = key :: rest ∧ isKey key = true ∧ ∀ pkt ∈ rest, isKey pkt = false := by
  have hclears : ∀ i pkt, pkts[i]? = some pkt → isKey pkt = true → Clears 1 pkts i :=
    fun i pkt hget hkey => ⟨pkt, hget, hkey, Nat.one_dvd _⟩
  cases h with
  | all hnone =>
    obtain ⟨pkt, hmem, hkey⟩ := hkey
    obtain ⟨i, hget⟩ := List.mem_iff_getElem?.mp hmem
    exact absurd (hclears i pkt hget hkey) (hnone i)
  | since i hfirst hlast =>
    obtain ⟨key, hget, hkey, -⟩ := hfirst
    obtain ⟨hlt, hget⟩ := List.getElem?_eq_some_iff.mp hget
    refine ⟨key, (pkts.drop (i + 1)).filter isMedia, ?_, hkey, ?_⟩
    · rw [List.drop_eq_getElem_cons hlt, hget, List.filter_cons, if_pos (isMedia_of_isKey hkey)]
    · intro pkt hpkt
      obtain ⟨j, hj⟩ := List.mem_iff_getElem?.mp (List.mem_filter.mp hpkt).1
      rw [List.getElem?_drop] at hj
      by_contra hother
      rw [Bool.not_eq_false] at hother
      exact hlast (i + 1 + j) (by omega) (hclears _ pkt hj hother)

/-- **Content of the cache.**  After any packets the list has the audio and video packets
without headers, in their order, from the last key frame on whose number is a multiple of
`min_gop_`, and the headers are the last ones of their kind.  When every key frame starts
the list again, its first packet is its only key frame. -/
theorem gop_content (g : UInt32) (pkts : List MediaPacket)
    (hcount : pkts.countP isKey < 2 ^ 31) :
    Kept g.toNat pkts (insertAll pkts { minGop := g }).packetList ∧
      (insertAll pkts { minGop := g }).videoHdr = (pkts.filter isVideoHdr).getLast? ∧
      (insertAll pkts { minGop := g }).audioHdr = (pkts.filter isAudioHdr).getLast? ∧
      (insertAll pkts { minGop := g }).metadataHdr = (pkts.filter isMetadata).getLast? ∧
      (g = 1 → (∃ pkt ∈ pkts, isKey pkt = true) →
        ∃ key rest, (insertAll pkts { minGop := g }).packetList = key :: rest ∧
          isKey key = true ∧ ∀ pkt ∈ rest, isKey pkt = false) := by
  have h := content_insertAll g hcount
  refine ⟨h.packetList, h.videoHdr, h.audioHdr, h.metadataHdr, ?_⟩
  intro hone
  have hlist := h.packetList
  rw [hone] at hlist ⊢
  exact hlist.of_one

/-- Metadata, a video header, an audio packet and two key frames with a frame between
them: the second key frame clears the list. -/
theorem gop_content_two_keys :
    ∃ key rest, (insertAll [{ avType := .metadata }, { avType := .video, isSeqHdr := true },
        { avType := .audio }, { avType := .video, isKeyFrame := true }, { avType := .video },
        { avType := .video, isKeyFrame := true, dts := 40 }, { avType := .audio, dts := 41 }]
        { minGop := 1 }).packetList = key :: rest ∧
      isKey key = true ∧ ∀ pkt ∈ rest, isKey pkt = false :=
  (gop_content 1 _ (by decide)).2.2.2.2 rfl
    ⟨{ avType := .video, isKeyFrame := true }, by decide, rfl⟩

end GopCache

end MediaServer
