import Mathlib.Logic.Function.Basic
import MediaServer.Av.GopCache
import MediaServer.Lib.Run

/-!
# The stream manager

`utils/av/media_stream_manager`: the map from a stream key to the stream, and
the calls by which publishers and players enter it and leave it.

`media_streams_map_` has one entry per key, so it is a function.  The
`writer_map_` of a stream is an unordered map that is iterated over, so it is
a list of its entries.  The order of the list stands for the unspecified order
of the iteration; a new entry is put at its end.

A stream exists as long as somebody uses it.  The calls that remove a player
or the publisher erase the stream when neither is left, and the calls that add
one of them create it.
-/

namespace MediaServer

/-- `media_stream`. -/
structure MediaStream (W : Type) where
  publisherExist : Bool := false
  cache : GopCache := {}
  writerMap : List (Bytes × W) := []

/-- `media_streams_map_`. -/
abbrev Streams (W : Type) := Bytes → Option (MediaStream W)

namespace MediaStream

variable {W : Type}

/-- `writer_map_.insert`: an entry that is there stays. -/
def insertWriter (writerid : Bytes) (w : W) (s : MediaStream W) : MediaStream W :=
  if s.writerMap.any (·.1 = writerid) then s
  else { s with writerMap := s.writerMap ++ [(writerid, w)] }

/-- `writer_map_.erase`. -/
def eraseWriter (writerid : Bytes) (s : MediaStream W) : MediaStream W :=
  { s with writerMap := s.writerMap.filter (·.1 ≠ writerid) }

end MediaStream

namespace MediaStreamManager

section Operations

variable {σ W : Type} (ops : AvWriterBase σ W)

/-- `add_player`.  Its return value, the number of players, is not used. -/
def addPlayer (w : W) (st : σ) (streams : Streams W) : Except Fault (Streams W) := do
  let key ← ops.getKey w st
  let writerid ← ops.getWriterid w st
  let stream := (streams key).getD {}
  return Function.update streams key (some (stream.insertWriter writerid w))

/-- The part of `remove_player` behind the two calls on the writer. -/
def erasePlayer (key writerid : Bytes) (streams : Streams W) : Streams W :=
  match streams key with
  | none => streams
  | some stream =>
    let stream := stream.eraseWriter writerid
    if stream.writerMap.isEmpty && !stream.publisherExist then Function.update streams key none
    else Function.update streams key (some stream)

/-- `remove_player`. -/
def removePlayer (w : W) (st : σ) (streams : Streams W) : Except Fault (Streams W) := do
  let key ← ops.getKey w st
  let writerid ← ops.getWriterid w st
  return erasePlayer key writerid streams

/-- `add_publisher`. -/
def addPublisher (key : Bytes) (streams : Streams W) : Streams W :=
  Function.update streams key (some { (streams key).getD {} with publisherExist := true })

/-- `remove_publisher`. -/
def removePublisher (key : Bytes) (streams : Streams W) : Streams W :=
  match streams key with
  | none => streams
  | some stream =>
    if stream.writerMap.isEmpty then Function.update streams key none
    else Function.update streams key (some { stream with publisherExist := false })

/-- What `writer_media_packet` does with one writer of the stream. -/
def offerPacket (cache : GopCache) (pkt : MediaPacket) (w : W) (st : σ) :
    Except Fault (Int × σ) := do
  if !(← ops.isInited w st) then
    let st ← ops.setInitFlag true w st
    cache.writerGop ops w st
  else ops.writePacket pkt w st

/-- The loop over the writers.  Those that failed are the `remove_list`. -/
def offerAll (cache : GopCache) (pkt : MediaPacket) : List W → σ → Except Fault (List W × σ)
  | [], st => .ok ([], st)
  | w :: rest, st => do
    let (ret, st) ← offerPacket ops cache pkt w st
    let (removeList, st) ← offerAll cache pkt rest st
    return (if ret < 0 then w :: removeList else removeList, st)

/-- The loop over the `remove_list`. -/
def removePlayers : List W → σ → Streams W → Except Fault (Streams W)
  | [], _, streams => .ok streams
  | w :: rest, st, streams => do
    let streams ← removePlayer ops w st streams
    removePlayers rest st streams

/-- The stream of a packet after `add_publisher` and `insert_packet`. -/
def fedStream (pkt : MediaPacket) (streams : Streams W) : MediaStream W :=
  let stream := (streams pkt.key).getD {}
  { stream with publisherExist := true, cache := stream.cache.insertPacket pkt }

/-- `writer_media_packet`. -/
def writerMediaPacket (pkt : MediaPacket) (st : σ) (streams : Streams W) :
    Except Fault (σ × Streams W) := do
  let streams := addPublisher pkt.key streams
  let stream := (streams pkt.key).getD {}
  let stream := { stream with cache := stream.cache.insertPacket pkt }
  let streams := Function.update streams pkt.key (some stream)
  let (removeList, st) ← offerAll ops stream.cache pkt (stream.writerMap.map Prod.snd) st
  let streams ← removePlayers ops removeList st streams
  return (st, streams)

end Operations

/-! ## What the calls do -/

section Spec

variable {σ W : Type} {ops : AvWriterBase σ W}

theorem writerMediaPacket_eq (pkt : MediaPacket) (st : σ) (streams : Streams W) :
    writerMediaPacket ops pkt st streams = (do
      let stream := fedStream pkt streams
      let (removeList, st) ← offerAll ops stream.cache pkt (stream.writerMap.map Prod.snd) st
      let streams ← removePlayers ops removeList st
        (Function.update streams pkt.key (some stream))
      return (st, streams)) := by
  simp [writerMediaPacket, fedStream, addPublisher]

/-- `remove_player` erases the stream when nobody is left. -/
theorem erasePlayer_cases (key writerid : Bytes) (streams : Streams W) :
    (streams key = none ∧ erasePlayer key writerid streams = streams) ∨
      ∃ stream, streams key = some stream ∧
        (((stream.eraseWriter writerid).writerMap = [] ∧ stream.publisherExist = false ∧
            erasePlayer key writerid streams = Function.update streams key none) ∨
          (((stream.eraseWriter writerid).writerMap ≠ [] ∨ stream.publisherExist = true) ∧
            erasePlayer key writerid streams =
              Function.update streams key (some (stream.eraseWriter writerid)))) := by
  unfold erasePlayer
  rcases hk : streams key with _ | stream
  · exact Or.inl ⟨rfl, rfl⟩
  · refine Or.inr ⟨stream, rfl, ?_⟩
    have hpub : (stream.eraseWriter writerid).publisherExist = stream.publisherExist := rfl
    by_cases hgone : (stream.eraseWriter writerid).writerMap = [] ∧ stream.publisherExist = false
    · exact Or.inl ⟨hgone.1, hgone.2, by simp [hpub, hgone.1, hgone.2]⟩
    · refine Or.inr ⟨?_, ?_⟩
      · rw [not_and_or, Bool.not_eq_false] at hgone
        exact hgone
      · exact if_neg (by simpa [hpub] using hgone)

/-- `remove_publisher` erases the stream when it has no player. -/
theorem removePublisher_cases (key : Bytes) (streams : Streams W) :
    (streams key = none ∧ removePublisher key streams = streams) ∨
      ∃ stream, streams key = some stream ∧
        ((stream.writerMap = [] ∧
            removePublisher key streams = Function.update streams key none) ∨
          (stream.writerMap ≠ [] ∧ removePublisher key streams =
            Function.update streams key (some { stream with publisherExist := false }))) := by
  unfold removePublisher
  rcases hk : streams key with _ | stream
  · exact Or.inl ⟨rfl, rfl⟩
  · refine Or.inr ⟨stream, rfl, ?_⟩
    by_cases hempty : stream.writerMap = []
    · exact Or.inl ⟨hempty, by simp [hempty]⟩
    · exact Or.inr ⟨hempty, by simp [hempty]⟩

theorem erasePlayer_of_ne {key k : Bytes} (h : k ≠ key) (writerid : Bytes) (streams : Streams W) :
    erasePlayer key writerid streams k = streams k := by
  rcases erasePlayer_cases key writerid streams with ⟨-, heq⟩ | ⟨stream, -, ⟨-, -, heq⟩ | ⟨-, heq⟩⟩
  · rw [heq]
  · rw [heq, Function.update_of_ne h]
  · rw [heq, Function.update_of_ne h]

theorem removePublisher_of_ne {key k : Bytes} (h : k ≠ key) (streams : Streams W) :
    removePublisher key streams k = streams k := by
  rcases removePublisher_cases key streams with ⟨-, heq⟩ | ⟨stream, -, ⟨-, heq⟩ | ⟨-, heq⟩⟩
  · rw [heq]
  · rw [heq, Function.update_of_ne h]
  · rw [heq, Function.update_of_ne h]

/-- A stream that is still there has lost the entry and nothing else. -/
theorem erasePlayer_self {key writerid : Bytes} {streams : Streams W} {stream : MediaStream W}
    (h : erasePlayer key writerid streams key = some stream) :
    ∃ stream₀, streams key = some stream₀ ∧ stream = stream₀.eraseWriter writerid := by
  rcases erasePlayer_cases key writerid streams with ⟨hnone, heq⟩ |
    ⟨stream₀, hk, ⟨-, -, heq⟩ | ⟨-, heq⟩⟩
  · rw [heq, hnone] at h
    cases h
  · rw [heq, Function.update_self] at h
    cases h
  · rw [heq, Function.update_self, Option.some.injEq] at h
    exact ⟨stream₀, hk, h.symm⟩

/-- A stream that is still there has lost its publisher and nothing else. -/
theorem removePublisher_self {key : Bytes} {streams : Streams W} {stream : MediaStream W}
    (h : removePublisher key streams key = some stream) :
    ∃ stream₀, streams key = some stream₀ ∧ stream = { stream₀ with publisherExist := false } := by
  rcases removePublisher_cases key streams with ⟨hnone, heq⟩ | ⟨stream₀, hk, ⟨-, heq⟩ | ⟨-, heq⟩⟩
  · rw [heq, hnone] at h
    cases h
  · rw [heq, Function.update_self] at h
    cases h
  · rw [heq, Function.update_self, Option.some.injEq] at h
    exact ⟨stream₀, hk, h.symm⟩

/-- A stream with a publisher survives its players. -/
theorem erasePlayer_of_publisherExist {key writerid : Bytes} {streams : Streams W}
    {stream : MediaStream W} (hk : streams key = some stream)
    (hpub : stream.publisherExist = true) :
    erasePlayer key writerid streams key = some (stream.eraseWriter writerid) := by
  have hgone : ((stream.eraseWriter writerid).writerMap.isEmpty &&
      !(stream.eraseWriter writerid).publisherExist) = false := by
    simp [MediaStream.eraseWriter, hpub]
  simp only [erasePlayer, hk, hgone, Bool.false_eq_true, if_false, Function.update_self]

/-! ## Writers that keep to a rule

A class of writers is tame when writing a packet of a certain kind succeeds
and relates the states before and after it by `R`.  A published packet then
changes nothing but the stream it is for.
-/

/-- Writing a packet with `P` does not fail, and what the writers do stays
within `R`. -/
structure Tame (ops : AvWriterBase σ W) (P : MediaPacket → Prop) (R : σ → σ → Prop) : Prop where
  refl : ∀ st, R st st
  trans : ∀ {st₁ st₂ st₃}, R st₁ st₂ → R st₂ st₃ → R st₁ st₃
  write : ∀ {pkt w st ret st'}, P pkt → ops.writePacket pkt w st = .ok (ret, st') →
    0 ≤ ret ∧ R st st'
  init : ∀ {flag w st st'}, ops.setInitFlag flag w st = .ok st' → R st st'

section Tame

variable {P : MediaPacket → Prop} {R : σ → σ → Prop}

theorem Tame.writeList (ht : Tame ops P R) {w : W} {pkts : List MediaPacket} {ret ret' : Int}
    {st st' : σ} (hP : ∀ p ∈ pkts, P p) (hret : 0 ≤ ret)
    (h : GopCache.writeList ops w ret pkts st = .ok (ret', st')) : 0 ≤ ret' ∧ R st st' := by
  induction pkts generalizing ret st with
  | nil =>
    cases h
    exact ⟨hret, ht.refl _⟩
  | cons pkt rest ih =>
    obtain ⟨⟨ret₁, st₁⟩, hfirst, h⟩ := Run.exists_of_bind_ok h
    obtain ⟨hret₁, hR⟩ := ht.write (hP pkt (by simp)) hfirst
    simp only [Int.not_lt.mpr hret₁, if_false] at h
    obtain ⟨hret', hR'⟩ := ih (fun p hp => hP p (by simp [hp])) hret₁ h
    exact ⟨hret', ht.trans hR hR'⟩

theorem Tame.offerPacket (ht : Tame ops P R) {cache : GopCache} {pkt : MediaPacket} {w : W}
    {ret : Int} {st st' : σ} (hP : P pkt) (hcache : ∀ p ∈ cache.gop, P p)
    (h : MediaStreamManager.offerPacket ops cache pkt w st = .ok (ret, st')) :
    0 ≤ ret ∧ R st st' := by
  obtain ⟨inited, -, h⟩ := Run.exists_of_bind_ok h
  rcases inited with _ | _
  · obtain ⟨st₁, hinit, h⟩ := Run.exists_of_bind_ok h
    obtain ⟨hret, hR⟩ := ht.writeList hcache (Int.le_refl 0) h
    exact ⟨hret, ht.trans (ht.init hinit) hR⟩
  · exact ht.write hP h

/-- The `remove_list` stays empty. -/
theorem Tame.offerAll (ht : Tame ops P R) {cache : GopCache} {pkt : MediaPacket} {ws : List W}
    {removeList : List W} {st st' : σ} (hP : P pkt) (hcache : ∀ p ∈ cache.gop, P p)
    (h : MediaStreamManager.offerAll ops cache pkt ws st = .ok (removeList, st')) :
    removeList = [] ∧ R st st' := by
  induction ws generalizing removeList st st' with
  | nil =>
    cases h
    exact ⟨rfl, ht.refl _⟩
  | cons w rest ih =>
    obtain ⟨⟨ret, st₁⟩, hfirst, h⟩ := Run.exists_of_bind_ok h
    obtain ⟨hret, hR⟩ := ht.offerPacket hP hcache hfirst
    obtain ⟨⟨removed, st₂⟩, hrest, h⟩ := Run.exists_of_bind_ok h
    obtain ⟨rfl, hR'⟩ := ih hrest
    simp only [Int.not_lt.mpr hret, if_false] at h
    cases h
    exact ⟨rfl, ht.trans hR hR'⟩

/-- A published packet feeds its stream and nothing else. -/
theorem Tame.writerMediaPacket (ht : Tame ops P R) {pkt : MediaPacket} {st st' : σ}
    {streams streams' : Streams W} (hP : P pkt)
    (hcache : ∀ p ∈ (fedStream pkt streams).cache.gop, P p)
    (h : MediaStreamManager.writerMediaPacket ops pkt st streams = .ok (st', streams')) :
    R st st' ∧ streams' = Function.update streams pkt.key (some (fedStream pkt streams)) := by
  rw [writerMediaPacket_eq] at h
  obtain ⟨⟨removeList, st₁⟩, hoffer, h⟩ := Run.exists_of_bind_ok h
  obtain ⟨rfl, hR⟩ := ht.offerAll hP hcache hoffer
  cases h
  exact ⟨hR, rfl⟩

/-- In the states with `J` no call on a writer ends in the fault `e`. -/
structure NeverFaults (ops : AvWriterBase σ W) (e : Fault) (J : σ → Prop) : Prop where
  write : ∀ {pkt w st}, J st → ops.writePacket pkt w st ≠ .error e
  key : ∀ {w st}, ops.getKey w st ≠ .error e
  writerid : ∀ {w st}, ops.getWriterid w st ≠ .error e
  inited : ∀ {w st}, ops.isInited w st ≠ .error e
  init : ∀ {flag w st}, ops.setInitFlag flag w st ≠ .error e

variable {e : Fault} {J : σ → Prop}

/-- The calls that only look up the writer's key and id. -/
theorem NeverFaults.lookup {α : Type} (hn : NeverFaults ops e J) {w : W} {st : σ}
    (f : Bytes → Bytes → α) :
    Run.Avoids e (do
      let key ← ops.getKey w st
      let writerid ← ops.getWriterid w st
      return f key writerid) := by
  refine Run.Avoids.bind hn.key fun key _ => ?_
  exact Run.Avoids.bind hn.writerid fun writerid _ => Run.avoids_ok _ _

theorem NeverFaults.addPlayer (hn : NeverFaults ops e J) {w : W} {st : σ} {streams : Streams W} :
    Run.Avoids e (MediaStreamManager.addPlayer ops w st streams) :=
  hn.lookup _

theorem NeverFaults.removePlayer (hn : NeverFaults ops e J) {w : W} {st : σ}
    {streams : Streams W} : Run.Avoids e (MediaStreamManager.removePlayer ops w st streams) :=
  hn.lookup _

theorem NeverFaults.writeList (hn : NeverFaults ops e J) (ht : Tame ops P R)
    (hJ : ∀ {st st'}, R st st' → J st → J st') {w : W} {pkts : List MediaPacket} {ret : Int}
    {st : σ} (hP : ∀ p ∈ pkts, P p) (hst : J st) :
    Run.Avoids e (GopCache.writeList ops w ret pkts st) := by
  induction pkts generalizing ret st with
  | nil => exact Run.avoids_ok _ _
  | cons pkt rest ih =>
    refine Run.Avoids.bind (hn.write hst) ?_
    rintro ⟨ret₁, st₁⟩ hfirst
    obtain ⟨hret₁, hR⟩ := ht.write (hP pkt (by simp)) hfirst
    simp only [Int.not_lt.mpr hret₁, if_false]
    exact ih (fun p hp => hP p (by simp [hp])) (hJ hR hst)

theorem NeverFaults.offerPacket (hn : NeverFaults ops e J) (ht : Tame ops P R)
    (hJ : ∀ {st st'}, R st st' → J st → J st') {cache : GopCache} {pkt : MediaPacket}
    {w : W} {st : σ} (hcache : ∀ p ∈ cache.gop, P p) (hst : J st) :
    Run.Avoids e (MediaStreamManager.offerPacket ops cache pkt w st) := by
  refine Run.Avoids.bind hn.inited fun inited _ => ?_
  rcases inited with _ | _
  · refine Run.Avoids.bind hn.init fun st₁ hinit => ?_
    exact hn.writeList ht hJ hcache (hJ (ht.init hinit) hst)
  · exact hn.write hst

theorem NeverFaults.offerAll (hn : NeverFaults ops e J) (ht : Tame ops P R)
    (hJ : ∀ {st st'}, R st st' → J st → J st') {cache : GopCache} {pkt : MediaPacket}
    {ws : List W} {st : σ} (hP : P pkt) (hcache : ∀ p ∈ cache.gop, P p) (hst : J st) :
    Run.Avoids e (MediaStreamManager.offerAll ops cache pkt ws st) := by
  induction ws generalizing st with
  | nil => exact Run.avoids_ok _ _
  | cons w rest ih =>
    refine Run.Avoids.bind (hn.offerPacket ht hJ hcache hst) ?_
    rintro ⟨ret, st₁⟩ hfirst
    obtain ⟨-, hR⟩ := ht.offerPacket hP hcache hfirst
    exact Run.Avoids.bind (ih (hJ hR hst)) fun _ _ => Run.avoids_ok _ _

theorem NeverFaults.writerMediaPacket (hn : NeverFaults ops e J) (ht : Tame ops P R)
    (hJ : ∀ {st st'}, R st st' → J st → J st') {pkt : MediaPacket} {st : σ}
    {streams : Streams W} (hP : P pkt) (hcache : ∀ p ∈ (fedStream pkt streams).cache.gop, P p)
    (hst : J st) : Run.Avoids e (MediaStreamManager.writerMediaPacket ops pkt st streams) := by
  rw [writerMediaPacket_eq]
  refine Run.Avoids.bind (hn.offerAll ht hJ hP hcache hst) ?_
  rintro ⟨removeList, st₁⟩ hoffer
  -- nobody has failed, so nobody is removed
  obtain ⟨rfl, -⟩ := ht.offerAll hP hcache hoffer
  exact Run.avoids_ok _ _

end Tame

end Spec

end MediaStreamManager

end MediaServer
