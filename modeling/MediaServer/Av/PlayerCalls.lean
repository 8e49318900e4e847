import Mathlib.Data.List.Basic
import Mathlib.Tactic.Common
import MediaServer.Av.MediaStreamManager
import MediaServer.Lib.Guarded

/-!
# Calls on players that can fail

The stream manager calls its players through pointers.  `Guards` says of a class of players
that no call on one of them that is `live` ends in a certain fault, and that the calls keep
an invariant of the state.  A packet then keeps both, whoever fails to write it
(`Guards.writerMediaPacket`).

A packet and the calls that remove somebody never put a player into the map
(`Within`).
-/

namespace MediaServer

namespace MediaStreamManager

open Run

variable {σ W : Type} {ops : AvWriterBase σ W} {e : Fault} {inv : σ → Prop} {live : W → Prop}

/-- Every entry of a stream stands in the same stream of `streams`. -/
def Within (streams streams' : Streams W) : Prop :=
  ∀ k stream', streams' k = some stream' →
    ∀ entry ∈ stream'.writerMap, ∃ stream, streams k = some stream ∧ entry ∈ stream.writerMap

theorem Within.refl (streams : Streams W) : Within streams streams :=
  fun _ stream h _ hentry => ⟨stream, h, hentry⟩

theorem Within.trans {streams streams' streams'' : Streams W} (h : Within streams streams')
    (h' : Within streams' streams'') : Within streams streams'' := by
  intro k stream'' hk entry hentry
  obtain ⟨stream', hk', hentry'⟩ := h' k stream'' hk entry hentry
  exact h k stream' hk' entry hentry'

theorem within_update {k : Bytes} {stream : MediaStream W} {streams : Streams W}
    (h : stream.writerMap = ((streams k).getD {}).writerMap) :
    Within streams (Function.update streams k (some stream)) := by
  intro k' stream' hk' entry hentry
  by_cases hk : k' = k
  · rw [hk, Function.update_self, Option.some.injEq] at hk'
    rw [← hk', h] at hentry
    rcases hs : streams k with _ | stream₀
    · rw [hs] at hentry
      cases hentry
    · rw [hs] at hentry
      exact ⟨stream₀, by rw [hk, hs], hentry⟩
  · rw [Function.update_of_ne hk] at hk'
    exact ⟨stream', hk', hentry⟩

theorem within_erasePlayer (key writerid : Bytes) (streams : Streams W) :
    Within streams (erasePlayer key writerid streams) := by
  intro k stream' hk' entry hentry
  by_cases hk : k = key
  · rw [hk] at hk' ⊢
    obtain ⟨stream₀, hstream₀, rfl⟩ := erasePlayer_self hk'
    exact ⟨stream₀, hstream₀, (List.mem_filter.mp hentry).1⟩
  · rw [erasePlayer_of_ne hk] at hk'
    exact ⟨stream', hk', hentry⟩

theorem within_addPublisher (key : Bytes) (streams : Streams W) :
    Within streams (addPublisher key streams) := within_update rfl

theorem within_removePublisher (key : Bytes) (streams : Streams W) :
    Within streams (removePublisher key streams) := by
  intro k stream' hk' entry hentry
  by_cases hk : k = key
  · rw [hk] at hk' ⊢
    obtain ⟨stream₀, hstream₀, rfl⟩ := removePublisher_self hk'
    exact ⟨stream₀, hstream₀, hentry⟩
  · rw [removePublisher_of_ne hk] at hk'
    exact ⟨stream', hk', hentry⟩

/-- The calls on a live player keep the invariant and do not end in the fault. -/
structure Guards (ops : AvWriterBase σ W) (e : Fault) (inv : σ → Prop) (live : W → Prop) :
    Prop where
  write : ∀ {pkt w st}, live w → inv st →
    Guarded e (fun x : Int × σ => inv x.2) (ops.writePacket pkt w st)
  key : ∀ {w st}, live w → inv st → Avoids e (ops.getKey w st)
  writerid : ∀ {w st}, live w → inv st → Avoids e (ops.getWriterid w st)
  inited : ∀ {w st}, live w → inv st → Avoids e (ops.isInited w st)
  init : ∀ {flag w st}, live w → inv st → Guarded e inv (ops.setInitFlag flag w st)

/-- A property that the calls keep beside the invariant. -/
theorem Guards.and {P : σ → Prop} (hg : Guards ops e inv live)
    (hwrite : ∀ {pkt w st x}, live w → inv st → P st → ops.writePacket pkt w st = .ok x → P x.2)
    (hinit : ∀ {flag w st st'}, live w → inv st → P st → ops.setInitFlag flag w st = .ok st' →
      P st') : Guards ops e (fun st => inv st ∧ P st) live where
  write hw hst := (hg.write hw hst.1).mono fun _ hx h => ⟨h, hwrite hw hst.1 hst.2 hx⟩
  key hw hst := hg.key hw hst.1
  writerid hw hst := hg.writerid hw hst.1
  inited hw hst := hg.inited hw hst.1
  init hw hst := (hg.init hw hst.1).mono fun _ hx h => ⟨h, hinit hw hst.1 hst.2 hx⟩

theorem Guards.writeList (hg : Guards ops e inv live) {w : W} (hw : live w)
    (pkts : List MediaPacket) (ret : Int) {st : σ} (hst : inv st) :
    Guarded e (fun x : Int × σ => inv x.2) (GopCache.writeList ops w ret pkts st) := by
  induction pkts generalizing ret st with
  | nil => exact hst
  | cons pkt rest ih =>
    refine (hg.write hw hst).bind ?_
    rintro ⟨ret₁, st₁⟩ - hst₁
    exact guarded_ite (fun _ => hst₁) fun _ => ih ret₁ hst₁

theorem Guards.offerPacket (hg : Guards ops e inv live) {cache : GopCache} {pkt : MediaPacket}
    {w : W} (hw : live w) {st : σ} (hst : inv st) :
    Guarded e (fun x : Int × σ => inv x.2) (offerPacket ops cache pkt w st) := by
  refine (guarded_of_avoids (hg.inited hw hst)).bind fun inited _ _ => ?_
  refine guarded_ite (fun _ => ?_) fun _ => hg.write hw hst
  exact (hg.init hw hst).bind fun st₁ _ hst₁ => hg.writeList hw _ 0 hst₁

/-- Who has failed is one of those that the packet was offered to. -/
theorem Guards.offerAll (hg : Guards ops e inv live) {cache : GopCache} {pkt : MediaPacket}
    {ws : List W} (hws : ∀ w ∈ ws, live w) {st : σ} (hst : inv st) :
    Guarded e (fun x : List W × σ => (∀ w ∈ x.1, w ∈ ws) ∧ inv x.2)
      (offerAll ops cache pkt ws st) := by
  induction ws generalizing st with
  | nil => exact ⟨fun w hw => hw, hst⟩
  | cons w rest ih =>
    refine (hg.offerPacket (hws w (by simp)) hst).bind ?_
    rintro ⟨ret, st₁⟩ - hst₁
    refine (ih (fun v hv => hws v (by simp [hv])) hst₁).bind ?_
    rintro ⟨removeList, st₂⟩ - ⟨hrest, hst₂⟩
    refine guarded_pure ⟨fun v hv => ?_, hst₂⟩
    by_cases hret : ret < 0
    · rw [if_pos hret] at hv
      rcases List.mem_cons.mp hv with rfl | hv
      · exact List.mem_cons_self
      · exact List.mem_cons_of_mem _ (hrest v hv)
    · rw [if_neg hret] at hv
      exact List.mem_cons_of_mem _ (hrest v hv)

theorem Guards.removePlayer (hg : Guards ops e inv live) {w : W} (hw : live w) {st : σ}
    (hst : inv st) (streams : Streams W) :
    Guarded e (Within streams) (removePlayer ops w st streams) := by
  refine (guarded_of_avoids (hg.key hw hst)).bind fun key _ _ => ?_
  refine (guarded_of_avoids (hg.writerid hw hst)).bind fun writerid _ _ => ?_
  exact guarded_pure (within_erasePlayer key writerid streams)

theorem Guards.removePlayers (hg : Guards ops e inv live) {ws : List W} (hws : ∀ w ∈ ws, live w)
    {st : σ} (hst : inv st) (streams : Streams W) :
    Guarded e (Within streams) (removePlayers ops ws st streams) := by
  induction ws generalizing streams with
  | nil => exact Within.refl streams
  | cons w rest ih =>
    refine (hg.removePlayer (hws w (by simp)) hst streams).bind fun streams₁ _ h₁ => ?_
    exact (ih (fun v hv => hws v (by simp [hv])) streams₁).mono fun _ _ h => h₁.trans h

/-- A packet keeps the invariant, and lets nobody in. -/
theorem Guards.writerMediaPacket (hg : Guards ops e inv live) {pkt : MediaPacket} {st : σ}
    {streams : Streams W}
    (hlive : ∀ stream, streams pkt.key = some stream → ∀ entry ∈ stream.writerMap, live entry.2)
    (hst : inv st) :
    Guarded e (fun x : σ × Streams W => inv x.1 ∧ Within streams x.2)
      (writerMediaPacket ops pkt st streams) := by
  rw [writerMediaPacket_eq]
  have hfed : (fedStream pkt streams).writerMap = ((streams pkt.key).getD {}).writerMap := rfl
  have hws : ∀ w ∈ (fedStream pkt streams).writerMap.map Prod.snd, live w := by
    intro w hw
    obtain ⟨entry, hentry, rfl⟩ := List.mem_map.mp hw
    rw [hfed] at hentry
    rcases hk : streams pkt.key with _ | stream
    · rw [hk] at hentry
      cases hentry
    · rw [hk] at hentry
      exact hlive stream hk entry hentry
  refine (hg.offerAll hws hst).bind ?_
  rintro ⟨removeList, st₁⟩ - ⟨hremove, hst₁⟩
  refine (hg.removePlayers (fun w hw => hws w (hremove w hw)) hst₁ _).bind fun streams' _ h => ?_
  exact guarded_pure ⟨hst₁, (within_update hfed).trans h⟩

end MediaStreamManager

end MediaServer
