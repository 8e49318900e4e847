import Mathlib.Data.List.Induction
import MediaServer.Lib.Run
import MediaServer.Av.MediaStreamManager

/-!
# The stream map

What stands in `media_streams_map_` after any calls on the stream manager.  The
writers may do anything: a write may fail at any time, and may change the state
`σ` of all of them.  Only the key and the id of a writer are fixed.

`traced` are the same writers with a record of what was written and how it
ended; the calls add to it who was added and who was removed.  `Live` reads off
it which writers were added and have since neither been removed nor failed.

The lemmas come in three groups:

* what an operation leaves in the map (`stands_update`, `stands_erasePlayer`);
* what the loop over the writers records and whom it lets fail
  (`offerAll_records`);
* the step and the run (`Kept.call`, `stream_map_invariant`).
-/

namespace MediaServer

namespace StreamMap

/-- What has happened to the writers. -/
inductive Event (W : Type) where
  | added (w : W)
  | removed (w : W)
  | wrote (w : W) (ret : Int)

/-- The calls on the manager. -/
inductive Call (W : Type) where
  | addPlayer (w : W)
  | removePlayer (w : W)
  | addPublisher (key : Bytes)
  | removePublisher (key : Bytes)
  | writerMediaPacket (pkt : MediaPacket)

/-- The writers, what has happened to them, and the streams. -/
structure State (σ W : Type) where
  writers : σ
  events : List (Event W) := []
  streams : Streams W := fun _ => none

section Machine

variable {σ W : Type} (ops : AvWriterBase σ W)

/-- The writers, with the writes recorded. -/
def traced : AvWriterBase (σ × List (Event W)) W where
  writePacket pkt w st := do
    let (ret, writers) ← ops.writePacket pkt w st.1
    return (ret, (writers, st.2 ++ [.wrote w ret]))
  getKey w st := ops.getKey w st.1
  getWriterid w st := ops.getWriterid w st.1
  isInited w st := ops.isInited w st.1
  setInitFlag flag w st := do
    let writers ← ops.setInitFlag flag w st.1
    return (writers, st.2)

/-- One call on the manager. -/
def call : Call W → State σ W → Except Fault (State σ W)
  | .addPlayer w, s => do
    let streams ← MediaStreamManager.addPlayer ops w s.writers s.streams
    return { s with events := s.events ++ [.added w], streams := streams }
  | .removePlayer w, s => do
    let streams ← MediaStreamManager.removePlayer ops w s.writers s.streams
    return { s with events := s.events ++ [.removed w], streams := streams }
  | .addPublisher key, s =>
    .ok { s with streams := MediaStreamManager.addPublisher key s.streams }
  | .removePublisher key, s =>
    .ok { s with streams := MediaStreamManager.removePublisher key s.streams }
  | .writerMediaPacket pkt, s => do
    let (st, streams) ←
      MediaStreamManager.writerMediaPacket (traced ops) pkt (s.writers, s.events) s.streams
    return { writers := st.1, events := st.2, streams := streams }

end Machine

/-! ## The events -/

section Events

variable {W : Type}

/-- The event ends the time of the writer in the map. -/
def Ends (w : W) (e : Event W) : Prop :=
  e = .removed w ∨ ∃ ret < 0, e = .wrote w ret

/-- The writer was added and has since neither been removed nor failed a write. -/
def Live (w : W) (events : List (Event W)) : Prop :=
  ∃ before after, events = before ++ .added w :: after ∧ ∀ e ∈ after, ¬ Ends w e

theorem not_live_nil (w : W) : ¬ Live w [] := by
  rintro ⟨before, after, hsplit, -⟩
  simp at hsplit

theorem live_concat {w : W} {events : List (Event W)} {e : Event W} :
    Live w (events ++ [e]) ↔ e = .added w ∨ (Live w events ∧ ¬ Ends w e) := by
  constructor
  · rintro ⟨before, after, hsplit, hafter⟩
    rcases List.eq_nil_or_concat after with rfl | ⟨after, e', rfl⟩
    · obtain ⟨-, he⟩ := List.append_inj' hsplit rfl
      exact Or.inl (List.cons.inj he).1
    · rw [List.concat_eq_append, ← List.cons_append, ← List.append_assoc] at hsplit
      obtain ⟨hevents, he⟩ := List.append_inj' hsplit rfl
      rw [(List.cons.inj he).1]
      refine Or.inr ⟨⟨before, after, hevents, ?_⟩, ?_⟩
      · intro f hf
        exact hafter f (by simp [hf])
      · exact hafter e' (by simp)
  · rintro (rfl | ⟨⟨before, after, rfl, hafter⟩, hend⟩)
    · exact ⟨events, [], rfl, by simp⟩
    · refine ⟨before, after ++ [e], by simp, ?_⟩
      intro f hf
      rcases List.mem_append.mp hf with hf | hf
      · exact hafter f hf
      · rw [List.mem_singleton.mp hf]
        exact hend

theorem live_added {v w : W} {events : List (Event W)} :
    Live v (events ++ [.added w]) ↔ v = w ∨ Live v events := by
  rw [live_concat]
  simp [Ends, eq_comm]

theorem live_removed {v w : W} {events : List (Event W)} :
    Live v (events ++ [.removed w]) ↔ Live v events ∧ v ≠ w := by
  rw [live_concat]
  simp [Ends, eq_comm]

/-- What a loop over the writers `ws` records: writes to them, of which those to
`failed` failed. -/
structure Records (ws failed : List W) (evs : List (Event W)) : Prop where
  writes : ∀ e ∈ evs, ∃ w ∈ ws, ∃ ret, e = .wrote w ret
  failed : ∀ w, w ∈ failed ↔ ∃ ret < 0, .wrote w ret ∈ evs

theorem Records.live {ws failed : List W} {evs : List (Event W)} (h : Records ws failed evs)
    {w : W} {events : List (Event W)} :
    Live w (events ++ evs) ↔ Live w events ∧ w ∉ failed := by
  have hends : w ∉ failed ↔ ∀ e ∈ evs, ¬ Ends w e := by
    rw [h.failed, not_exists]
    constructor
    · rintro hno e he (rfl | ⟨ret, hret, rfl⟩)
      · obtain ⟨v, -, ret, hv⟩ := h.writes _ he
        cases hv
      · exact hno ret ⟨hret, he⟩
    · rintro hno ret ⟨hret, he⟩
      exact hno _ he (Or.inr ⟨ret, hret, rfl⟩)
  have hadded : ∀ e ∈ evs, e ≠ .added w := by
    rintro e he rfl
    obtain ⟨v, -, ret, hv⟩ := h.writes _ he
    cases hv
  rw [hends]
  clear h hends
  induction evs using List.reverseRecOn with
  | nil => simp
  | append_singleton evs e ih =>
    have hbefore : ∀ f ∈ evs, f ≠ .added w := fun f hf => hadded f (List.mem_append_left _ hf)
    have hne : e ≠ .added w := hadded e (by simp)
    have hlive : Live w (events ++ evs) ↔ Live w events ∧ ∀ f ∈ evs, ¬ Ends w f := ih hbefore
    rw [← List.append_assoc, live_concat, hlive]
    simp only [hne, false_or, List.mem_append, List.mem_singleton, or_imp, forall_and,
      forall_eq, and_assoc]

end Events

/-! ## Who stands in the map -/

section Streams

variable {W : Type} (key writerid : W → Bytes)

/-- The writer is in the `writer_map_` of the entry of `k`. -/
def Stands (w : W) (k : Bytes) (streams : Streams W) : Prop :=
  ∃ stream, streams k = some stream ∧ w ∈ stream.writerMap.map Prod.snd

/-- Somebody uses every stream, and every writer stands under its id and its key. -/
structure Sound (streams : Streams W) : Prop where
  used : ∀ k stream, streams k = some stream →
    stream.publisherExist = true ∨ stream.writerMap ≠ []
  entries : ∀ k stream, streams k = some stream →
    ∀ e ∈ stream.writerMap, e.1 = writerid e.2 ∧ key e.2 = k

variable {key writerid}

theorem stands_update {w : W} {k k' : Bytes} {stream : MediaStream W} {streams : Streams W} :
    Stands w k (Function.update streams k' (some stream)) ↔
      if k = k' then w ∈ stream.writerMap.map Prod.snd else Stands w k streams := by
  split_ifs with hk
  · subst hk
    simp [Stands]
  · simp [Stands, Function.update_of_ne hk]

theorem stands_erase {w : W} {k k' : Bytes} {streams : Streams W} :
    Stands w k (Function.update streams k' none) ↔ k ≠ k' ∧ Stands w k streams := by
  by_cases hk : k = k'
  · subst hk
    simp [Stands]
  · simp [Stands, hk]

theorem stands_getD {w : W} {k : Bytes} {streams : Streams W} :
    w ∈ ((streams k).getD {}).writerMap.map Prod.snd ↔ Stands w k streams := by
  rcases hk : streams k with _ | stream
  · simp [Stands, hk]
  · simp [Stands, hk]

theorem Sound.update {streams : Streams W} (h : Sound key writerid streams) {k : Bytes}
    {stream : MediaStream W} (hused : stream.publisherExist = true ∨ stream.writerMap ≠ [])
    (hentries : ∀ e ∈ stream.writerMap, e.1 = writerid e.2 ∧ key e.2 = k) :
    Sound key writerid (Function.update streams k (some stream)) := by
  have hcases : ∀ k' stream', Function.update streams k (some stream) k' = some stream' →
      (k' = k ∧ stream' = stream) ∨ streams k' = some stream' := by
    intro k' stream' hk'
    by_cases hk : k' = k
    · subst hk
      rw [Function.update_self, Option.some.injEq] at hk'
      exact Or.inl ⟨rfl, hk'.symm⟩
    · rw [Function.update_of_ne hk] at hk'
      exact Or.inr hk'
  constructor
  · intro k' stream' hk'
    rcases hcases k' stream' hk' with ⟨rfl, rfl⟩ | hold
    · exact hused
    · exact h.used k' stream' hold
  · intro k' stream' hk'
    rcases hcases k' stream' hk' with ⟨rfl, rfl⟩ | hold
    · exact hentries
    · exact h.entries k' stream' hold

theorem Sound.erase {streams : Streams W} (h : Sound key writerid streams) (k : Bytes) :
    Sound key writerid (Function.update streams k none) := by
  have hold : ∀ k' stream', Function.update streams k none k' = some stream' →
      streams k' = some stream' := by
    intro k' stream' hk'
    by_cases hk : k' = k
    · subst hk
      rw [Function.update_self] at hk'
      cases hk'
    · rw [Function.update_of_ne hk] at hk'
      exact hk'
  constructor
  · intro k' stream' hk'
    exact h.used k' stream' (hold k' stream' hk')
  · intro k' stream' hk'
    exact h.entries k' stream' (hold k' stream' hk')

theorem Sound.getD {streams : Streams W} (h : Sound key writerid streams) (k : Bytes) :
    ∀ e ∈ ((streams k).getD {}).writerMap, e.1 = writerid e.2 ∧ key e.2 = k := by
  rcases hk : streams k with _ | stream
  · simp
  · exact h.entries k stream hk

/-! ### Adding a player -/

theorem mem_insertWriter {v w : W} {stream : MediaStream W}
    (hentries : ∀ e ∈ stream.writerMap, e.1 = writerid e.2)
    (hid : Function.Injective writerid) :
    v ∈ (stream.insertWriter (writerid w) w).writerMap.map Prod.snd ↔
      v = w ∨ v ∈ stream.writerMap.map Prod.snd := by
  unfold MediaStream.insertWriter
  split_ifs with hany
  · obtain ⟨e, he, heq⟩ := List.any_eq_true.mp hany
    rw [decide_eq_true_eq, hentries e he] at heq
    have hmem : w ∈ stream.writerMap.map Prod.snd := List.mem_map.mpr ⟨e, he, hid heq⟩
    constructor
    · exact Or.inr
    · rintro (rfl | hv)
      · exact hmem
      · exact hv
  · rw [List.map_append, List.mem_append, List.map_singleton, List.mem_singleton]
    exact or_comm

theorem insertWriter_ne_nil (id : Bytes) (w : W) (stream : MediaStream W) :
    (stream.insertWriter id w).writerMap ≠ [] := by
  unfold MediaStream.insertWriter
  split_ifs with hany
  · obtain ⟨e, he, -⟩ := List.any_eq_true.mp hany
    exact List.ne_nil_of_mem he
  · simp

theorem Sound.insertWriter {streams : Streams W} (h : Sound key writerid streams) (w : W) :
    Sound key writerid (Function.update streams (key w)
      (some (((streams (key w)).getD {}).insertWriter (writerid w) w))) := by
  apply h.update
  · exact Or.inr (insertWriter_ne_nil _ _ _)
  · intro e he
    unfold MediaStream.insertWriter at he
    split_ifs at he
    · exact h.getD (key w) e he
    · rcases List.mem_append.mp he with he | he
      · exact h.getD (key w) e he
      · rw [List.mem_singleton.mp he]
        exact ⟨rfl, rfl⟩

theorem stands_insertWriter {streams : Streams W} (h : Sound key writerid streams)
    (hid : Function.Injective writerid) {v w : W} {k : Bytes} :
    Stands v k (Function.update streams (key w)
        (some (((streams (key w)).getD {}).insertWriter (writerid w) w))) ↔
      (v = w ∧ k = key w) ∨ Stands v k streams := by
  rw [stands_update, mem_insertWriter (fun e he => (h.getD (key w) e he).1) hid, stands_getD]
  split_ifs with hk
  · rw [hk]
    simp
  · simp [hk]

/-! ### Removing a player -/

theorem mem_eraseWriter {v w : W} {stream : MediaStream W}
    (hentries : ∀ e ∈ stream.writerMap, e.1 = writerid e.2)
    (hid : Function.Injective writerid) :
    v ∈ (stream.eraseWriter (writerid w)).writerMap.map Prod.snd ↔
      v ∈ stream.writerMap.map Prod.snd ∧ v ≠ w := by
  rw [MediaStream.eraseWriter, List.mem_map, List.mem_map]
  constructor
  · rintro ⟨e, he, rfl⟩
    obtain ⟨he, hne⟩ := List.mem_filter.mp he
    rw [decide_eq_true_eq, hentries e he] at hne
    exact ⟨⟨e, he, rfl⟩, fun heq => hne (by rw [heq])⟩
  · rintro ⟨⟨e, he, rfl⟩, hne⟩
    refine ⟨e, List.mem_filter.mpr ⟨he, ?_⟩, rfl⟩
    rw [decide_eq_true_eq, hentries e he]
    exact fun heq => hne (hid heq)

theorem Sound.erasePlayer {streams : Streams W} (h : Sound key writerid streams)
    (k id : Bytes) : Sound key writerid (MediaStreamManager.erasePlayer k id streams) := by
  rcases MediaStreamManager.erasePlayer_cases k id streams with
    ⟨-, heq⟩ | ⟨stream, hk, ⟨-, -, heq⟩ | ⟨hused, heq⟩⟩
  · rw [heq]
    exact h
  · rw [heq]
    exact h.erase k
  · rw [heq]
    apply h.update
    · exact hused.symm
    · intro e he
      exact h.entries k stream hk e (List.mem_filter.mp he).1

theorem stands_erasePlayer {streams : Streams W} (h : Sound key writerid streams)
    (hid : Function.Injective writerid) {v w : W} {k : Bytes} :
    Stands v k (MediaStreamManager.erasePlayer (key w) (writerid w) streams) ↔
      Stands v k streams ∧ v ≠ w := by
  by_cases hkey : k = key w
  · subst hkey
    rcases MediaStreamManager.erasePlayer_cases (key w) (writerid w) streams with
      ⟨hnone, heq⟩ | ⟨stream, hk, hcases⟩
    · rw [heq]
      simp [Stands, hnone]
    · have hmem := mem_eraseWriter (v := v) (w := w)
        (fun e he => (h.entries _ stream hk e he).1) hid
      have hbefore : Stands v (key w) streams ↔ v ∈ stream.writerMap.map Prod.snd := by
        simp [Stands, hk]
      rw [hbefore, ← hmem]
      rcases hcases with ⟨hempty, -, heq⟩ | ⟨-, heq⟩
      · rw [heq, stands_erase, hempty]
        simp
      · rw [heq, stands_update, if_pos rfl]
  · -- a writer under another key is another writer
    have hne : Stands v k streams → v ≠ w := by
      rintro ⟨stream, hk, hmem⟩ rfl
      obtain ⟨e, he, rfl⟩ := List.mem_map.mp hmem
      exact hkey (h.entries k stream hk e he).2.symm
    rw [and_iff_left_of_imp hne, Stands, Stands, MediaStreamManager.erasePlayer_of_ne hkey]

/-! ### The publisher -/

theorem Sound.withPublisher {streams : Streams W} (h : Sound key writerid streams) {k : Bytes}
    {stream : MediaStream W} (hpub : stream.publisherExist = true)
    (hmap : stream.writerMap = ((streams k).getD {}).writerMap) :
    Sound key writerid (Function.update streams k (some stream)) := by
  apply h.update
  · exact Or.inl hpub
  · rw [hmap]
    exact h.getD k

/-- A stream that keeps its `writer_map_`. -/
theorem stands_update_of_eq {streams : Streams W} {k k' : Bytes} {stream : MediaStream W} {w : W}
    (hmap : stream.writerMap = ((streams k').getD {}).writerMap) :
    Stands w k (Function.update streams k' (some stream)) ↔ Stands w k streams := by
  rw [stands_update, hmap, stands_getD]
  split_ifs with hk
  · rw [hk]
  · exact Iff.rfl

theorem Sound.removePublisher {streams : Streams W} (h : Sound key writerid streams)
    (k : Bytes) : Sound key writerid (MediaStreamManager.removePublisher k streams) := by
  rcases MediaStreamManager.removePublisher_cases k streams with
    ⟨-, heq⟩ | ⟨stream, hk, ⟨-, heq⟩ | ⟨hused, heq⟩⟩
  · rw [heq]
    exact h
  · rw [heq]
    exact h.erase k
  · rw [heq]
    apply h.update
    · exact Or.inr hused
    · exact h.entries k stream hk

theorem stands_removePublisher {streams : Streams W} {k k' : Bytes} {w : W} :
    Stands w k (MediaStreamManager.removePublisher k' streams) ↔ Stands w k streams := by
  rcases MediaStreamManager.removePublisher_cases k' streams with
    ⟨-, heq⟩ | ⟨stream, hk, ⟨hempty, heq⟩ | ⟨-, heq⟩⟩
  · rw [heq]
  · rw [heq, stands_erase]
    apply and_iff_right_of_imp
    rintro ⟨stream', hk', hmem⟩ rfl
    rw [hk, Option.some.injEq] at hk'
    rw [← hk', hempty] at hmem
    simp at hmem
  · rw [heq]
    apply stands_update_of_eq
    rw [hk]
    rfl

end Streams

/-! ## The record

Keeping it changes nothing: without the events the calls are those of the writers
themselves.
-/

section Traced

variable {σ W : Type} {ops : AvWriterBase σ W}

theorem traced_writeList (w : W) (pkts : List MediaPacket) (ret : Int)
    (st : σ × List (Event W)) :
    (GopCache.writeList (traced ops) w ret pkts st).map (fun r => (r.1, r.2.1)) =
      GopCache.writeList ops w ret pkts st.1 := by
  induction pkts generalizing ret st with
  | nil => rfl
  | cons pkt rest ih =>
    simp only [GopCache.writeList, traced]
    rcases ops.writePacket pkt w st.1 with e | ⟨ret₁, writers⟩
    · rfl
    · by_cases hret : ret₁ < 0
      · simp [Run.ok_bind, hret, Except.map, pure, Except.pure]
      · simp only [Run.ok_bind, pure, Except.pure, hret, if_false]
        exact ih ret₁ (writers, st.2 ++ [.wrote w ret₁])

theorem traced_offerPacket (cache : GopCache) (pkt : MediaPacket) (w : W)
    (st : σ × List (Event W)) :
    (MediaStreamManager.offerPacket (traced ops) cache pkt w st).map (fun r => (r.1, r.2.1)) =
      MediaStreamManager.offerPacket ops cache pkt w st.1 := by
  simp only [MediaStreamManager.offerPacket, traced]
  rcases ops.isInited w st.1 with e | inited
  · rfl
  · rcases inited with _ | _
    · rcases ops.setInitFlag true w st.1 with e | writers
      · simp [bind, Except.bind, Except.map]
      · simp only [Run.ok_bind, Bool.not_false, if_true]
        exact traced_writeList w cache.gop 0 (writers, st.2)
    · rcases ops.writePacket pkt w st.1 with e | ⟨ret, writers⟩
      · simp [bind, Except.bind, Except.map]
      · simp [Run.ok_bind, Except.map, pure, Except.pure]

theorem traced_offerAll (cache : GopCache) (pkt : MediaPacket) (ws : List W)
    (st : σ × List (Event W)) :
    (MediaStreamManager.offerAll (traced ops) cache pkt ws st).map (fun r => (r.1, r.2.1)) =
      MediaStreamManager.offerAll ops cache pkt ws st.1 := by
  induction ws generalizing st with
  | nil => rfl
  | cons w rest ih =>
    rw [MediaStreamManager.offerAll, MediaStreamManager.offerAll, ← traced_offerPacket]
    rcases MediaStreamManager.offerPacket (traced ops) cache pkt w st with e | ⟨ret, st₁⟩
    · rfl
    · show Except.map _ (MediaStreamManager.offerAll (traced ops) cache pkt rest st₁ >>= _) =
        (MediaStreamManager.offerAll ops cache pkt rest st₁.1 >>= _)
      rw [← ih]
      rcases MediaStreamManager.offerAll (traced ops) cache pkt rest st₁ with e | ⟨removed, st₂⟩
      · rfl
      · rfl

theorem traced_removePlayers (removeList : List W) (st : σ × List (Event W))
    (streams : Streams W) :
    MediaStreamManager.removePlayers (traced ops) removeList st streams =
      MediaStreamManager.removePlayers ops removeList st.1 streams := by
  induction removeList generalizing streams with
  | nil => rfl
  | cons w rest ih =>
    show (MediaStreamManager.removePlayer ops w st.1 streams >>= fun streams =>
      MediaStreamManager.removePlayers (traced ops) rest st streams) = _
    simp only [ih]
    rfl

theorem traced_writerMediaPacket (pkt : MediaPacket) (st : σ × List (Event W))
    (streams : Streams W) :
    (MediaStreamManager.writerMediaPacket (traced ops) pkt st streams).map
        (fun r => (r.1.1, r.2)) =
      MediaStreamManager.writerMediaPacket ops pkt st.1 streams := by
  rw [MediaStreamManager.writerMediaPacket_eq, MediaStreamManager.writerMediaPacket_eq]
  simp only [← traced_offerAll, traced_removePlayers]
  rcases MediaStreamManager.offerAll (traced ops) _ pkt _ st with e | ⟨removeList, st₁⟩
  · rfl
  · show Except.map _ (MediaStreamManager.removePlayers ops removeList st₁.1 _ >>= _) =
      (MediaStreamManager.removePlayers ops removeList st₁.1 _ >>= _)
    rcases MediaStreamManager.removePlayers ops removeList st₁.1 _ with e | streams₁
    · rfl
    · rfl

end Traced

/-! ## What the loops record -/

section Records

variable {W : Type}

theorem records_nil (ws : List W) : Records ws [] [] :=
  ⟨by simp, by simp⟩

theorem records_write (w : W) (ret : Int) :
    Records [w] (if ret < 0 then [w] else []) [.wrote w ret] := by
  constructor
  · intro e he
    rw [List.mem_singleton.mp he]
    exact ⟨w, by simp, ret, rfl⟩
  · intro v
    split_ifs with hret
    · constructor
      · intro hv
        rw [List.mem_singleton.mp hv]
        exact ⟨ret, hret, by simp⟩
      · rintro ⟨ret', -, he⟩
        rw [List.mem_singleton, Event.wrote.injEq] at he
        rw [he.1]
        exact List.mem_singleton_self w
    · constructor
      · intro hv
        cases hv
      · rintro ⟨ret', hret', he⟩
        rw [List.mem_singleton, Event.wrote.injEq] at he
        rw [he.2] at hret'
        exact absurd hret' hret

theorem Records.append {ws ws' failed failed' : List W} {evs evs' : List (Event W)}
    (h : Records ws failed evs) (h' : Records ws' failed' evs') :
    Records (ws ++ ws') (failed ++ failed') (evs ++ evs') := by
  constructor
  · intro e he
    rcases List.mem_append.mp he with he | he
    · obtain ⟨w, hw, ret, rfl⟩ := h.writes e he
      exact ⟨w, List.mem_append_left _ hw, ret, rfl⟩
    · obtain ⟨w, hw, ret, rfl⟩ := h'.writes e he
      exact ⟨w, List.mem_append_right _ hw, ret, rfl⟩
  · intro w
    simp only [List.mem_append, h.failed, h'.failed, and_or_left, exists_or]

/-- The same writer twice. -/
theorem Records.again {w : W} {failed : List W} {evs : List (Event W)}
    (h : Records ([w] ++ [w]) failed evs) : Records [w] failed evs := by
  refine ⟨?_, h.failed⟩
  intro e he
  obtain ⟨v, hv, ret, rfl⟩ := h.writes e he
  exact ⟨v, by simpa using hv, ret, rfl⟩

variable {σ : Type} {ops : AvWriterBase σ W}

/-- Writing stops at the first failure. -/
theorem writeList_records {w : W} {pkts : List MediaPacket} {ret ret' : Int}
    {st st' : σ × List (Event W)} (hret : 0 ≤ ret)
    (h : GopCache.writeList (traced ops) w ret pkts st = .ok (ret', st')) :
    ∃ evs, st'.2 = st.2 ++ evs ∧ Records [w] (if ret' < 0 then [w] else []) evs := by
  induction pkts generalizing ret st with
  | nil =>
    cases h
    rw [if_neg (by omega)]
    exact ⟨[], by simp, records_nil _⟩
  | cons pkt rest ih =>
    obtain ⟨⟨ret₁, st₁⟩, hfirst, h⟩ := Run.exists_of_bind_ok h
    obtain ⟨⟨r, writers⟩, -, hfirst⟩ := Run.exists_of_bind_ok hfirst
    cases hfirst
    have hwrite := records_write w ret₁
    replace h : (if ret₁ < 0 then .ok (ret₁, writers, st.2 ++ [.wrote w ret₁])
      else GopCache.writeList (traced ops) w ret₁ rest (writers, st.2 ++ [.wrote w ret₁])) =
        Except.ok (ret', st') := h
    by_cases hr : ret₁ < 0
    · rw [if_pos hr] at h
      cases h
      exact ⟨_, rfl, hwrite⟩
    · rw [if_neg hr] at h
      rw [if_neg hr] at hwrite
      obtain ⟨evs, heq, hevs⟩ := ih (Int.not_lt.mp hr) h
      refine ⟨[.wrote w ret₁] ++ evs, ?_, ?_⟩
      · rw [heq, List.append_assoc]
      · exact (hwrite.append hevs).again

theorem offerPacket_records {cache : GopCache} {pkt : MediaPacket} {w : W} {ret : Int}
    {st st' : σ × List (Event W)}
    (h : MediaStreamManager.offerPacket (traced ops) cache pkt w st = .ok (ret, st')) :
    ∃ evs, st'.2 = st.2 ++ evs ∧ Records [w] (if ret < 0 then [w] else []) evs := by
  obtain ⟨inited, -, h⟩ := Run.exists_of_bind_ok h
  rcases inited with _ | _
  · obtain ⟨st₁, hinit, h⟩ := Run.exists_of_bind_ok h
    obtain ⟨writers, -, hinit⟩ := Run.exists_of_bind_ok hinit
    cases hinit
    rw [GopCache.writerGop] at h
    have hrecords := writeList_records (Int.le_refl 0) h
    exact hrecords
  · obtain ⟨⟨r, writers⟩, -, h⟩ := Run.exists_of_bind_ok h
    cases h
    exact ⟨_, rfl, records_write w ret⟩

/-- The `remove_list` has the writers that failed. -/
theorem offerAll_records {cache : GopCache} {pkt : MediaPacket} {ws removeList : List W}
    {st st' : σ × List (Event W)}
    (h : MediaStreamManager.offerAll (traced ops) cache pkt ws st = .ok (removeList, st')) :
    ∃ evs, st'.2 = st.2 ++ evs ∧ Records ws removeList evs := by
  induction ws generalizing removeList st st' with
  | nil =>
    cases h
    exact ⟨[], by simp, records_nil _⟩
  | cons w rest ih =>
    obtain ⟨⟨ret, st₁⟩, hfirst, h⟩ := Run.exists_of_bind_ok h
    obtain ⟨evs, heq, hevs⟩ := offerPacket_records hfirst
    obtain ⟨⟨removed, st₂⟩, hrest, h⟩ := Run.exists_of_bind_ok h
    obtain ⟨evs', heq', hevs'⟩ := ih hrest
    have hlist : removeList = (if ret < 0 then [w] else []) ++ removed ∧ st' = st₂ := by
      cases h
      split_ifs <;> exact ⟨rfl, rfl⟩
    refine ⟨evs ++ evs', ?_, ?_⟩
    · rw [hlist.2, heq', heq, List.append_assoc]
    · rw [hlist.1]
      exact hevs.append hevs'

end Records

/-! ## Calls -/

section Calls

variable {σ W : Type} (ops : AvWriterBase σ W) (key writerid : W → Bytes)

/-- The key and the id of a writer are fixed, and the ids are unique. -/
structure Fixed : Prop where
  getKey : ∀ {w st k}, ops.getKey w st = .ok k → k = key w
  getWriterid : ∀ {w st id}, ops.getWriterid w st = .ok id → id = writerid w
  unique : Function.Injective writerid

/-- **Invariant.**  Somebody uses every stream, and the writers in the map are the live
ones, each under its key. -/
structure Kept (s : State σ W) : Prop where
  sound : Sound key writerid s.streams
  stands : ∀ w k, Stands w k s.streams ↔ k = key w ∧ Live w s.events

variable {ops key writerid}

theorem Fixed.traced (h : Fixed ops key writerid) : Fixed (traced ops) key writerid :=
  ⟨h.getKey, h.getWriterid, h.unique⟩

theorem Fixed.addPlayer (h : Fixed ops key writerid) {w : W} {st : σ} {streams t : Streams W}
    (hadd : MediaStreamManager.addPlayer ops w st streams = .ok t) :
    t = Function.update streams (key w)
      (some (((streams (key w)).getD {}).insertWriter (writerid w) w)) := by
  obtain ⟨k, hkey, hadd⟩ := Run.exists_of_bind_ok hadd
  obtain ⟨id, hid, hadd⟩ := Run.exists_of_bind_ok hadd
  cases h.getKey hkey
  cases h.getWriterid hid
  cases hadd
  rfl

theorem Fixed.removePlayer (h : Fixed ops key writerid) {w : W} {st : σ}
    {streams t : Streams W} (hremove : MediaStreamManager.removePlayer ops w st streams = .ok t) :
    t = MediaStreamManager.erasePlayer (key w) (writerid w) streams := by
  obtain ⟨k, hkey, hremove⟩ := Run.exists_of_bind_ok hremove
  obtain ⟨id, hid, hremove⟩ := Run.exists_of_bind_ok hremove
  cases h.getKey hkey
  cases h.getWriterid hid
  cases hremove
  rfl

theorem Fixed.removePlayers (h : Fixed ops key writerid) {removeList : List W} {st : σ}
    {streams t : Streams W} (hsound : Sound key writerid streams)
    (hremove : MediaStreamManager.removePlayers ops removeList st streams = .ok t) :
    Sound key writerid t ∧
      ∀ w k, Stands w k t ↔ Stands w k streams ∧ w ∉ removeList := by
  induction removeList generalizing streams with
  | nil =>
    cases hremove
    exact ⟨hsound, by simp⟩
  | cons v rest ih =>
    obtain ⟨streams₁, hfirst, hremove⟩ := Run.exists_of_bind_ok hremove
    rw [h.removePlayer hfirst] at hremove
    obtain ⟨hsound', hstands⟩ := ih (hsound.erasePlayer _ _) hremove
    refine ⟨hsound', ?_⟩
    intro w k
    rw [hstands, stands_erasePlayer hsound h.unique, and_assoc, List.mem_cons, not_or]

/-- **Step.**  A call keeps the invariant. -/
theorem Kept.call (hf : Fixed ops key writerid) {c : Call W} {s s' : State σ W}
    (h : Kept key writerid s) (hcall : call ops c s = .ok s') : Kept key writerid s' := by
  cases c with
  | addPlayer w =>
    obtain ⟨streams, hadd, hcall⟩ := Run.exists_of_bind_ok hcall
    cases hcall
    rw [hf.addPlayer hadd]
    refine ⟨h.sound.insertWriter w, ?_⟩
    intro v k
    rw [stands_insertWriter h.sound hf.unique, h.stands, live_added]
    constructor
    · rintro (⟨rfl, hk⟩ | ⟨hk, hlive⟩)
      · exact ⟨hk, Or.inl rfl⟩
      · exact ⟨hk, Or.inr hlive⟩
    · rintro ⟨hk, rfl | hlive⟩
      · exact Or.inl ⟨rfl, hk⟩
      · exact Or.inr ⟨hk, hlive⟩
  | removePlayer w =>
    obtain ⟨streams, hremove, hcall⟩ := Run.exists_of_bind_ok hcall
    cases hcall
    rw [hf.removePlayer hremove]
    refine ⟨h.sound.erasePlayer _ _, ?_⟩
    intro v k
    rw [stands_erasePlayer h.sound hf.unique, h.stands, live_removed, and_assoc]
  | addPublisher k' =>
    cases hcall
    refine ⟨h.sound.withPublisher rfl rfl, ?_⟩
    intro v k
    rw [← h.stands]
    exact stands_update_of_eq rfl
  | removePublisher k' =>
    cases hcall
    refine ⟨h.sound.removePublisher k', ?_⟩
    intro v k
    rw [← h.stands]
    exact stands_removePublisher
  | writerMediaPacket pkt =>
    obtain ⟨⟨st, streams⟩, hwrite, hcall⟩ := Run.exists_of_bind_ok hcall
    cases hcall
    rw [MediaStreamManager.writerMediaPacket_eq] at hwrite
    obtain ⟨⟨removeList, st₁⟩, hoffer, hwrite⟩ := Run.exists_of_bind_ok hwrite
    obtain ⟨streams₁, hremove, hwrite⟩ := Run.exists_of_bind_ok hwrite
    cases hwrite
    obtain ⟨evs, heq, hevs⟩ := offerAll_records hoffer
    have hfed : Sound key writerid (Function.update s.streams pkt.key
        (some (MediaStreamManager.fedStream pkt s.streams))) := h.sound.withPublisher rfl rfl
    obtain ⟨hsound, hstands⟩ := hf.traced.removePlayers hfed hremove
    refine ⟨hsound, ?_⟩
    intro v k
    have hsame : Stands v k (Function.update s.streams pkt.key
        (some (MediaStreamManager.fedStream pkt s.streams))) ↔ Stands v k s.streams :=
      stands_update_of_eq rfl
    show Stands v k streams ↔ k = key v ∧ Live v st.2
    rw [hstands, hsame, h.stands, heq, hevs.live, and_assoc]

theorem kept_start (writers : σ) : Kept key writerid ({ writers := writers } : State σ W) := by
  refine ⟨⟨by simp, by simp⟩, ?_⟩
  intro w k
  simp [Stands, not_live_nil]

/-- **The stream map.**  After any calls, whatever the writers do, every stream has a
publisher or a player, and a writer is in the entry of `k` exactly when `k` is its key
and it was added and has since neither been removed nor failed a write. -/
theorem stream_map_invariant (hf : Fixed ops key writerid) (writers : σ) (calls : List (Call W))
    {s : State σ W} (hrun : Run.run (StreamMap.call ops) calls { writers := writers } = .ok s) :
    (∀ k stream, s.streams k = some stream →
        stream.publisherExist = true ∨ stream.writerMap ≠ []) ∧
      ∀ w k, Stands w k s.streams ↔ k = key w ∧ Live w s.events := by
  have h : Kept key writerid s :=
    Run.run_preserves (fun _ _ _ h hcall => h.call hf hcall) (kept_start writers) hrun
  exact ⟨h.sound.used, h.stands⟩

/-- Two writers of one key.  A write to the first one fails. -/
def halfBroken : AvWriterBase Unit Bool where
  writePacket _ w _ := .ok (if w then -1 else 0, ())
  getKey _ _ := .ok (ascii "live/a")
  getWriterid w _ := .ok [if w then 1 else 0]
  isInited _ _ := .ok true
  setInitFlag _ _ _ := .ok ()

theorem fixed_halfBroken :
    Fixed halfBroken (fun _ => ascii "live/a") (fun w => [if w then 1 else 0]) := by
  refine ⟨?_, ?_, ?_⟩
  · rintro w st k ⟨⟩
    rfl
  · rintro w st id ⟨⟩
    rfl
  · intro v w h
    cases v <;> cases w <;> simp at h ⊢

/-- A packet is published, which one of the two players does not survive; the other one
leaves later, and the publisher keeps the stream. -/
theorem stream_map_invariant_two_players :
    ∃ s, Run.run (StreamMap.call halfBroken)
          [.addPlayer true, .addPlayer false, .writerMediaPacket { key := ascii "live/a" },
            .removePlayer false] { writers := () } = .ok s ∧
      ∀ w k, Stands w k s.streams ↔ k = ascii "live/a" ∧ Live w s.events := by
  refine ⟨_, rfl, ?_⟩
  exact (stream_map_invariant fixed_halfBroken () [.addPlayer true, .addPlayer false,
    .writerMediaPacket { key := ascii "live/a" }, .removePlayer false] rfl).2

end Calls

end StreamMap

end MediaServer
