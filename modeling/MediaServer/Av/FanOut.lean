import MediaServer.Lib.Run
import MediaServer.Av.GopContent
import MediaServer.Av.MediaStreamManager

/-!
# Fan-out of published packets

The stream manager, seen from one player.  `ports` is a class of writers that
have a fixed key and id and never fail; a writer keeps the packets written to
it and its init flag.

A packet published on a key reaches the writers registered on that key and no
other.  A writer that is not inited is sent the cache, which holds the packet
already, and every other writer is sent the packet (`share`).  `call_share` is
the step: what one call writes to a registered writer.  `fan_out` puts the
steps together, from the call that adds the writer on.  `cache_content` says what
the cache holds, in terms of the packets published on its key.
-/

namespace MediaServer

namespace FanOut

/-- The writers: what was written to each, and its init flag. -/
structure Ports (W : Type) where
  inited : W → Bool := fun _ => false
  out : W → List MediaPacket := fun _ => []

/-- The writers and the streams. -/
structure State (W : Type) where
  ports : Ports W := {}
  streams : Streams W := fun _ => none

/-- The calls on the manager. -/
inductive Call (W : Type) where
  | writerMediaPacket (pkt : MediaPacket)
  | addPlayer (w : W)
  | removePlayer (w : W)
  | removePublisher (key : Bytes)

section Machine

variable {W : Type} [DecidableEq W] (key writerid : W → Bytes)

/-- Writers with a fixed key and id whose `write_packet` always succeeds. -/
def ports : AvWriterBase (Ports W) W where
  writePacket pkt w st := .ok (0, { st with out := Function.update st.out w (st.out w ++ [pkt]) })
  getKey w _ := .ok (key w)
  getWriterid w _ := .ok (writerid w)
  isInited w st := .ok (st.inited w)
  setInitFlag flag w st := .ok { st with inited := Function.update st.inited w flag }

/-- One call on the manager. -/
def call : Call W → State W → Except Fault (State W)
  | .writerMediaPacket pkt, s => do
    let (st, streams) ←
      MediaStreamManager.writerMediaPacket (ports key writerid) pkt s.ports s.streams
    return { ports := st, streams := streams }
  | .addPlayer w, s => do
    let streams ← MediaStreamManager.addPlayer (ports key writerid) w s.ports s.streams
    return { s with streams := streams }
  | .removePlayer w, s => do
    let streams ← MediaStreamManager.removePlayer (ports key writerid) w s.ports s.streams
    return { s with streams := streams }
  | .removePublisher k, s =>
    .ok { s with streams := MediaStreamManager.removePublisher k s.streams }

end Machine

/-! ## Writing to the writers of a stream -/

section Ports

variable {W : Type} [DecidableEq W] {key writerid : W → Bytes}

/-- What a writer of a stream with cache `cache` is sent for `pkt`. -/
def share (cache : GopCache) (pkt : MediaPacket) (inited : Bool) : List MediaPacket :=
  if inited then [pkt] else cache.gop

/-- The writers after `pkts` were written to `w`. -/
def Ports.append (st : Ports W) (w : W) (pkts : List MediaPacket) : Ports W :=
  { st with out := Function.update st.out w (st.out w ++ pkts) }

theorem writeList_ports (w : W) (pkts : List MediaPacket) (st : Ports W) :
    GopCache.writeList (ports key writerid) w 0 pkts st = .ok (0, st.append w pkts) := by
  induction pkts generalizing st with
  | nil => simp [GopCache.writeList, Ports.append]
  | cons pkt rest ih =>
    show GopCache.writeList (ports key writerid) w 0 rest (st.append w [pkt]) = _
    rw [ih]
    simp [Ports.append]

/-- The writers after `pkt` was offered to `w`. -/
def Ports.offer (cache : GopCache) (pkt : MediaPacket) (st : Ports W) (w : W) : Ports W where
  inited := Function.update st.inited w true
  out := Function.update st.out w (st.out w ++ share cache pkt (st.inited w))

theorem offerPacket_ports (cache : GopCache) (pkt : MediaPacket) (w : W) (st : Ports W) :
    MediaStreamManager.offerPacket (ports key writerid) cache pkt w st =
      .ok (0, st.offer cache pkt w) := by
  show (if !st.inited w then _ else _) = _
  by_cases hw : st.inited w
  · have hflag : Function.update st.inited w true = st.inited := by
      rw [← hw, Function.update_eq_self]
    simp [hw, Ports.offer, share, hflag, ports]
  · simp only [hw, Bool.not_false, if_true]
    show cache.writerGop (ports key writerid) w
      { st with inited := Function.update st.inited w true } = _
    rw [GopCache.writerGop, writeList_ports]
    simp [Ports.append, Ports.offer, share, hw]

theorem offerAll_ports (cache : GopCache) (pkt : MediaPacket) (ws : List W) (st : Ports W) :
    MediaStreamManager.offerAll (ports key writerid) cache pkt ws st =
      .ok ([], ws.foldl (Ports.offer cache pkt) st) := by
  induction ws generalizing st with
  | nil => rfl
  | cons w rest ih =>
    rw [MediaStreamManager.offerAll, offerPacket_ports]
    show (do
      let (removeList, st) ←
        MediaStreamManager.offerAll (ports key writerid) cache pkt rest (st.offer cache pkt w)
      return (if (0 : Int) < 0 then w :: removeList else removeList, st)) = _
    rw [ih]
    rfl

/-- Each writer of a stream is offered a packet once. -/
theorem foldl_offer (cache : GopCache) (pkt : MediaPacket) {ws : List W} (hnd : ws.Nodup)
    (st : Ports W) (w : W) :
    (ws.foldl (Ports.offer cache pkt) st).out w =
        (if w ∈ ws then st.out w ++ share cache pkt (st.inited w) else st.out w) ∧
      (ws.foldl (Ports.offer cache pkt) st).inited w = (decide (w ∈ ws) || st.inited w) := by
  induction ws generalizing st with
  | nil => simp
  | cons v rest ih =>
    rw [List.nodup_cons] at hnd
    obtain ⟨hout, hinit⟩ := ih hnd.2 (st.offer cache pkt v)
    rw [List.foldl_cons, hout, hinit]
    by_cases hv : w = v
    · subst hv
      simp [hnd.1, Ports.offer]
    · simp [hv, Ports.offer]

end Ports

/-! ## Published packets -/

section Published

variable {W : Type}

/-- The packets that the calls publish on `k`, in order. -/
def published (k : Bytes) (calls : List (Call W)) : List MediaPacket :=
  calls.filterMap fun
    | .writerMediaPacket pkt => if pkt.key = k then some pkt else none
    | _ => none

theorem published_append (k : Bytes) (as bs : List (Call W)) :
    published k (as ++ bs) = published k as ++ published k bs := by
  simp [published]

theorem published_cons_packet (k : Bytes) (pkt : MediaPacket) (rest : List (Call W)) :
    published k (.writerMediaPacket pkt :: rest) =
      (if pkt.key = k then [pkt] else []) ++ published k rest := by
  by_cases hk : pkt.key = k
  · simp [published, hk]
  · simp [published, hk]

theorem key_of_mem_published {k : Bytes} {calls : List (Call W)} {pkt : MediaPacket}
    (h : pkt ∈ published k calls) : pkt.key = k := by
  obtain ⟨c, -, hc⟩ := List.mem_filterMap.mp h
  rcases c with pkt' | v | v | k'
  · simp only [Option.ite_none_right_eq_some, Option.some.injEq] at hc
    rw [← hc.2, hc.1]
  all_goals cases hc

/-- Calls that publish on `k` have a first one. -/
theorem exists_first_packet {k : Bytes} {calls : List (Call W)} (h : published k calls ≠ []) :
    ∃ before first after, calls = before ++ .writerMediaPacket first :: after ∧
      published k before = [] ∧ first.key = k := by
  induction calls with
  | nil => exact absurd rfl h
  | cons c rest ih =>
    by_cases hc : ∃ pkt, c = .writerMediaPacket pkt ∧ pkt.key = k
    · obtain ⟨pkt, rfl, hkey⟩ := hc
      exact ⟨[], pkt, rest, rfl, rfl, hkey⟩
    · have hskip : ∀ cs, published k (c :: cs) = published k cs := by
        intro cs
        rcases c with pkt | v | v | k'
        · have hkey : pkt.key ≠ k := fun hkey => hc ⟨pkt, rfl, hkey⟩
          rw [published_cons_packet, if_neg hkey, List.nil_append]
        all_goals rfl
      rw [hskip] at h
      obtain ⟨before, first, after, hsplit, hbefore, hkey⟩ := ih h
      exact ⟨c :: before, first, after, by rw [hsplit]; rfl, by rw [hskip, hbefore], hkey⟩

end Published

/-! ## The invariant of the map -/

section Invariant

variable {W : Type} (key writerid : W → Bytes)

/-- What holds of the stream under key `k`: its writers have that key, each
stands there once under its id, and the cache holds packets of that key. -/
structure TidyAt (k : Bytes) (stream : MediaStream W) : Prop where
  entries : ∀ e ∈ stream.writerMap, e.1 = writerid e.2 ∧ key e.2 = k
  nodup : (stream.writerMap.map Prod.snd).Nodup
  cached : ∀ p ∈ stream.cache.gop, p.key = k

/-- All streams are tidy. -/
def Tidy (s : State W) : Prop :=
  ∀ k stream, s.streams k = some stream → TidyAt key writerid k stream

/-- The writer stands in the map of the stream under its key. -/
def Registered (w : W) (s : State W) : Prop :=
  ∃ stream, s.streams (key w) = some stream ∧ w ∈ stream.writerMap.map Prod.snd

variable {key writerid}

theorem tidy_start : Tidy key writerid ({} : State W) := by
  intro k stream hk
  cases hk

theorem tidyAt_empty (k : Bytes) : TidyAt key writerid k ({} : MediaStream W) :=
  ⟨by simp, by simp, by simp [GopCache.mem_gop]⟩

theorem Tidy.getD {s : State W} (h : Tidy key writerid s) (k : Bytes) :
    TidyAt key writerid k ((s.streams k).getD {}) := by
  rcases hk : s.streams k with _ | stream
  · exact tidyAt_empty k
  · exact h k stream hk

theorem Tidy.update {s : State W} (h : Tidy key writerid s) {k : Bytes}
    {stream : MediaStream W} (hstream : TidyAt key writerid k stream) (ports : Ports W) :
    Tidy key writerid ⟨ports, Function.update s.streams k (some stream)⟩ := by
  intro k' stream' hk'
  replace hk' : Function.update s.streams k (some stream) k' = some stream' := hk'
  by_cases heq : k' = k
  · subst heq
    rw [Function.update_self, Option.some.injEq] at hk'
    exact hk' ▸ hstream
  · rw [Function.update_of_ne heq] at hk'
    exact h k' stream' hk'

theorem Tidy.erase {s : State W} (h : Tidy key writerid s) (k : Bytes) :
    Tidy key writerid { s with streams := Function.update s.streams k none } := by
  intro k' stream' hk'
  replace hk' : Function.update s.streams k none k' = some stream' := hk'
  by_cases heq : k' = k
  · subst heq
    rw [Function.update_self] at hk'
    cases hk'
  · rw [Function.update_of_ne heq] at hk'
    exact h k' stream' hk'

theorem TidyAt.insertWriter {w : W} {stream : MediaStream W}
    (h : TidyAt key writerid (key w) stream) :
    TidyAt key writerid (key w) (stream.insertWriter (writerid w) w) := by
  unfold MediaStream.insertWriter
  split_ifs with hany
  · exact h
  · refine ⟨?_, ?_, h.cached⟩
    · intro e he
      rw [List.mem_append, List.mem_singleton] at he
      rcases he with he | rfl
      · exact h.entries e he
      · exact ⟨rfl, rfl⟩
    · have hnot : w ∉ stream.writerMap.map Prod.snd := by
        intro hmem
        obtain ⟨e, he, hw⟩ := List.mem_map.mp hmem
        apply hany
        rw [List.any_eq_true]
        exact ⟨e, he, by rw [decide_eq_true_eq, (h.entries e he).1, hw]⟩
      rw [List.map_append, List.nodup_append]
      refine ⟨h.nodup, by simp, ?_⟩
      intro a ha b hb hab
      rw [List.map_singleton, List.mem_singleton] at hb
      rw [hab, hb] at ha
      exact hnot ha

theorem TidyAt.eraseWriter {k : Bytes} {stream : MediaStream W}
    (h : TidyAt key writerid k stream) (id : Bytes) :
    TidyAt key writerid k (stream.eraseWriter id) where
  entries e he := h.entries e (List.mem_filter.mp he).1
  nodup := h.nodup.sublist (List.filter_sublist.map Prod.snd)
  cached := h.cached

theorem TidyAt.fedStream {pkt : MediaPacket} {s : State W} (h : Tidy key writerid s) :
    TidyAt key writerid pkt.key (MediaStreamManager.fedStream pkt s.streams) where
  entries := (h.getD pkt.key).entries
  nodup := (h.getD pkt.key).nodup
  cached := GopCache.forall_insertPacket (h.getD pkt.key).cached rfl

/-- A change under one key leaves the writers of the other keys registered, and
one that keeps the entry of the writer does so under its own. -/
theorem registered_update {w : W} {ports : Ports W} {streams : Streams W} {k : Bytes}
    {stream stream' : MediaStream W} (hstream : streams (key w) = some stream)
    (hmem : w ∈ stream.writerMap.map Prod.snd)
    (hkeep : k = key w → w ∈ stream'.writerMap.map Prod.snd) :
    Registered key w ⟨ports, Function.update streams k (some stream')⟩ := by
  by_cases hk : key w = k
  · exact ⟨stream', by rw [hk]; exact Function.update_self .., hkeep hk.symm⟩
  · exact ⟨stream, by rw [← hstream]; exact Function.update_of_ne hk .., hmem⟩

theorem registered_erase {w : W} {ports : Ports W} {streams : Streams W} {k : Bytes}
    {stream : MediaStream W} (hstream : streams (key w) = some stream)
    (hmem : w ∈ stream.writerMap.map Prod.snd) (hk : k ≠ key w) :
    Registered key w ⟨ports, Function.update streams k none⟩ :=
  ⟨stream, by rw [← hstream]; exact Function.update_of_ne (Ne.symm hk) .., hmem⟩

theorem mem_insertWriter {w v : W} {id : Bytes} {stream : MediaStream W}
    (h : w ∈ stream.writerMap.map Prod.snd) :
    w ∈ (stream.insertWriter id v).writerMap.map Prod.snd := by
  unfold MediaStream.insertWriter
  split
  · exact h
  · rw [List.map_append, List.mem_append]
    exact Or.inl h

theorem mem_eraseWriter {w v : W} {k : Bytes} {stream : MediaStream W}
    (ht : TidyAt key writerid k stream) (hid : Function.Injective writerid) (hne : v ≠ w)
    (h : w ∈ stream.writerMap.map Prod.snd) :
    w ∈ (stream.eraseWriter (writerid v)).writerMap.map Prod.snd := by
  obtain ⟨e, he, rfl⟩ := List.mem_map.mp h
  refine List.mem_map.mpr ⟨e, List.mem_filter.mpr ⟨he, ?_⟩, rfl⟩
  rw [decide_eq_true_eq, (ht.entries e he).1]
  exact fun heq => hne (hid heq).symm

/-- A writer stays when another one is removed. -/
theorem registered_erasePlayer (hid : Function.Injective writerid) {v w : W} {s : State W}
    (ht : Tidy key writerid s) (hw : Registered key w s) (hne : v ≠ w) :
    Registered key w { s with
      streams := MediaStreamManager.erasePlayer (key v) (writerid v) s.streams } := by
  obtain ⟨stream, hstream, hmem⟩ := hw
  have hin := mem_eraseWriter (ht _ _ hstream) hid hne hmem
  rcases MediaStreamManager.erasePlayer_cases (key v) (writerid v) s.streams with
    ⟨-, heq⟩ | ⟨stream', hk, ⟨hempty, -, heq⟩ | ⟨-, heq⟩⟩
  · rw [heq]
    exact ⟨stream, hstream, hmem⟩
  · rw [heq]
    refine registered_erase hstream hmem ?_
    intro hkey
    rw [hkey, hstream, Option.some.injEq] at hk
    rw [hk, hempty] at hin
    exact absurd hin (by simp)
  · rw [heq]
    refine registered_update hstream hmem fun hkey => ?_
    rw [hkey, hstream, Option.some.injEq] at hk
    rw [← hk]
    exact hin

/-- A writer stays when a publisher goes. -/
theorem registered_removePublisher {w : W} {s : State W} (hw : Registered key w s) (k : Bytes) :
    Registered key w { s with streams := MediaStreamManager.removePublisher k s.streams } := by
  obtain ⟨stream, hstream, hmem⟩ := hw
  rcases MediaStreamManager.removePublisher_cases k s.streams with
    ⟨-, heq⟩ | ⟨stream', hk, ⟨hempty, heq⟩ | ⟨-, heq⟩⟩
  · rw [heq]
    exact ⟨stream, hstream, hmem⟩
  · rw [heq]
    refine registered_erase hstream hmem ?_
    intro hkey
    rw [hkey, hstream, Option.some.injEq] at hk
    rw [hk, hempty] at hmem
    exact absurd hmem (by simp)
  · rw [heq]
    refine registered_update hstream hmem fun hkey => ?_
    rw [hkey, hstream, Option.some.injEq] at hk
    rw [← hk]
    exact hmem

/-! ## One call -/

variable [DecidableEq W]

/-- What a packet does to the manager with these writers. -/
theorem call_packet (pkt : MediaPacket) (s : State W) :
    call key writerid (.writerMediaPacket pkt) s = .ok
      { ports := ((MediaStreamManager.fedStream pkt s.streams).writerMap.map Prod.snd).foldl
          (Ports.offer (MediaStreamManager.fedStream pkt s.streams).cache pkt) s.ports
        streams := Function.update s.streams pkt.key
          (some (MediaStreamManager.fedStream pkt s.streams)) } := by
  rw [call, MediaStreamManager.writerMediaPacket_eq]
  simp only [offerAll_ports]
  rfl

/-- No call fails, and every call keeps the map tidy. -/
theorem call_tidy {s : State W} (h : Tidy key writerid s) (c : Call W) :
    ∃ s', call key writerid c s = .ok s' ∧ Tidy key writerid s' := by
  rcases c with pkt | w | w | k
  · exact ⟨_, call_packet pkt s, h.update (TidyAt.fedStream h) _⟩
  · exact ⟨_, rfl, h.update (h.getD (key w)).insertWriter _⟩
  · refine ⟨_, rfl, ?_⟩
    rcases MediaStreamManager.erasePlayer_cases (key w) (writerid w) s.streams with
      ⟨-, heq⟩ | ⟨stream, hk, ⟨-, -, heq⟩ | ⟨-, heq⟩⟩
    · rw [heq]
      exact h
    · rw [heq]
      exact h.erase _
    · rw [heq]
      exact h.update ((h _ _ hk).eraseWriter _) _
  · refine ⟨_, rfl, ?_⟩
    rcases MediaStreamManager.removePublisher_cases k s.streams with
      ⟨-, heq⟩ | ⟨stream, hk, ⟨-, heq⟩ | ⟨-, heq⟩⟩
    · rw [heq]
      exact h
    · rw [heq]
      exact h.erase _
    · have ht := h _ _ hk
      have hleft : TidyAt key writerid k { stream with publisherExist := false } :=
        ⟨ht.entries, ht.nodup, ht.cached⟩
      rw [heq]
      exact h.update hleft _

/-- A call that has been made has kept the map tidy. -/
theorem tidy_of_call {s s' : State W} (h : Tidy key writerid s) {c : Call W}
    (hcall : call key writerid c s = .ok s') : Tidy key writerid s' := by
  obtain ⟨t, hcall', ht⟩ := call_tidy h c
  rw [hcall, Except.ok.injEq] at hcall'
  rw [hcall']
  exact ht

/-- What a call writes to a writer that is registered. -/
def written (key : W → Bytes) (w : W) (s : State W) : Call W → List MediaPacket
  | .writerMediaPacket pkt =>
    if pkt.key = key w then
      share (MediaStreamManager.fedStream pkt s.streams).cache pkt (s.ports.inited w)
    else []
  | _ => []

/-- The call publishes a packet on `k`. -/
def publishes (k : Bytes) : Call W → Bool
  | .writerMediaPacket pkt => pkt.key = k
  | _ => false

/-- **Step.**  A writer that is registered stays so until it is removed, and is
sent its share of each packet of its key and nothing else. -/
theorem call_share (hid : Function.Injective writerid) {w : W} {s s' : State W}
    (ht : Tidy key writerid s) (hw : Registered key w s) {c : Call W}
    (hc : c ≠ .removePlayer w) (hcall : call key writerid c s = .ok s') :
    Registered key w s' ∧ s'.ports.out w = s.ports.out w ++ written key w s c ∧
      s'.ports.inited w = (publishes (key w) c || s.ports.inited w) := by
  have hreg := hw
  obtain ⟨stream, hstream, hmem⟩ := hreg
  -- the calls other than a packet do not touch the writers
  have hquiet : ∀ {c : Call W} {s' : State W}, s'.ports = s.ports → written key w s c = [] →
      publishes (key w) c = false →
      s'.ports.out w = s.ports.out w ++ written key w s c ∧
        s'.ports.inited w = (publishes (key w) c || s.ports.inited w) := by
    intro c s' hports hnone hpub
    rw [hports, hnone, hpub, List.append_nil, Bool.false_or]
    exact ⟨rfl, rfl⟩
  rcases c with pkt | v | v | k
  · rw [call_packet, Except.ok.injEq] at hcall
    subst hcall
    obtain ⟨hout, hinit⟩ := foldl_offer (MediaStreamManager.fedStream pkt s.streams).cache pkt
      (TidyAt.fedStream ht).nodup s.ports w
    have hiff : w ∈ (MediaStreamManager.fedStream pkt s.streams).writerMap.map Prod.snd ↔
        pkt.key = key w := by
      constructor
      · intro hin
        obtain ⟨e, he, rfl⟩ := List.mem_map.mp hin
        exact ((TidyAt.fedStream ht).entries e he).2.symm
      · intro hkey
        rw [MediaStreamManager.fedStream, hkey, hstream]
        exact hmem
    refine ⟨registered_update hstream hmem fun hkey => hiff.mpr hkey, ?_, ?_⟩
    · rw [hout]
      by_cases hkey : pkt.key = key w
      · rw [if_pos (hiff.mpr hkey), written, if_pos hkey]
      · rw [if_neg (fun hin => hkey (hiff.mp hin)), written, if_neg hkey, List.append_nil]
    · rw [hinit]
      simp only [hiff, publishes]
  · cases hcall
    refine ⟨registered_update hstream hmem fun hkey => ?_, hquiet rfl rfl rfl⟩
    rw [hkey, hstream]
    exact mem_insertWriter hmem
  · cases hcall
    have hne : v ≠ w := fun heq => hc (by rw [heq])
    exact ⟨registered_erasePlayer hid ht hw hne, hquiet rfl rfl rfl⟩
  · cases hcall
    exact ⟨registered_removePublisher hw k, hquiet rfl rfl rfl⟩

/-- What a call leaves in the cache of a stream. -/
theorem cache_of_call {s s' : State W} {c : Call W} (hcall : call key writerid c s = .ok s')
    {k : Bytes} {stream : MediaStream W} (hk : s'.streams k = some stream) :
    stream.cache = GopCache.insertAll (published k [c]) ((s.streams k).getD {}).cache := by
  have hsame : s.streams k = some stream → stream.cache = ((s.streams k).getD {}).cache := by
    intro h
    rw [h]
    rfl
  have hupdate : ∀ (k' : Bytes) (o : Option (MediaStream W)),
      Function.update s.streams k' o k = some stream →
      (∀ stream' ∈ o, stream'.cache = ((s.streams k').getD {}).cache) →
      stream.cache = ((s.streams k).getD {}).cache := by
    intro k' o h ho
    by_cases heq : k = k'
    · subst heq
      rw [Function.update_self] at h
      exact ho stream h
    · rw [Function.update_of_ne heq] at h
      exact hsame h
  rcases c with pkt | v | v | k'
  · rw [call_packet, Except.ok.injEq] at hcall
    subst hcall
    replace hk : Function.update s.streams pkt.key
      (some (MediaStreamManager.fedStream pkt s.streams)) k = some stream := hk
    rw [published_cons_packet]
    by_cases heq : k = pkt.key
    · subst heq
      rw [Function.update_self, Option.some.injEq] at hk
      rw [← hk, if_pos rfl]
      rfl
    · rw [Function.update_of_ne heq] at hk
      rw [if_neg (Ne.symm heq)]
      exact hsame hk
  · cases hcall
    refine hupdate (key v) _ hk fun stream' h => ?_
    rw [← Option.some.inj h, MediaStream.insertWriter]
    split_ifs
    · rfl
    · rfl
  · cases hcall
    rcases MediaStreamManager.erasePlayer_cases (key v) (writerid v) s.streams with
      ⟨-, heq⟩ | ⟨stream', hk', ⟨-, -, heq⟩ | ⟨-, heq⟩⟩
    · exact hsame (heq ▸ hk)
    · exact hupdate (key v) none (heq ▸ hk) fun _ h => by cases h
    · refine hupdate (key v) _ (heq ▸ hk) fun stream'' h => ?_
      rw [← Option.some.inj h, hk']
      rfl
  · cases hcall
    rcases MediaStreamManager.removePublisher_cases k' s.streams with
      ⟨-, heq⟩ | ⟨stream', hk', ⟨-, heq⟩ | ⟨-, heq⟩⟩
    · exact hsame (heq ▸ hk)
    · exact hupdate k' none (heq ▸ hk) fun _ h => by cases h
    · refine hupdate k' _ (heq ▸ hk) fun stream'' h => ?_
      rw [← Option.some.inj h, hk']
      rfl

/-! ## Runs -/

/-- No run fails, and every run keeps the map tidy. -/
theorem run_tidy {s : State W} (h : Tidy key writerid s) (calls : List (Call W)) :
    ∃ s', Run.run (call key writerid) calls s = .ok s' ∧ Tidy key writerid s' := by
  induction calls generalizing s with
  | nil => exact ⟨s, rfl, h⟩
  | cons c rest ih =>
    obtain ⟨s₁, hcall, h₁⟩ := call_tidy h c
    obtain ⟨s', hrun, h'⟩ := ih h₁
    exact ⟨s', by rw [Run.run_cons hcall, hrun], h'⟩

theorem tidy_of_run {s s' : State W} (h : Tidy key writerid s) {calls : List (Call W)}
    (hrun : Run.run (call key writerid) calls s = .ok s') : Tidy key writerid s' := by
  obtain ⟨t, hrun', ht⟩ := run_tidy h calls
  rw [hrun, Except.ok.injEq] at hrun'
  rw [hrun']
  exact ht

/-- **Run.**  Calls that publish nothing on the key of a registered writer write
nothing to it. -/
theorem run_quiet (hid : Function.Injective writerid) {w : W} {calls : List (Call W)}
    {s s' : State W} (ht : Tidy key writerid s) (hw : Registered key w s)
    (hcalls : Call.removePlayer w ∉ calls) (hnone : published (key w) calls = [])
    (hrun : Run.run (call key writerid) calls s = .ok s') :
    Registered key w s' ∧ s'.ports.out w = s.ports.out w ∧
      s'.ports.inited w = s.ports.inited w := by
  induction calls generalizing s with
  | nil =>
    cases hrun
    exact ⟨hw, rfl, rfl⟩
  | cons c rest ih =>
    rw [List.mem_cons, not_or] at hcalls
    obtain ⟨s₁, hcall, hrest⟩ := Run.exists_of_run_cons hrun
    have ht₁ := tidy_of_call ht hcall
    obtain ⟨hw₁, hout, hinit⟩ := call_share hid ht hw (Ne.symm hcalls.1) hcall
    have hquiet : written key w s c = [] ∧ publishes (key w) c = false ∧
        published (key w) rest = [] := by
      rcases c with pkt | v | v | k
      · by_cases hkey : pkt.key = key w
        · simp [published, hkey] at hnone
        · have hrest : published (key w) rest = [] := by simpa [published, hkey] using hnone
          simp [written, publishes, hkey, hrest]
      all_goals exact ⟨rfl, rfl, by simpa [published] using hnone⟩
    obtain ⟨hw', hout', hinit'⟩ := ih ht₁ hw₁ hcalls.2 hquiet.2.2 hrest
    rw [hout', hout, hinit', hinit, hquiet.1, hquiet.2.1, List.append_nil, Bool.false_or]
    exact ⟨hw', rfl, rfl⟩

/-- **Run.**  A registered writer that is inited is sent every packet of its key,
once and in order. -/
theorem run_inited (hid : Function.Injective writerid) {w : W} {calls : List (Call W)}
    {s s' : State W} (ht : Tidy key writerid s) (hw : Registered key w s)
    (hinited : s.ports.inited w = true) (hcalls : Call.removePlayer w ∉ calls)
    (hrun : Run.run (call key writerid) calls s = .ok s') :
    s'.ports.out w = s.ports.out w ++ published (key w) calls := by
  induction calls generalizing s with
  | nil =>
    cases hrun
    simp [published]
  | cons c rest ih =>
    rw [List.mem_cons, not_or] at hcalls
    obtain ⟨s₁, hcall, hrest⟩ := Run.exists_of_run_cons hrun
    have ht₁ := tidy_of_call ht hcall
    obtain ⟨hw₁, hout, hinit⟩ := call_share hid ht hw (Ne.symm hcalls.1) hcall
    have hone : written key w s c ++ published (key w) rest = published (key w) (c :: rest) := by
      rcases c with pkt | v | v | k
      · by_cases hkey : pkt.key = key w
        · simp [written, published, share, hkey, hinited]
        · simp [written, published, hkey]
      all_goals rfl
    rw [ih ht₁ hw₁ (by rw [hinit, hinited, Bool.or_true]) hcalls.2 hrest, hout,
      List.append_assoc, hone]

/-- **Run.**  What a writer that is not inited is sent from the first packet of
its key on: the cache as it stands after that packet, then all that follows. -/
theorem run_first (hid : Function.Injective writerid) {w : W} {before after : List (Call W)}
    {first : MediaPacket} {s s' : State W} (ht : Tidy key writerid s) (hw : Registered key w s)
    (hfresh : s.ports.inited w = false)
    (hcalls : Call.removePlayer w ∉ before ++ .writerMediaPacket first :: after)
    (hnone : published (key w) before = []) (hkey : first.key = key w)
    (hrun : Run.run (call key writerid) (before ++ .writerMediaPacket first :: after) s = .ok s') :
    ∃ s₁ stream,
      Run.run (call key writerid) (before ++ [.writerMediaPacket first]) s = .ok s₁ ∧
      s₁.streams (key w) = some stream ∧
      s'.ports.out w = s.ports.out w ++ (stream.cache.headers ++ stream.cache.packetList ++
        published (key w) after) ∧ ∀ pkt ∈ stream.cache.gop, pkt.key = key w := by
  rw [List.mem_append, List.mem_cons, not_or, not_or] at hcalls
  obtain ⟨s₁, hbefore, hrest⟩ := Run.exists_of_run_append hrun
  obtain ⟨s₂, hpkt, hafter⟩ := Run.exists_of_run_cons hrest
  have ht₁ := tidy_of_run ht hbefore
  obtain ⟨hw₁, hout₁, hinit₁⟩ := run_quiet hid ht hw hcalls.1 hnone hbefore
  obtain ⟨hw₂, hout₂, hinit₂⟩ := call_share hid ht₁ hw₁ (by simp) hpkt
  have ht₂ := tidy_of_call ht₁ hpkt
  have hinited : s₂.ports.inited w = true := by
    rw [hinit₂]
    simp [publishes, hkey]
  have hout := run_inited hid ht₂ hw₂ hinited hcalls.2.2 hafter
  have hstream : s₂.streams (key w) = some (MediaStreamManager.fedStream first s₁.streams) := by
    rw [call_packet, Except.ok.injEq] at hpkt
    rw [← hpkt, ← hkey]
    exact Function.update_self ..
  refine ⟨s₂, _, ?_, hstream, ?_, (ht₂ _ _ hstream).cached⟩
  · rw [Run.run_append hbefore, Run.run_cons hpkt]
    rfl
  · rw [hout, hout₂, hout₁, written, if_pos hkey, hinit₁, hfresh, share, if_neg (by simp),
      GopCache.gop]
    simp only [List.append_assoc]

/-- The call that adds a writer registers it. -/
theorem registered_addPlayer (hid : Function.Injective writerid) {w : W} {s s₁ : State W}
    (ht : Tidy key writerid s) (hcall : call key writerid (.addPlayer w) s = .ok s₁) :
    Registered key w s₁ ∧ s₁.ports = s.ports := by
  cases hcall
  refine ⟨⟨_, Function.update_self .., ?_⟩, rfl⟩
  show w ∈ ((((s.streams (key w)).getD {}).insertWriter (writerid w) w).writerMap.map Prod.snd)
  unfold MediaStream.insertWriter
  split_ifs with hany
  · obtain ⟨e, he, heq⟩ := List.any_eq_true.mp hany
    rw [decide_eq_true_eq, ((ht.getD (key w)).entries e he).1] at heq
    exact List.mem_map.mpr ⟨e, he, hid heq⟩
  · simp

/-- The packets in the cache of a stream are those published on its key since the stream was
made, in what the cache keeps of them. -/
theorem cache_of_run {calls : List (Call W)} {s : State W}
    (hrun : Run.run (call key writerid) calls {} = .ok s) {k : Bytes} {stream : MediaStream W}
    (hk : s.streams k = some stream) :
    ∃ pkts, pkts <:+ published k calls ∧ stream.cache = GopCache.insertAll pkts {} := by
  induction calls using List.reverseRecOn generalizing s stream with
  | nil =>
    cases hrun
    cases hk
  | append_singleton calls c ih =>
    obtain ⟨s₁, hbefore, hlast⟩ := Run.exists_of_run_append hrun
    obtain ⟨s₂, hcall, hnil⟩ := Run.exists_of_run_cons hlast
    cases hnil
    have hcache := cache_of_call hcall hk
    rw [published_append]
    rcases hk₁ : s₁.streams k with _ | stream₁
    · rw [hk₁] at hcache
      exact ⟨published k [c], List.suffix_append _ _, hcache⟩
    · obtain ⟨pkts, ⟨earlier, heq⟩, hpkts⟩ := ih hbefore hk₁
      rw [hk₁, Option.getD_some, hpkts] at hcache
      refine ⟨pkts ++ published k [c], ⟨earlier, by rw [← heq, List.append_assoc]⟩, ?_⟩
      rw [hcache, GopCache.insertAll, GopCache.insertAll, GopCache.insertAll, List.foldl_append]

/-- **The cache.**  In every state of a run the cache of a stream holds the last header of
each kind, and the media packets from the last key frame on, of the packets that were
published on its key since the stream was made. -/
theorem cache_content {calls : List (Call W)} {s : State W}
    (hrun : Run.run (call key writerid) calls {} = .ok s) {k : Bytes} {stream : MediaStream W}
    (hk : s.streams k = some stream)
    (hcount : (published k calls).countP GopCache.isKey < 2 ^ 31) :
    ∃ pkts, pkts <:+ published k calls ∧ GopCache.Content 1 pkts stream.cache := by
  obtain ⟨pkts, hsuffix, hcache⟩ := cache_of_run hrun hk
  have hle := hsuffix.sublist.countP_le (p := GopCache.isKey)
  rw [hcache]
  exact ⟨pkts, hsuffix, GopCache.content_insertAll 1 (by omega)⟩

/-- **Fan-out.**  From the call that adds a writer that is not inited, until it
is removed, the writer is sent nothing before a packet is published on its key.
With the first packet it is sent the cache as it stands after that packet,
headers first, and from then on each packet of its key.  No packet of another
key reaches it. -/
theorem fan_out (key writerid : W → Bytes) (hid : Function.Injective writerid) (w : W)
    (pre mid : List (Call W)) (hmid : Call.removePlayer w ∉ mid) :
    ∃ s s', Run.run (call key writerid) pre {} = .ok s ∧
      Run.run (call key writerid) (.addPlayer w :: mid) s = .ok s' ∧
      (s.ports.inited w = false → ∃ sent, s'.ports.out w = s.ports.out w ++ sent ∧
        (∀ pkt ∈ sent, pkt.key = key w) ∧
        (published (key w) mid = [] → sent = []) ∧
        ∀ before first after, mid = before ++ .writerMediaPacket first :: after →
          published (key w) before = [] → first.key = key w →
          ∃ s₁ stream, Run.run (call key writerid)
              (.addPlayer w :: before ++ [.writerMediaPacket first]) s = .ok s₁ ∧
            s₁.streams (key w) = some stream ∧
            sent = stream.cache.headers ++ stream.cache.packetList ++
              published (key w) after) := by
  obtain ⟨s, hpre, ht⟩ := run_tidy tidy_start pre
  obtain ⟨s₀, hadd, ht₀⟩ := call_tidy ht (.addPlayer w)
  obtain ⟨s', hrun, ht'⟩ := run_tidy ht₀ mid
  obtain ⟨hw₀, hports⟩ := registered_addPlayer hid ht hadd
  refine ⟨s, s', hpre, by rw [Run.run_cons hadd, hrun], ?_⟩
  intro hfresh
  have hfresh₀ : s₀.ports.inited w = false := by rw [hports, hfresh]
  by_cases hnone : published (key w) mid = []
  · obtain ⟨-, hout, -⟩ := run_quiet hid ht₀ hw₀ hmid hnone hrun
    refine ⟨[], by rw [hout, hports, List.append_nil], by simp, fun _ => rfl, ?_⟩
    intro before first after hsplit _ hkey
    rw [hsplit, published_append, published_cons_packet, if_pos hkey] at hnone
    simp at hnone
  · obtain ⟨before, first, after, rfl, hbefore, hkey⟩ := exists_first_packet hnone
    obtain ⟨s₁, stream, -, -, hout, hcached⟩ :=
      run_first hid ht₀ hw₀ hfresh₀ hmid hbefore hkey hrun
    rw [hports] at hout
    refine ⟨_, hout, ?_, fun h => absurd h hnone, ?_⟩
    · intro pkt hpkt
      rw [List.mem_append] at hpkt
      rcases hpkt with hgop | hlater
      · exact hcached pkt hgop
      · exact key_of_mem_published hlater
    · -- every other way to name the first packet gives the same list
      intro before' first' after' hsplit hbefore' hkey'
      rw [hsplit] at hmid hrun
      obtain ⟨s₂, stream', hrun₂, hstream', hout', -⟩ :=
        run_first hid ht₀ hw₀ hfresh₀ hmid hbefore' hkey' hrun
      refine ⟨s₂, stream', ?_, hstream', ?_⟩
      · rw [List.cons_append, Run.run_cons hadd, hrun₂]
      · rw [hports, hout, List.append_cancel_left_eq] at hout'
        exact hout'

end Invariant

/-! ## A writer that comes late -/

/-- A packet of one stream, known by its byte. -/
def samplePacket (avType : MediaPktType) (isSeqHdr isKeyFrame : Bool) (byte : UInt8) :
    MediaPacket :=
  { avType, isSeqHdr, isKeyFrame, buffer := [byte], key := ascii "live/a" }

/-- What is published before the writer comes: two headers and two frames. -/
def earlyCalls : List (Call Unit) :=
  [.writerMediaPacket (samplePacket .video true false 1),
    .writerMediaPacket (samplePacket .audio true false 2),
    .writerMediaPacket (samplePacket .video false true 3),
    .writerMediaPacket (samplePacket .video false false 4)]

/-- A packet of another stream, and the first of its own. -/
def otherPacket : MediaPacket := { samplePacket .video false true 5 with key := ascii "live/b" }

/-- The first packet of the key behind the new writer. -/
def firstPacket : MediaPacket := samplePacket .audio false false 6

/-- What is published behind the first packet. -/
def laterCalls : List (Call Unit) :=
  [.writerMediaPacket otherPacket, .writerMediaPacket (samplePacket .video false false 7)]

/-- The calls with a fixed key and address. -/
def sampleCall : Call Unit → State Unit → Except Fault (State Unit) :=
  call (fun _ => ascii "live/a") fun _ => ascii "1.2.3.4:5"

/-- A writer that is added behind the first four packets of its key. -/
theorem fan_out_late :
    ∃ s s', Run.run sampleCall earlyCalls {} = .ok s ∧
      Run.run sampleCall (.addPlayer () ::
        ([.writerMediaPacket otherPacket] ++ .writerMediaPacket firstPacket :: laterCalls)) s =
          .ok s' ∧
      s'.ports.out () =
        [samplePacket .video true false 1, samplePacket .audio true false 2,
          samplePacket .video false true 3, samplePacket .video false false 4, firstPacket,
          samplePacket .video false false 7] := by
  obtain ⟨s, s', hpre, hrun, hout⟩ := fan_out (fun _ : Unit => ascii "live/a")
    (fun _ => ascii "1.2.3.4:5") (fun _ _ _ => rfl) () earlyCalls
    ([.writerMediaPacket otherPacket] ++ .writerMediaPacket firstPacket :: laterCalls)
    (by simp [laterCalls])
  have hports := Run.eq_of_map_toOption hpre (b := (false, []))
    (f := fun s : State Unit => (s.ports.inited (), s.ports.out ())) (by decide +kernel)
  rw [Prod.mk.injEq] at hports
  obtain ⟨sent, hsent, -, -, hfirst⟩ := hout hports.1
  obtain ⟨s₁, stream, hrun₁, hstream, hcut⟩ :=
    hfirst [.writerMediaPacket otherPacket] firstPacket laterCalls rfl (by decide) rfl
  have hcache := Run.eq_of_map_toOption ((Run.run_append hpre).trans hrun₁)
    (f := fun s : State Unit => (s.streams (ascii "live/a")).map fun stream =>
      stream.cache.headers ++ stream.cache.packetList)
    (b := some [samplePacket .video true false 1, samplePacket .audio true false 2,
      samplePacket .video false true 3, samplePacket .video false false 4, firstPacket])
    (by decide +kernel)
  rw [hstream, Option.map_some, Option.some.injEq] at hcache
  refine ⟨s, s', hpre, hrun, ?_⟩
  rw [hsent, hports.2, hcut, hcache]
  decide

end FanOut

end MediaServer
