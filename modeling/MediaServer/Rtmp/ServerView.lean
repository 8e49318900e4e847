import MediaServer.Rtmp.Handling

/-!
# The server, seen from its invariants

What the server does to its sessions, its writers and the streams can be said
without the buffers and the bytes.  A `View` keeps of each open session the
chunk sizes, the request, and the writer it plays through; of each writer the
session it belongs to; and the streams and the record of the run.

`View.Step` lists what one step of the server can do to the view.  The label
of a step is the message that it handles, if it handles one.  `Sound` holds of
the views of all reachable states: it ties the parts of a view together.

That the server keeps to these steps is shown in `ServerSteps`.
-/

namespace MediaServer

open MediaStreamManager

/-! ## Views -/

/-- What is kept of a session. -/
structure Profile where
  csMap : UInt8 → Option ChunkStream := fun _ => none
  chunkSize : UInt32 := CHUNK_DEF_SIZE
  req : RtmpRequest := {}
  sessionKey : Bytes := []
  playWriter : Option Nat := none

/-- What is kept of the server. -/
structure View where
  profile : Nat → Option Profile := fun _ => none
  owner : Nat → Option Nat := fun _ => none
  streams : Streams Nat := fun _ => none
  nextSession : Nat := 0
  nextWriter : Nat := 0
  log : List Obs := []

/-- What the invariants look at in a session. -/
def ServerSession.profile (s : ServerSession) : Profile :=
  { csMap := s.base.csMap
    chunkSize := s.base.chunkSize
    req := s.req
    sessionKey := s.sessionKey
    playWriter := s.playWriter }

/-- The profile of the session with a number. -/
def Heap.profile (h : Heap) (sid : Nat) : Option Profile :=
  (h.sessions sid).map ServerSession.profile

/-- The session of a writer. -/
def Heap.owner (h : Heap) (p : Nat) : Option Nat := (h.writers p).map RtmpWriter.session

/-- What the invariants look at in the server. -/
def World.view (w : World) : View :=
  { profile := w.heap.profile
    owner := w.heap.owner
    streams := w.streams
    nextSession := w.nextSession
    nextWriter := w.nextWriter
    log := w.log }

@[simp] theorem World.view_streams (w : World) : w.view.streams = w.streams := rfl

@[simp] theorem World.view_nextWriter (w : World) : w.view.nextWriter = w.nextWriter := rfl

@[simp] theorem World.view_log (w : World) : w.view.log = w.log := rfl

@[simp] theorem ServerSession.profile_req (s : ServerSession) : s.profile.req = s.req := rfl

@[simp] theorem ServerSession.profile_sessionKey (s : ServerSession) :
    s.profile.sessionKey = s.sessionKey := rfl

/-! ## Steps -/

/-- The session plays, as `close` and the message loop ask for it. -/
def RtmpRequest.inPlay (r : RtmpRequest) : Bool := r.isReady && !r.publishFlag

/-- Every stream of `csMap'` was in `csMap` with the same chunk size, or is new
and has the chunk size of the session. -/
def StreamsFrom (csMap : UInt8 → Option ChunkStream) (chunkSize : UInt32)
    (csMap' : UInt8 → Option ChunkStream) : Prop :=
  ∀ k cs', csMap' k = some cs' →
    (∃ cs, csMap k = some cs ∧ cs'.chunkSize = cs.chunkSize) ∨
      (csMap k = none ∧ cs'.chunkSize = chunkSize)

/-- What the session has done when it has handled a message. -/
structure Profile.Handled (after : Bytes) (m : Message) (v v' : Profile) : Prop where
  streams : StreamsFrom v.csMap v.chunkSize v'.csMap
  filed : ∃ k cs, v'.csMap k = some cs
  chunkSize : v'.chunkSize = Session.chunkSizeAfter after m v.chunkSize
  accepted : ∀ publish items, Session.accepted after m = some (publish, items) →
    v'.req = Session.acceptRequest publish items v.req
  other : Session.accepted after m = none → Session.SameMode v.req v'.req
  sessionKey : v'.sessionKey = v.sessionKey

/-- What `close` does to the streams. -/
def Profile.leave (v : Profile) (streams : Streams Nat) : Streams Nat :=
  if v.req.inPlay then
    match v.playWriter with
    | some _ => MediaStreamManager.erasePlayer v.req.key v.sessionKey streams
    | none => streams
  else if v.req.key ≠ [] then MediaStreamManager.removePublisher v.req.key streams
  else streams

theorem Profile.leave_cases (v : Profile) (streams : Streams Nat) :
    v.leave streams = streams ∨
      (v.req.inPlay = true ∧ v.playWriter ≠ none ∧
        v.leave streams = erasePlayer v.req.key v.sessionKey streams) ∨
      (v.req.inPlay = false ∧ v.req.key ≠ [] ∧
        v.leave streams = removePublisher v.req.key streams) := by
  unfold leave
  split_ifs with hplay hkey
  · rcases v.playWriter with _ | p
    · exact Or.inl rfl
    · exact Or.inr (Or.inl ⟨hplay, by simp, rfl⟩)
  · exact Or.inr (Or.inr ⟨by simpa using hplay, hkey, rfl⟩)
  · exact Or.inl rfl

/-- The session that an entry of the record is about. -/
def Obs.sid : Obs → Nat
  | .received sid _ _ => sid
  | .played sid _ => sid
  | .published sid _ _ => sid
  | .closed sid => sid

/-- The message that a step handles: the session, the memory behind the
payload, and the message. -/
abbrev Incoming := Nat × Bytes × Message

/-- The entry of a handled message in the record. -/
def Incoming.record (i : Incoming) : Obs := .received i.1 i.2.1 i.2.2

/-- The message was for session `sid`, which did nothing but refuse it. -/
structure Incoming.Refused (sid : Nat) (i : Incoming) : Prop where
  sid_eq : i.1 = sid
  changes : Session.changes i.2.1 i.2.2 = false
  quiet : Session.carriesPacket i.2.1 i.2.2 = false

namespace View

/-- Session `sid` is now as `v` says. -/
def put (sid : Nat) (v : Profile) (a : View) : View :=
  { a with profile := Function.update a.profile sid (some v) }

@[simp] theorem put_profile_self (sid : Nat) (v : Profile) (a : View) :
    (a.put sid v).profile sid = some v := by
  simp [put]

theorem put_profile_of_ne {sid sid' : Nat} (h : sid' ≠ sid) (v : Profile) (a : View) :
    (a.put sid v).profile sid' = a.profile sid' := by
  simp [put, h]

/-- What is recorded. -/
def note (obs : List Obs) (a : View) : View := { a with log := a.log ++ obs }

/-- What one step of the server does. -/
inductive Step : Option Incoming → View → View → Prop where
  | stay (a : View) : Step none a a
  | accept {a : View} (sessionKey : Bytes)
      (fresh : ∀ sid v, a.profile sid = some v → v.sessionKey ≠ sessionKey) :
      Step none a
        { a.put a.nextSession { sessionKey := sessionKey } with nextSession := a.nextSession + 1 }
  | parse {a : View} {sid : Nat} {v : Profile} {csMap : UInt8 → Option ChunkStream}
      (opened : a.profile sid = some v) (streams : StreamsFrom v.csMap v.chunkSize csMap) :
      Step none a (a.put sid { v with csMap := csMap })
  | handle {a : View} {sid : Nat} {after : Bytes} {m : Message} {v v' : Profile}
      (opened : a.profile sid = some v) (handled : v.Handled after m v')
      (writer : v'.playWriter = v.playWriter) (quiet : Session.carriesPacket after m = false) :
      Step (some (sid, after, m)) a ((a.put sid v').note [.received sid after m])
  | play {a : View} {sid : Nat} {after : Bytes} {m : Message} {v v' : Profile}
      (opened : a.profile sid = some v) (handled : v.Handled after m v')
      (inPlay : v'.req.inPlay = true) (quiet : Session.carriesPacket after m = false) :
      Step (some (sid, after, m)) a
        { (a.put sid { v' with playWriter := some a.nextWriter }).note
            [.received sid after m, .played sid v'.req] with
          owner := Function.update a.owner a.nextWriter (some sid)
          streams := Function.update a.streams v'.req.key (some
            (((a.streams v'.req.key).getD {}).insertWriter v'.sessionKey a.nextWriter))
          nextWriter := a.nextWriter + 1 }
  | publish {a : View} {sid : Nat} {after : Bytes} {m : Message} {v v' : Profile}
      {pkt : MediaPacket} (opened : a.profile sid = some v) (handled : v.Handled after m v')
      (writer : v'.playWriter = v.playWriter) (req : v'.req = v.req) (key : pkt.key = v.req.key)
      (route : Heap.packetRoute pkt ≠ none) (carries : Session.carriesPacket after m = true) :
      Step (some (sid, after, m)) a
        { (a.put sid v').note [.received sid after m, .published sid v.req pkt] with
          streams := Function.update a.streams pkt.key
            (some (MediaStreamManager.fedStream pkt a.streams)) }
  | close {a : View} {sid : Nat} {v : Profile} {incoming : Option Incoming}
      (opened : a.profile sid = some v)
      (cause : ∀ i, incoming = some i → i.Refused sid) :
      Step incoming a
        { a.note (incoming.toList.map Incoming.record ++ [.closed sid]) with
          profile := Function.update a.profile sid none
          streams := v.leave a.streams }

end View

/-! ## Packets that can be sent -/

/-- Every packet in a cache can be sent by a writer. -/
def Routable (streams : Streams Nat) : Prop :=
  ∀ k stream, streams k = some stream → ∀ p ∈ stream.cache.gop, Heap.packetRoute p ≠ none

theorem Routable.update {streams : Streams Nat} (h : Routable streams) (k : Bytes)
    {stream : MediaStream Nat} (hs : ∀ p ∈ stream.cache.gop, Heap.packetRoute p ≠ none) :
    Routable (Function.update streams k (some stream)) := by
  intro k' stream' hk'
  by_cases hkey : k' = k
  · rw [hkey, Function.update_self, Option.some.injEq] at hk'
    exact hk' ▸ hs
  · rw [Function.update_of_ne hkey] at hk'
    exact h k' stream' hk'

theorem Routable.getD {streams : Streams Nat} (h : Routable streams) (k : Bytes) :
    ∀ p ∈ ((streams k).getD {}).cache.gop, Heap.packetRoute p ≠ none := by
  rcases hk : streams k with _ | stream
  · intro p hp
    cases hp
  · exact h k stream hk

theorem Routable.insertWriter {streams : Streams Nat} (h : Routable streams) (k writerid : Bytes)
    (w : Nat) : Routable
      (Function.update streams k (some (((streams k).getD {}).insertWriter writerid w))) := by
  have hcache : (((streams k).getD {}).insertWriter writerid w).cache =
      ((streams k).getD {}).cache := by
    unfold MediaStream.insertWriter
    split <;> rfl
  apply h.update
  rw [hcache]
  exact h.getD k

theorem Routable.fedStream {streams : Streams Nat} (h : Routable streams) {pkt : MediaPacket}
    (hp : Heap.packetRoute pkt ≠ none) :
    ∀ p ∈ (MediaStreamManager.fedStream pkt streams).cache.gop, Heap.packetRoute p ≠ none :=
  GopCache.forall_insertPacket (h.getD pkt.key) hp

theorem Routable.leave {streams : Streams Nat} (h : Routable streams) (v : Profile) :
    Routable (v.leave streams) := by
  intro k stream hk
  rcases v.leave_cases streams with heq | ⟨-, -, heq⟩ | ⟨-, -, heq⟩
  · rw [heq] at hk
    exact h k stream hk
  · rw [heq] at hk
    by_cases hkey : k = v.req.key
    · subst hkey
      obtain ⟨stream₀, hk₀, rfl⟩ := erasePlayer_self hk
      exact h _ stream₀ hk₀
    · rw [erasePlayer_of_ne hkey] at hk
      exact h k stream hk
  · rw [heq] at hk
    by_cases hkey : k = v.req.key
    · subst hkey
      obtain ⟨stream₀, hk₀, rfl⟩ := removePublisher_self hk
      exact h _ stream₀ hk₀
    · rw [removePublisher_of_ne hkey] at hk
      exact h k stream hk

/-! ## Soundness -/

namespace View

/-- What ties the parts of a view together.  `routable` is the reason why no
write to a player fails. -/
structure Sound (a : View) : Prop where
  routable : Routable a.streams
  own : ∀ sid v p, a.profile sid = some v → v.playWriter = some p → a.owner p = some sid
  writers : ∀ p sid, a.owner p = some sid → p < a.nextWriter ∧ sid < a.nextSession
  sessions : ∀ sid v, a.profile sid = some v → sid < a.nextSession
  logged : ∀ obs ∈ a.log, obs.sid < a.nextSession
  closed : ∀ sid, .closed sid ∈ a.log → a.profile sid = none

theorem sound_init : Sound {} where
  routable k stream h := by cases h
  own sid v p h := by cases h
  writers p sid h := by cases h
  sessions sid v h := by cases h
  logged obs h := by cases h
  closed sid h := by cases h

theorem Sound.put {a : View} (h : Sound a) {sid : Nat} {v v' : Profile}
    (opened : a.profile sid = some v) (hplay : v'.playWriter = v.playWriter) :
    Sound (a.put sid v') where
  routable := h.routable
  own := by
    intro sid' u p hu hp
    by_cases hsid : sid' = sid
    · subst hsid
      rw [put_profile_self, Option.some.injEq] at hu
      rw [← hu, hplay] at hp
      exact h.own sid' v p opened hp
    · rw [put_profile_of_ne hsid] at hu
      exact h.own sid' u p hu hp
  writers := h.writers
  sessions := by
    intro sid' u hu
    by_cases hsid : sid' = sid
    · subst hsid
      exact h.sessions sid' v opened
    · rw [put_profile_of_ne hsid] at hu
      exact h.sessions sid' u hu
  logged := h.logged
  closed := by
    intro sid' hc
    have hnone := h.closed sid' hc
    have hsid : sid' ≠ sid := by
      rintro rfl
      rw [opened] at hnone
      cases hnone
    rw [put_profile_of_ne hsid]
    exact hnone

theorem Sound.note {a : View} (h : Sound a) {obs : List Obs}
    (hobs : ∀ o ∈ obs, o.sid < a.nextSession) (hopen : ∀ sid, .closed sid ∉ obs) :
    Sound (a.note obs) where
  routable := h.routable
  own := h.own
  writers := h.writers
  sessions := h.sessions
  logged o ho := by
    rcases List.mem_append.mp ho with ho | ho
    · exact h.logged o ho
    · exact hobs o ho
  closed sid hc := by
    rcases List.mem_append.mp hc with hc | hc
    · exact h.closed sid hc
    · exact absurd hc (hopen sid)

theorem Sound.withStreams {a : View} (h : Sound a) {streams : Streams Nat}
    (hroute : Routable streams) : Sound { a with streams := streams } :=
  { h with routable := hroute }

/-- A session gets a new writer. -/
theorem Sound.addWriter {a : View} (h : Sound a) {sid : Nat} {v : Profile} (v' : Profile)
    (opened : a.profile sid = some v) :
    Sound { a.put sid { v' with playWriter := some a.nextWriter } with
      owner := Function.update a.owner a.nextWriter (some sid)
      nextWriter := a.nextWriter + 1 } where
  routable := h.routable
  own := by
    intro sid' u p hu hp
    simp only [View.put, Function.update_apply] at hu ⊢
    by_cases hsid : sid' = sid
    · rw [if_pos hsid, Option.some.injEq] at hu
      rw [← hu, Option.some.injEq] at hp
      rw [if_pos hp.symm, hsid]
    · rw [if_neg hsid] at hu
      have howner := h.own sid' u p hu hp
      have hlt := (h.writers p sid' howner).1
      rw [if_neg (by omega)]
      exact howner
  writers := by
    intro p sid' hp
    simp only [View.put, Function.update_apply] at hp ⊢
    by_cases heq : p = a.nextWriter
    · rw [if_pos heq, Option.some.injEq] at hp
      have hsid := h.sessions sid v opened
      omega
    · rw [if_neg heq] at hp
      have := h.writers p sid' hp
      omega
  sessions := by
    intro sid' u hu
    simp only [View.put, Function.update_apply] at hu ⊢
    by_cases hsid : sid' = sid
    · subst hsid
      exact h.sessions sid' v opened
    · rw [if_neg hsid] at hu
      exact h.sessions sid' u hu
  logged := h.logged
  closed := by
    intro sid' hc
    have hnone := h.closed sid' hc
    have hsid : sid' ≠ sid := by
      rintro rfl
      rw [opened] at hnone
      cases hnone
    simp only [put_profile_of_ne hsid]
    exact hnone

theorem Sound.accept {a : View} (h : Sound a) (sessionKey : Bytes) :
    Sound { a.put a.nextSession { sessionKey := sessionKey } with
      nextSession := a.nextSession + 1 } where
  routable := h.routable
  own := by
    intro sid u p hu hp
    by_cases hsid : sid = a.nextSession
    · subst hsid
      simp only [put_profile_self, Option.some.injEq] at hu
      rw [← hu] at hp
      cases hp
    · simp only [put_profile_of_ne hsid] at hu
      exact h.own sid u p hu hp
  writers p sid hp := ⟨(h.writers p sid hp).1, Nat.lt_succ_of_lt (h.writers p sid hp).2⟩
  sessions := by
    intro sid u hu
    by_cases hsid : sid = a.nextSession
    · simp [hsid]
    · simp only [put_profile_of_ne hsid] at hu
      exact Nat.lt_succ_of_lt (h.sessions sid u hu)
  logged o ho := Nat.lt_succ_of_lt (h.logged o ho)
  closed sid hc := by
    have hlt : sid < a.nextSession := h.logged _ hc
    simp only [put_profile_of_ne (Nat.ne_of_lt hlt)]
    exact h.closed sid hc

theorem Sound.close {a : View} (h : Sound a) {sid : Nat} {v : Profile}
    (opened : a.profile sid = some v) :
    Sound { a.note [.closed sid] with profile := Function.update a.profile sid none } where
  routable := h.routable
  own := by
    intro sid' u p hu hp
    by_cases hsid : sid' = sid
    · simp [hsid] at hu
    · simp only [Function.update_of_ne hsid] at hu
      exact h.own sid' u p hu hp
  writers := h.writers
  sessions := by
    intro sid' u hu
    by_cases hsid : sid' = sid
    · simp [hsid] at hu
    · simp only [Function.update_of_ne hsid] at hu
      exact h.sessions sid' u hu
  logged o ho := by
    rcases List.mem_append.mp ho with ho | ho
    · exact h.logged o ho
    · rw [List.mem_singleton.mp ho]
      exact h.sessions sid v opened
  closed sid' hc := by
    by_cases hsid : sid' = sid
    · simp [hsid]
    · simp only [Function.update_of_ne hsid]
      rcases List.mem_append.mp hc with hc | hc
      · exact h.closed sid' hc
      · simp [hsid] at hc

/-- Soundness is kept. -/
theorem Sound.step {incoming : Option Incoming} {a a' : View} (h : Sound a)
    (hstep : Step incoming a a') : Sound a' := by
  cases hstep with
  | stay => exact h
  | accept sessionKey fresh => exact h.accept sessionKey
  | parse opened streams => exact h.put opened rfl
  | @handle _ sid after m v v' opened handled writer quiet =>
    have hlt := h.sessions sid v opened
    have hobs : ∀ o ∈ [Obs.received sid after m], o.sid < a.nextSession := by
      simpa [Obs.sid] using hlt
    exact (h.put opened writer).note hobs (by simp)
  | @play _ sid after m v v' opened handled inPlay quiet =>
    have hlt := h.sessions sid v opened
    have hobs : ∀ o ∈ [Obs.received sid after m, .played sid v'.req], o.sid < a.nextSession := by
      simpa [Obs.sid] using hlt
    have hroute := h.routable.insertWriter v'.req.key v'.sessionKey a.nextWriter
    exact ((h.addWriter v' opened).note hobs (by simp)).withStreams hroute
  | @publish _ sid after m v v' pkt opened handled writer req key route carries =>
    have hlt := h.sessions sid v opened
    have hobs : ∀ o ∈ [Obs.received sid after m, .published sid v.req pkt],
        o.sid < a.nextSession := by
      simpa [Obs.sid] using hlt
    have hroute := h.routable.update pkt.key (h.routable.fedStream route)
    exact ((h.put opened writer).note hobs (by simp)).withStreams hroute
  | @close _ sid v incoming opened cause =>
    have hlt := h.sessions sid v opened
    have hobs : ∀ o ∈ incoming.toList.map Incoming.record, o.sid < a.nextSession := by
      intro o ho
      obtain ⟨i, hi, rfl⟩ := List.mem_map.mp ho
      rw [Option.mem_toList] at hi
      rw [Incoming.record, Obs.sid, (cause i hi).sid_eq]
      exact hlt
    have hnoted := h.note hobs (by simp [Incoming.record])
    have hleft := (hnoted.close opened).withStreams (h.routable.leave v)
    simpa [View.note] using hleft

end View

end MediaServer
