import Mathlib.Tactic.Common
import MediaServer.Httpflv.Lifetimes

/-!
# What a client of the HTTP-FLV server is sent

While a response is open, its client has been sent one HTTP header, one FLV header and whole
tags: those of the packets that its writer has written, in their order (`client_bytes`).

`Frame` is what every call leaves but the two that matter, a request that makes a writer and
`write_packet`.  It is kept on both sides of a call whatever the heap is, so that it is proved
along the code.
-/

namespace MediaServer

namespace HttpflvServer

namespace Heap

/-- The packets that the writer `p` has written. -/
def written (p : Nat) (log : List Obs) : List MediaPacket :=
  log.filterMap fun
    | .wrote q pkt => if q = p then some pkt else none
    | .accepted _ | .heard _ | .ticked | .made _ | .checked => none

/-- The tag that is written for a packet. -/
def tagBytes (pkt : MediaPacket) : Bytes :=
  match tagType pkt with
  | some tag => (tagParts tag pkt).flatten
  | none => []

/-- The headers and the tags of the packets. -/
def clientBytes (pkts : List MediaPacket) : Bytes :=
  responseHeader 13 true ++ flvFileHeader (FlvMuxer.headerFlag true true) ++ pkts.flatMap tagBytes

section Frame

variable {h h' h'' : Heap} {c p r : Nat} {s s' : Session} {resp resp' : Response} {v v' : Writer}

/-- How far a writer is. -/
def stage (v : Writer) : Nat × Bool × Bool × Bool :=
  (v.resp, v.flvHeaderReady, v.hasVideo, v.hasAudio)

theorem stage_eq (hstage : stage v = stage v') :
    v.resp = v'.resp ∧ v.flvHeaderReady = v'.flvHeaderReady ∧ v.hasVideo = v'.hasVideo ∧
      v.hasAudio = v'.hasAudio := by
  simpa [stage] using hstage

/-- Nothing is sent, and nothing is opened. -/
structure Frame (h h' : Heap) : Prop where
  writers : ∀ p v', h'.writers p = some v' → ∃ v, h.writers p = some v ∧ stage v = stage v'
  responses : ∀ r resp, h'.responses r = some resp → resp.isClose = false →
    h.responses r = some resp
  sessions : ∀ c s', h'.sessions c = some s' → c < h.nextSession →
    ∃ s, h.sessions c = some s ∧ s.sent = s'.sent
  nextSession : h.nextSession ≤ h'.nextSession
  nextWriter : h'.nextWriter = h.nextWriter
  log : ∀ p, written p h'.log = written p h.log

theorem Frame.refl (h : Heap) : Frame h h where
  writers _ v hv := ⟨v, hv, rfl⟩
  responses _ _ hr _ := hr
  sessions _ s hs _ := ⟨s, hs, rfl⟩
  nextSession := Nat.le_refl _
  nextWriter := rfl
  log _ := rfl

theorem Frame.trans (h₁ : Frame h h') (h₂ : Frame h' h'') : Frame h h'' where
  writers p v'' hp := by
    obtain ⟨v', hv', hstage'⟩ := h₂.writers p v'' hp
    obtain ⟨v, hv, hstage⟩ := h₁.writers p v' hv'
    exact ⟨v, hv, hstage.trans hstage'⟩
  responses r resp hr hopen := h₁.responses r resp (h₂.responses r resp hr hopen) hopen
  sessions c s'' hc hlt := by
    obtain ⟨s', hs', hsent'⟩ := h₂.sessions c s'' hc (Nat.lt_of_lt_of_le hlt h₁.nextSession)
    obtain ⟨s, hs, hsent⟩ := h₁.sessions c s' hs' hlt
    exact ⟨s, hs, hsent.trans hsent'⟩
  nextSession := h₁.nextSession.trans h₂.nextSession
  nextWriter := h₂.nextWriter.trans h₁.nextWriter
  log p := (h₂.log p).trans (h₁.log p)

/-- The maps do not matter. -/
theorem Frame.withMap (hframe : Frame h h') (m : OrderedMap Bytes Nat) :
    Frame h { h' with sessionPtrMap := m } :=
  ⟨hframe.writers, hframe.responses, hframe.sessions, hframe.nextSession, hframe.nextWriter,
    hframe.log⟩

theorem Frame.unlist (hframe : Frame h h') (id : Bytes) : Frame h (h'.unlist id) :=
  ⟨hframe.writers, hframe.responses, hframe.sessions, hframe.nextSession, hframe.nextWriter,
    hframe.log⟩

theorem frame_setSession (hc : h.sessions c = some s) (hsent : s'.sent = s.sent) :
    Frame h (h.setSession c s') := by
  refine { Frame.refl h with sessions := fun d t hd _ => ?_ }
  rcases update_eq_some hd with ⟨rfl, rfl⟩ | ⟨-, hd⟩
  · exact ⟨s, hc, hsent.symm⟩
  · exact ⟨t, hd, rfl⟩

theorem frame_setResponse (hclose : resp'.isClose = true) : Frame h (h.setResponse r resp') := by
  refine { Frame.refl h with responses := fun x y hx hopen => ?_ }
  rcases update_eq_some hx with ⟨-, rfl⟩ | ⟨-, hx⟩
  · rw [hclose] at hopen
    cases hopen
  · exact hx

theorem frame_setWriter (hp : h.writers p = some v) (hstage : stage v = stage v') :
    Frame h (h.setWriter p v') := by
  refine { Frame.refl h with writers := fun q u hq => ?_ }
  rcases update_eq_some hq with ⟨rfl, rfl⟩ | ⟨-, hq⟩
  · exact ⟨v, hp, hstage⟩
  · exact ⟨u, hq, rfl⟩

theorem frame_without (p : Nat) (h : Heap) : Frame h (h.without p) :=
  { Frame.refl h with writers := fun _ u hq => ⟨u, (update_none_eq_some hq).2, rfl⟩ }

theorem deref_eq_ok {α : Type} {x : Option α} {a : α} (h : deref x = .ok a) : x = some a := by
  rcases x with _ | b
  · cases h
  · cases h
    rfl

/-! ## Calls that send nothing -/

theorem setClose_frame (hok : setClose r h = .ok h') : Frame h h' := by
  obtain ⟨resp, -, hok⟩ := Run.exists_of_bind_ok hok
  cases hok
  exact frame_setResponse rfl

theorem closeSession_frame (hok : closeSession c h = .ok h') : Frame h h' := by
  obtain ⟨s, hc, hok⟩ := Run.exists_of_bind_ok hok
  have hframe : Frame h (h.setSession c { s with isClosed := true }) :=
    frame_setSession (deref_eq_ok hc) rfl
  split at hok
  · cases hok
    exact .refl h
  · dsimp only at hok
    split at hok
    · cases hok
      exact hframe
    · exact hframe.trans (setClose_frame hok)

theorem destroySession_frame (hok : destroySession c h = .ok h') : Frame h h' := by
  obtain ⟨h₁, hclose, hok⟩ := Run.exists_of_bind_ok hok
  cases hok
  exact (closeSession_frame hclose).trans { Frame.refl h₁ with
    sessions := fun d t hd _ => ⟨t, (update_none_eq_some hd).2, rfl⟩ }

theorem closeResponse_frame (hok : closeResponse r h = .ok h') : Frame h h' := by
  obtain ⟨resp, -, hok⟩ := Run.exists_of_bind_ok hok
  split at hok
  · cases hok
    exact .refl h
  · dsimp only at hok
    split at hok
    · cases hok
    · obtain ⟨h₁, hclose, hok⟩ := Run.exists_of_bind_ok hok
      have hframe : Frame h (h.setResponse r { resp with isClose := true }) :=
        frame_setResponse rfl
      exact (hframe.trans (closeSession_frame hclose)).trans (setClose_frame hok)

theorem closeWriter_frame (hok : closeWriter p h = .ok h') : Frame h h' := by
  obtain ⟨v, hp, hok⟩ := Run.exists_of_bind_ok hok
  split at hok
  · cases hok
    exact .refl h
  · have hframe : Frame h (h.setWriter p { v with closedFlag := true }) :=
      frame_setWriter (deref_eq_ok hp) rfl
    exact hframe.trans (closeResponse_frame hok)

theorem deleteWriter_frame (hok : deleteWriter p h = .ok h') : Frame h h' := by
  obtain ⟨h₁, hclose, hok⟩ := Run.exists_of_bind_ok hok
  cases hok
  exact (closeWriter_frame hclose).trans (frame_without p h₁)

theorem onClose_frame {endpoint : Bytes} (hok : World.onClose endpoint h = .ok h') :
    Frame h h' := by
  rw [World.onClose] at hok
  split at hok
  · cases hok
    exact .refl h
  · exact ((Frame.refl h).withMap _).trans (destroySession_frame hok)

theorem onAccept_frame {endpoint : Bytes} (hok : World.onAccept endpoint h = .ok h') :
    Frame h h' := by
  have hframe : Frame h (h.accepted endpoint) := by
    refine { Frame.refl h with
      sessions := fun d t hd hlt => ?_, nextSession := Nat.le_succ _, log := fun p => ?_ }
    · rcases update_eq_some hd with ⟨rfl, -⟩ | ⟨-, hd⟩
      · exact absurd hlt (Nat.lt_irrefl _)
      · exact ⟨t, hd, rfl⟩
    · exact (List.filterMap_append ..).trans (List.append_nil _)
  rcases hkey : h.sessionPtrMap.find? endpoint with _ | c
  · rw [onAccept_new hkey] at hok
    cases hok
    exact hframe.withMap _
  · rw [onAccept_known hkey] at hok
    exact hframe.trans (destroySession_frame hok)

theorem checkSession_frame {e : Bytes × Nat} (hok : World.checkSession h e = .ok h') :
    Frame h h' := by
  obtain ⟨s, hc, hok⟩ := Run.exists_of_bind_ok hok
  have hframe : Frame h (h.setSession e.2 { s with aliver := s.aliver.isAlive.2 }) :=
    frame_setSession (deref_eq_ok hc) rfl
  dsimp only at hok
  split at hok
  · cases hok
    exact hframe
  · exact (hframe.withMap _).trans (destroySession_frame hok)

/-- What is recorded of the timers and of the sockets is nothing written. -/
theorem frame_record {o : Obs} (ho : ∀ p, written p [o] = []) (h : Heap) :
    Frame h (h.record o) := by
  refine { Frame.refl h with log := fun p => ?_ }
  exact (List.filterMap_append ..).trans ((congrArg _ (ho p)).trans (List.append_nil _))

theorem onTimer_frame (hok : World.onTimer h = .ok h') : Frame h h' :=
  (frame_record (fun _ => rfl) h).trans (Run.rel_of_foldlM (f := World.checkSession) (R := Frame)
    Frame.refl (fun _ _ _ h₁ h₂ => h₁.trans h₂) (fun _ _ _ => checkSession_frame) hok)

/-! ## Writing -/

/-- The heap after something was sent on a response of the session `c`. -/
def send (c : Nat) (s : Session) (r : Nat) (resp : Response) (data : Bytes) (h : Heap) : Heap :=
  (h.setSession c { s with sent := s.sent ++ data }).setResponse r
    { resp with writtenHeader := true }

theorem send_send (a b : Bytes) :
    (h.send c s r resp a).send c { s with sent := s.sent ++ a } r
      { resp with writtenHeader := true } b = h.send c s r resp (a ++ b) := by
  simp only [send, setSession, setResponse, Function.update_idem, List.append_assoc]

/-- A response that has sent its header stays as it is. -/
theorem send_written (hr : h.responses r = some resp) (hwritten : resp.writtenHeader = true)
    (data : Bytes) : h.send c s r resp data = h.setSession c { s with sent := s.sent ++ data } := by
  have hresp : { resp with writtenHeader := true } = resp := by rw [← hwritten]
  rw [send, hresp, setResponse, show (h.setSession c _).responses = h.responses from rfl, ← hr,
    Function.update_eq_self]
  rfl

theorem writeResponse_open (hr : h.responses r = some resp) (hopen : resp.isClose = false)
    (hsession : resp.session = some c) (hc : h.sessions c = some s) (data : Bytes) :
    writeResponse r data true h = .ok (0, h.send c s r resp
      ((if resp.writtenHeader then [] else responseHeader data.length true) ++ data)) := by
  have hwrite : ∀ {h' s'} (d : Bytes), h'.sessions c = some s' →
      writeSession c d h' = .ok (h'.setSession c { s' with sent := s'.sent ++ d }) := by
    intro h' s' d hc'
    rw [writeSession, deref_some hc']
    rfl
  rw [writeResponse, deref_some hr, Run.ok_bind]
  obtain ⟨session, isClose, writtenHeader⟩ := resp
  subst hopen hsession
  rcases writtenHeader with _ | _
  · show (writeSession c (responseHeader data.length true) h >>= _) = _
    rw [hwrite _ hc]
    let resp : Response := { session := some c }
    let head := responseHeader data.length true
    have hr₁ : (h.send c s r resp head).responses r = some { resp with writtenHeader := true } :=
      setResponse_self ..
    have hc₁ : (h.send c s r resp head).sessions c = some { s with sent := s.sent ++ head } :=
      setSession_self ..
    have hsend : h.send c s r resp (head ++ data) = (h.send c s r resp head).setSession c
        { s with sent := s.sent ++ head ++ data } :=
      (send_send head data).symm.trans (send_written hr₁ rfl data)
    show (writeSession c data (h.send c s r resp head) >>= _) =
      .ok (0, h.send c s r resp (head ++ data))
    rw [hwrite _ hc₁, hsend]
    rfl
  · show (writeSession c data h >>= _) = _
    rw [hwrite _ hc, send_written hr rfl]
    rfl

theorem writeParts_open (hr : h.responses r = some resp) (hopen : resp.isClose = false)
    (hsession : resp.session = some c) (hwritten : resp.writtenHeader = true)
    (hc : h.sessions c = some s) (parts : List Bytes) :
    writeParts r parts h = .ok (0, h.send c s r resp parts.flatten) := by
  induction parts generalizing h s with
  | nil =>
    have hsame : h.send c s r resp [] = h := by
      rw [send_written hr hwritten, List.append_nil, setSession, ← hc, Function.update_eq_self]
    rw [List.flatten_nil, hsame]
    rfl
  | cons data rest ih =>
    have hr' : (h.send c s r resp data).responses r = some resp := by
      rw [send_written hr hwritten]
      exact hr
    have hc' : (h.send c s r resp data).sessions c = some { s with sent := s.sent ++ data } :=
      setSession_self ..
    have hsend := @send_send h c r s resp data rest.flatten
    rw [show { resp with writtenHeader := true } = resp by rw [← hwritten]] at hsend
    rw [writeParts, writeResponse_open hr hopen hsession hc, if_pos hwritten, List.nil_append,
      Run.ok_bind, List.flatten_cons, ← hsend, ← ih hr' hc']
    rfl

/-- A response that is not open takes nothing. -/
theorem writeResponse_closed (hr : h.responses r = some resp)
    (hclose : resp.isClose = false → resp.session = none) (data : Bytes) :
    writeResponse r data true h = .ok (-1, h) := by
  rw [writeResponse, deref_some hr, Run.ok_bind]
  rcases hopen : resp.isClose with _ | _
  · simp only [hclose hopen]
    rfl
  · rfl

end Frame

/-! ## The invariant -/

section Streamed

variable {ls lw : Nat → Nat} {h h' : Heap} {c p : Nat} {s : Session} {resp : Response}
  {v v' : Writer} {pkt : MediaPacket}

/-- A writer, its response and its session, before the FLV header and after it. -/
def Fed (v : Writer) (resp : Response) (s : Session) (pkts : List MediaPacket) : Prop :=
  (v.flvHeaderReady = false ∧ resp.writtenHeader = false ∧ s.sent = [] ∧ pkts = []) ∨
    (v.flvHeaderReady = true ∧ resp.writtenHeader = true ∧ s.sent = clientBytes pkts)

/-- The writers have video and audio, and each has its own response. -/
structure Apart (writers : Nat → Option Writer) : Prop where
  flags : ∀ p v, writers p = some v → v.hasVideo = true ∧ v.hasAudio = true
  resp : ∀ p q v u, writers p = some v → writers q = some u → v.resp = u.resp → p = q

theorem Apart.update {writers : Nat → Option Writer} (ha : Apart writers)
    (hp : writers p = some v) (hresp : v'.resp = v.resp) (hvideo : v'.hasVideo = v.hasVideo)
    (haudio : v'.hasAudio = v.hasAudio) : Apart (Function.update writers p (some v')) where
  flags q u hq := by
    rcases update_eq_some hq with ⟨-, rfl⟩ | ⟨-, hq⟩
    · rw [hvideo, haudio]
      exact ha.flags p v hp
    · exact ha.flags q u hq
  resp q q' u u' hq hq' heq := by
    rcases update_eq_some hq with ⟨hqp, rfl⟩ | ⟨-, hu⟩
    · rcases update_eq_some hq' with ⟨hqp', -⟩ | ⟨-, hu'⟩
      · exact hqp.trans hqp'.symm
      · exact ha.resp q q' v u' (hqp ▸ hp) hu' (hresp.symm.trans heq)
    · rcases update_eq_some hq' with ⟨hqp', rfl⟩ | ⟨-, hu'⟩
      · exact ha.resp q q' u v hu (hqp' ▸ hp) (heq.trans hresp)
      · exact ha.resp q q' u u' hu hu' heq

/-- The sessions have sent what their writers have written. -/
structure Streamed (h : Heap) : Prop where
  apart : Apart h.writers
  fresh : ∀ p, h.nextWriter ≤ p → written p h.log = []
  fed : ∀ p v resp c s, h.writers p = some v → h.responses v.resp = some resp →
    resp.isClose = false → resp.session = some c → h.sessions c = some s →
      Fed v resp s (written p h.log)

theorem Streamed.frame (hst : Streamed h) (hs : Sound ls lw h) (hframe : Frame h h') :
    Streamed h' where
  apart := by
    refine ⟨fun p v' hp => ?_, fun p q v' u' hp hq heq => ?_⟩
    · obtain ⟨v, hv, hstage⟩ := hframe.writers p v' hp
      obtain ⟨-, -, hvideo, haudio⟩ := stage_eq hstage
      rw [← hvideo, ← haudio]
      exact hst.apart.flags p v hv
    · obtain ⟨v, hv, hstage⟩ := hframe.writers p v' hp
      obtain ⟨u, hu, hstage'⟩ := hframe.writers q u' hq
      refine hst.apart.resp p q v u hv hu ?_
      rw [(stage_eq hstage).1, (stage_eq hstage').1, heq]
  fresh p hp := by
    rw [hframe.log]
    exact hst.fresh p (hframe.nextWriter ▸ hp)
  fed p v' resp c s' hp hr hopen hsession hc := by
    obtain ⟨v, hv, hstage⟩ := hframe.writers p v' hp
    obtain ⟨hresp, hready, -⟩ := stage_eq hstage
    have hr₀ := hframe.responses _ resp hr hopen
    obtain ⟨d, t, hd, ht, -⟩ := hs.opened _ resp hr₀ hopen
    have hdc : d = c := by
      rw [hsession, Option.some.injEq] at hd
      exact hd.symm
    have hlt : c < h.nextSession := by
      by_contra hge
      rw [hdc, hs.freshSession c (by omega)] at ht
      cases ht
    obtain ⟨s, hs₀, hsent⟩ := hframe.sessions c s' hc hlt
    have hfed := hst.fed p v resp c s hv (hresp ▸ hr₀) hopen hsession hs₀
    rw [Fed, hready, hsent, ← hframe.log p] at hfed
    exact hfed

/-- Something is sent on the open response of a writer. -/
theorem Streamed.feed (hst : Streamed h) (hs : Sound ls lw h) (hp : h.writers p = some v)
    (hr : h.responses v.resp = some resp) (hopen : resp.isClose = false)
    (hsession : resp.session = some c) (hc : h.sessions c = some s) (v' : Writer)
    (hresp : v'.resp = v.resp) (hvideo : v'.hasVideo = v.hasVideo)
    (haudio : v'.hasAudio = v.hasAudio) (data : Bytes) (log : List Obs)
    (hlog : ∀ q, q ≠ p → written q log = written q h.log)
    (hfed : Fed v' { resp with writtenHeader := true } { s with sent := s.sent ++ data }
      (written p log)) :
    Streamed { (h.send c s v.resp resp data).setWriter p v' with log := log } where
  apart := hst.apart.update hp hresp hvideo haudio
  fresh q hq := by
    have hqp : q ≠ p := by
      rintro rfl
      rw [hs.freshWriter q hq] at hp
      cases hp
    rw [hlog q hqp]
    exact hst.fresh q hq
  fed q u y d t hq hy hyopen hyd hd := by
    rcases update_eq_some hq with ⟨rfl, rfl⟩ | ⟨hqp, hq⟩
    · rcases update_eq_some (hresp ▸ hy) with ⟨-, rfl⟩ | ⟨hne, -⟩
      · have hdc : d = c := Option.some.inj (hyd.symm.trans hsession)
        subst hdc
        rcases update_eq_some hd with ⟨-, rfl⟩ | ⟨hne, -⟩
        · exact hfed
        · exact absurd rfl hne
      · exact absurd rfl hne
    · have hne : u.resp ≠ v.resp := fun heq => hqp (hst.apart.resp q p u v hq hp heq)
      have hy₀ : h.responses u.resp = some y := (Function.update_of_ne hne ..).symm.trans hy
      -- the session of another open response is another one
      have hdc : d ≠ c := by
        rintro rfl
        obtain ⟨e, t', he, ht', hresp', -⟩ := hs.opened _ y hy₀ hyopen
        obtain ⟨e', t'', he', ht'', hresp'', -⟩ := hs.opened _ resp hr hopen
        rw [hyd, Option.some.injEq] at he
        rw [hsession, Option.some.injEq] at he'
        rw [← he] at ht'
        rw [← he', ht', Option.some.injEq] at ht''
        rw [← ht'', hresp', Option.some.injEq] at hresp''
        exact hne hresp''
      have hd₀ : h.sessions d = some t := (Function.update_of_ne hdc ..).symm.trans hd
      rw [hlog q hqp]
      exact hst.fed q u y d t hq hy₀ hyopen hyd hd₀

/-- A writer whose response is closed. -/
theorem Streamed.setClosed (hst : Streamed h) (hp : h.writers p = some v)
    (hr : h.responses v.resp = some resp) (hclose : resp.isClose = true) (v' : Writer)
    (hresp : v'.resp = v.resp) (hvideo : v'.hasVideo = v.hasVideo)
    (haudio : v'.hasAudio = v.hasAudio) : Streamed (h.setWriter p v') where
  apart := hst.apart.update hp hresp hvideo haudio
  fresh := hst.fresh
  fed q u y d t hq hy hyopen hyd hd := by
    rcases update_eq_some hq with ⟨-, rfl⟩ | ⟨-, hq⟩
    · have hsame : y = resp := by
        rw [hresp] at hy
        exact Option.some.inj (hy.symm.trans hr)
      rw [hsame, hclose] at hyopen
      cases hyopen
    · exact hst.fed q u y d t hq hy hyopen hyd hd

/-- The FLV header is there after this, if the response is open. -/
theorem Streamed.sendFlvHeader (hst : Streamed h) (hs : Sound ls lw h) (hp : h.writers p = some v) :
    ∃ h', sendFlvHeader p h = .ok (0, h') ∧ Streamed h' ∧
      h'.writers p = some { v with flvHeaderReady := true } := by
  obtain ⟨hvideo, haudio⟩ := hst.apart.flags p v hp
  by_cases hready : v.flvHeaderReady = true
  · refine ⟨h, ?_, hst, ?_⟩
    · rw [Heap.sendFlvHeader, deref_some hp, Run.ok_bind, if_pos hready]
      rfl
    · rw [hp, ← hready]
  let header := flvFileHeader (FlvMuxer.headerFlag true true)
  have hwrite : Heap.sendFlvHeader p h = writeResponse v.resp header true h >>=
      fun x => .ok (0, x.2.setWriter p { v with flvHeaderReady := true }) := by
    rw [Heap.sendFlvHeader, deref_some hp, Run.ok_bind, if_neg hready,
      if_neg (by simp [haudio]), hvideo, haudio]
    rfl
  obtain ⟨resp, hr⟩ := hs.answered p v hp
  rcases hopen : resp.isClose with _ | _
  · obtain ⟨c, s, hsession, hc, -⟩ := hs.opened _ resp hr hopen
    obtain ⟨-, hwritten, hsent, hnone⟩ :=
      (hst.fed p v resp c s hp hr hopen hsession hc).resolve_right fun h => hready h.1
    have hok : writeResponse v.resp header true h =
        .ok (0, h.send c s v.resp resp (responseHeader 13 true ++ header)) := by
      rw [writeResponse_open hr hopen hsession hc, if_neg (by rw [hwritten]; decide)]
      rfl
    refine ⟨_, by rw [hwrite, hok]; rfl, ?_, setWriter_self ..⟩
    refine hst.feed hs hp hr hopen hsession hc { v with flvHeaderReady := true } rfl rfl rfl
      (responseHeader 13 true ++ header) h.log (fun _ _ => rfl) (Or.inr ⟨rfl, rfl, ?_⟩)
    rw [hnone, hsent]
    exact (List.append_nil _).symm
  · refine ⟨_, by rw [hwrite, writeResponse_closed hr (by simp [hopen])]; rfl, ?_,
      setWriter_self ..⟩
    exact hst.setClosed hp hr hopen { v with flvHeaderReady := true } rfl rfl rfl

theorem written_wrote {q : Nat} {log : List Obs} :
    written q (log ++ [.wrote p pkt]) = written q log ++ if p = q then [pkt] else [] := by
  rw [written, List.filterMap_append]
  by_cases hpq : p = q
  · simp [hpq, written]
  · simp [hpq, written]

/-- A packet is sent as one whole tag, or not at all. -/
theorem Streamed.writePacket (hst : Streamed h) (hs : Sound ls lw h) (hp : h.writers p = some v)
    {ret : Int} (hok : writePacket pkt p h = .ok (ret, h')) : Streamed h' := by
  obtain ⟨h₁, hheader, hst₁, hp₁⟩ := hst.sendFlvHeader hs hp
  obtain ⟨ret₁, h₁', hheader', hs₁, -⟩ := sendFlvHeader_spec hs hp
  rw [hheader, Except.ok.injEq, Prod.mk.injEq] at hheader'
  obtain ⟨-, rfl⟩ := hheader'
  rw [Heap.writePacket, hheader, Run.ok_bind] at hok
  rcases htag : tagType pkt with _ | tag
  · rw [htag] at hok
    cases hok
    exact hst₁
  rw [htag] at hok
  let v₁ : Writer := { v with flvHeaderReady := true }
  obtain ⟨resp, hr⟩ := hs₁.answered p v₁ hp₁
  have hrest : (deref (h₁.writers p) >>= fun v =>
      writeParts v.resp (tagParts tag pkt) h₁ >>= fun x =>
      if x.1 < 0 then .ok x else keepWriter p x.2 >>= fun h => .ok (0, h.record (.wrote p pkt))) =
      .ok (ret, h') := hok
  rw [deref_some hp₁, Run.ok_bind] at hrest
  rcases hopen : resp.isClose with _ | _
  · obtain ⟨c, s, hsession, hc, -⟩ := hs₁.opened _ resp hr hopen
    obtain ⟨-, hwritten, hsent⟩ :=
      (hst₁.fed p v₁ resp c s hp₁ hr hopen hsession hc).resolve_left fun h => by cases h.1
    rw [writeParts_open hr hopen hsession hwritten hc, Run.ok_bind] at hrest
    have hkeep : keepWriter p (h₁.send c s v₁.resp resp (tagParts tag pkt).flatten) =
        .ok ((h₁.send c s v₁.resp resp (tagParts tag pkt).flatten).setWriter p
          { v₁ with aliver := v₁.aliver.keepAlive }) := by
      rw [keepWriter, deref_some (by exact hp₁)]
      rfl
    have heq : h' = { (h₁.send c s v₁.resp resp (tagParts tag pkt).flatten).setWriter p
        { v₁ with aliver := v₁.aliver.keepAlive } with log := h₁.log ++ [.wrote p pkt] } := by
      rw [if_neg (show ¬ (0 : Int) < 0 by decide), hkeep, Run.ok_bind] at hrest
      cases hrest
      rfl
    rw [heq]
    refine hst₁.feed hs₁ hp₁ hr hopen hsession hc { v₁ with aliver := v₁.aliver.keepAlive } rfl
      rfl rfl (tagParts tag pkt).flatten (h₁.log ++ [.wrote p pkt]) (fun q hq => ?_)
      (Or.inr ⟨rfl, rfl, ?_⟩)
    · rw [written_wrote, if_neg (Ne.symm hq), List.append_nil]
    · rw [written_wrote, if_pos rfl, clientBytes, List.flatMap_append, ← List.append_assoc]
      show s.sent ++ _ = _
      rw [hsent, clientBytes, List.flatMap_singleton, tagBytes, htag]
  · rw [tagParts, writeParts, writeResponse_closed hr (by simp [hopen]), Run.ok_bind] at hrest
    cases hrest
    exact hst₁

/-- A new response has no writer yet. -/
theorem Streamed.answer (hst : Streamed h) (hs : Sound ls lw h) (hc : h.sessions c = some s) :
    Streamed (h.answer c s) ∧
      ∀ q u, (h.answer c s).writers q = some u → u.resp ≠ h.nextResponse := by
  have hnew : ∀ q u, h.writers q = some u → u.resp ≠ h.nextResponse := by
    intro q u hq heq
    obtain ⟨resp, hr⟩ := hs.answered q u hq
    rw [heq, hs.freshResponse _ (Nat.le_refl _)] at hr
    cases hr
  refine ⟨⟨hst.apart, hst.fresh, ?_⟩, hnew⟩
  intro q u y d t hq hy hyopen hyd hd
  have hy₀ : h.responses u.resp = some y :=
    (Function.update_of_ne (hnew q u hq) ..).symm.trans hy
  rcases update_eq_some hd with ⟨rfl, rfl⟩ | ⟨-, hd₀⟩
  · exact hst.fed q u y d s hq hy₀ hyopen hyd hc
  · exact hst.fed q u y d t hq hy₀ hyopen hyd hd₀

/-- A new writer has written nothing yet. -/
theorem Streamed.enlist {r : Nat} (hst : Streamed h)
    (hnew : ∀ q u, h.writers q = some u → u.resp ≠ r) (hr : h.responses r = some resp)
    (hwritten : resp.writtenHeader = false)
    (hsent : ∀ d t, resp.session = some d → h.sessions d = some t → t.sent = [])
    (uuid : Nat → Bytes) (key : Bytes) : Streamed (h.enlist uuid key r) := by
  have hlog : ∀ q, written q (h.enlist uuid key r).log = written q h.log :=
    fun q => (List.filterMap_append ..).trans (List.append_nil _)
  refine ⟨⟨?_, ?_⟩, ?_, ?_⟩
  · intro q u hq
    rcases update_eq_some hq with ⟨-, rfl⟩ | ⟨-, hq⟩
    · exact ⟨rfl, rfl⟩
    · exact hst.apart.flags q u hq
  · intro q q' u u' hq hq' heq
    rcases update_eq_some hq with ⟨hqn, rfl⟩ | ⟨-, hu⟩
    · rcases update_eq_some hq' with ⟨hqn', -⟩ | ⟨-, hu'⟩
      · exact hqn.trans hqn'.symm
      · exact absurd heq.symm (hnew q' u' hu')
    · rcases update_eq_some hq' with ⟨-, rfl⟩ | ⟨-, hu'⟩
      · exact absurd heq (hnew q u hu)
      · exact hst.apart.resp q q' u u' hu hu' heq
  · intro q hq
    rw [hlog]
    have hlt : h.nextWriter + 1 ≤ q := hq
    exact hst.fresh q (by omega)
  · intro q u y d t hq hy hyopen hyd hd
    rw [hlog]
    rcases update_eq_some hq with ⟨rfl, rfl⟩ | ⟨-, hu⟩
    · obtain rfl : y = resp := Option.some.inj (hy.symm.trans hr)
      exact Or.inl ⟨rfl, hwritten, hsent d t hyd hd, hst.fresh _ (Nat.le_refl _)⟩
    · exact hst.fed q u y d t hu hy hyopen hyd hd

end Streamed

end Heap

/-! ## Runs -/

namespace World

open HttpflvServer.Heap MediaStreamManager

variable {τ V : Type} {others : AvWriterBase τ V} {uuid : Nat → Bytes} {w w' : World τ V}
  {c p : Nat} {s : Session} {f : Fault}

theorem withHeap_ok {g : Heap → Except Fault Heap} (hok : w.withHeap g = .ok w') :
    g w.heap = .ok w'.heap := by
  obtain ⟨h, hg, hok⟩ := Run.exists_of_bind_ok hok
  cases hok
  exact hg

theorem ofFault_ok {α : Type} {x : Except Fault α} {a : α} (hok : ofFault x = .ok a) :
    x = .ok a := by
  rcases x with e | b
  · cases hok
  · cases hok
    rfl

theorem checkWriter_frame {e : Bytes × Nat} (hok : checkWriter others w e = .ok w') :
    Frame w.heap w'.heap := by
  obtain ⟨v, hp, hok⟩ := Run.exists_of_bind_ok hok
  have hframe : Frame w.heap (w.heap.setWriter e.2 { v with aliver := v.aliver.isAlive.2 }) :=
    frame_setWriter (deref_eq_ok hp) rfl
  dsimp only at hok
  split at hok
  · cases hok
    exact hframe
  · obtain ⟨streams, -, hok⟩ := Run.exists_of_bind_ok hok
    obtain ⟨h, hdelete, hok⟩ := Run.exists_of_bind_ok hok
    cases hok
    exact (hframe.unlist e.1).trans (deleteWriter_frame hdelete)

theorem onCheckAlive_frame (hok : onCheckAlive others w = .ok w') : Frame w.heap w'.heap :=
  (frame_record (fun _ => rfl) w.heap).trans
    (Run.rel_of_foldlM (f := checkWriter others)
      (R := fun w w' : World τ V => Frame w.heap w'.heap) (fun w => Frame.refl w.heap)
      (fun _ _ _ h₁ h₂ => h₁.trans h₂) (fun _ _ _ => checkWriter_frame) hok)

/-- A session that changes while nothing is sent. -/
theorem frame_heard {h : Heap} {s' : Session} (hc : h.sessions c = some s)
    (hsent : s'.sent = s.sent) : Frame h ((h.setSession c s').record (.heard c)) :=
  (frame_setSession hc hsent).trans (frame_record (fun _ => rfl) _)

theorem onWrite_frame {retCode : Int} (hok : onWrite c retCode w = .ok w') :
    Frame w.heap w'.heap := by
  rw [onWrite] at hok
  split at hok
  · cases hok
  · next s hc =>
    split at hok
    · cases hok
      exact .refl _
    · obtain ⟨h, hclose, hok⟩ := Run.exists_of_bind_ok hok
      cases hok
      have hframe : Frame w.heap ((w.heap.setSession c
          { s with aliver := s.aliver.keepAlive }).record (.heard c)) := frame_heard hc rfl
      split at hclose
      · exact hframe.trans (closeSession_frame (ofFault_ok hclose))
      · cases hclose
        exact hframe

theorem handle_streamed (hset : Settled w.heap) (hst : Streamed w.heap)
    (hc : w.heap.sessions c = some s) (hresp : s.response = none) (hsent : s.sent = [])
    (hopen : s.isClosed = false) (hreading : s.reading = false)
    (hok : handle others uuid c w = .ok w') : Streamed w'.heap := by
  have hset₁ := hset.answer hc hresp hopen hreading
  obtain ⟨hst₁, hnew⟩ := hst.answer hset.sound hc
  have hhandle : httpflvHandle others uuid s.input.request.uri w.heap.nextResponse
      { w with heap := w.heap.answer c s } = .ok w' := by
    rw [← hok, handle, deref_some hc]
    rfl
  rw [httpflvHandle] at hhandle
  split at hhandle
  · exact hst₁.frame hset₁.sound (closeResponse_frame (withHeap_ok hhandle))
  · next key _ =>
    obtain ⟨streams, -, hhandle⟩ := Run.exists_of_bind_ok hhandle
    cases hhandle
    have hr₁ : (w.heap.answer c s).responses w.heap.nextResponse = some { session := some c } :=
      setResponse_self ..
    refine hst₁.enlist hnew hr₁ rfl (fun d t hd ht => ?_) uuid key
    obtain rfl : c = d := Option.some.inj hd
    rw [answer, setSession_self, Option.some.injEq] at ht
    rw [← ht]
    exact hsent

theorem onRead_streamed (hw : Sound w) (hst : Streamed w.heap) {read : Option Bytes}
    (hsteady : ∀ s, w.heap.sessions c = some s → read ≠ none → s.failed = false)
    (hok : onRead others uuid c read w = .ok w') : Streamed w'.heap := by
  rcases hc : w.heap.sessions c with _ | s
  · rw [onRead, hc] at hok
    cases hok
  have hwaits := hw.settled.sound.waits c s hc
  by_cases hreading : s.reading = true
  swap
  · rw [onRead, hc] at hok
    dsimp only at hok
    rw [if_pos (by simpa using hreading)] at hok
    cases hok
    exact hst
  have hresp := hwaits.response hreading
  rw [onRead_eq hw.settled hc hreading] at hok
  rcases htake : s.input.takeData (read.getD []) with e | ⟨found, input⟩
  · rw [htake] at hok
    cases hok
  rw [htake] at hok
  have hset₁ : Settled (hearing c read input s w.heap) :=
    hw.settled.hear (woken read input s) hc rfl rfl (fun h => absurd hresp h) (.of_not_reading rfl)
      rfl
  have hst₁ : Streamed (hearing c read input s w.heap) :=
    hst.frame hw.settled.sound (frame_heard hc rfl)
  rcases found with _ | _ | body
  · exact hst₁.frame hset₁.sound (onClose_frame (withHeap_ok (ofFault_ok hok)))
  · cases hok
    exact hst.frame hw.settled.sound (frame_heard hc rfl)
  · have hc₁ : (hearing c read input s w.heap).sessions c = some (woken read input s) :=
      setSession_self ..
    exact handle_streamed (w := { w with heap := hearing c read input s w.heap }) hset₁ hst₁ hc₁
      hresp (hwaits.sent hreading) (open_of_complete hwaits hreading htake (hsteady s hc)) rfl
      (ofFault_ok hok)

/-- The players of a stream are there. -/
theorem Sound.live (hw : Sound w) {k : Bytes} {stream : MediaStream (Nat ⊕ V)}
    (hk : w.streams k = some stream) : ∀ entry ∈ stream.writerMap, Live w.heap entry.2 := by
  intro entry hentry
  rcases hplayer : entry.2 with p | v
  · obtain ⟨v, hv, -⟩ := hw.entries k stream hk entry hentry p hplayer
    exact ⟨v, hv⟩
  · exact trivial

theorem packet_streamed (hn : NeverFaults others f fun _ => True) (hw : Sound w)
    (hst : Streamed w.heap) (pkt : MediaPacket) (hok : step others uuid (.packet pkt) w = .ok w') :
    Streamed w'.heap := by
  have hwrite : ∀ {pkt player st x}, Live w.heap player →
      (Heap.Sound (fun _ => 0) (fun _ => 0) st.1 ∧ Served w.heap st.1) → Streamed st.1 →
      (players others).writePacket pkt player st = .ok x → Streamed x.2.1 := by
    rintro pkt (p | v) ⟨h, t⟩ x hlive ⟨hs, hserved⟩ hst hx
    · obtain ⟨v₀, hv₀⟩ := hlive
      obtain ⟨v, hp, -⟩ := hserved.exists_writer' hv₀
      obtain ⟨⟨ret, h'⟩, hpacket, hx⟩ := Run.exists_of_bind_ok hx
      cases hx
      exact hst.writePacket hs hp hpacket
    · obtain ⟨⟨ret, t'⟩, -, hx⟩ := Run.exists_of_bind_ok hx
      cases hx
      exact hst
  have hinit : ∀ {flag player st st'}, Live w.heap player →
      (Heap.Sound (fun _ => 0) (fun _ => 0) st.1 ∧ Served w.heap st.1) → Streamed st.1 →
      (players others).setInitFlag flag player st = .ok st' → Streamed st'.1 := by
    rintro flag (p | v) ⟨h, t⟩ st' - ⟨hs, -⟩ hst hx
    · obtain ⟨v, hp, hx⟩ := Run.exists_of_bind_ok hx
      cases hx
      have hframe : Frame h (h.setWriter p { v with initFlag := flag }) :=
        frame_setWriter (deref_eq_ok hp) rfl
      exact hst.frame hs hframe
    · obtain ⟨t', -, hx⟩ := Run.exists_of_bind_ok hx
      cases hx
      exact hst
  have hguards := (guards_players hn w.heap).and (P := fun st => Streamed st.1) hwrite hinit
  obtain ⟨⟨st, streams⟩, hpacket, hok⟩ := Run.exists_of_bind_ok hok
  cases hok
  exact ((hguards.writerMediaPacket (fun _ => hw.live)
    ⟨⟨hw.settled.sound, Served.refl _⟩, hst⟩).of_eq_ok (ofFault_ok hpacket)).1.2

theorem step_streamed (hn : NeverFaults others f fun _ => True) (hw : Sound w)
    (hst : Streamed w.heap) {e : Event V} (hsteady : e.Steady w)
    (hok : step others uuid e w = .ok w') : Streamed w'.heap := by
  have hs := hw.settled.sound
  cases e with
  | accept endpoint => exact hst.frame hs (onAccept_frame (withHeap_ok (ofFault_ok hok)))
  | read c data =>
    refine onRead_streamed hw hst (fun s hc _ => ?_) hok
    rw [Event.Steady, hc] at hsteady
    simpa using hsteady
  | readFailed c => exact onRead_streamed hw hst (fun _ _ hne => absurd rfl hne) hok
  | wrote c retCode => exact hst.frame hs (onWrite_frame hok)
  | timer => exact hst.frame hs (onTimer_frame (withHeap_ok (ofFault_ok hok)))
  | checkAlive => exact hst.frame hs (onCheckAlive_frame (ofFault_ok hok))
  | packet pkt => exact packet_streamed hn hw hst pkt hok
  | addPublisher _ | removePublisher _ =>
    cases hok
    exact hst
  | addOther _ | removeOther _ =>
    obtain ⟨streams, -, hok⟩ := Run.exists_of_bind_ok hok
    cases hok
    exact hst

theorem streamed_start (t : τ) : Streamed (start t : World τ V).heap := by
  have hnone : ∀ {α : Type} {a : α}, ¬ none = some a := fun h => by cases h
  refine ⟨⟨fun _ _ h => (hnone h).elim, fun _ _ _ _ h => (hnone h).elim⟩, fun _ _ => rfl, ?_⟩
  exact fun _ _ _ _ _ h => (hnone h).elim

theorem run_streamed (hn : NeverFaults others f fun _ => True) {t : τ} {events : List (Event V)}
    (hsteady : Run.Along (step others uuid) Event.Steady events (start t))
    (hrun : Run.run (step others uuid) events (start t) = .ok w) : Streamed w.heap := by
  have hstep : ∀ (e : Event V) (w w' : World τ V), Sound w ∧ Streamed w.heap → e.Steady w →
      step others uuid e w = .ok w' → Sound w' ∧ Streamed w'.heap := by
    intro e w w' h hsteady hok
    exact ⟨(step_ok_spec hn h.1 hsteady hok).1, step_streamed hn h.1 h.2 hsteady hok⟩
  exact (Run.run_invariant hstep ⟨sound_start t, streamed_start t⟩ hsteady hrun).2

/-- The first writer has written `pkts`, and its response goes to the first session. -/
def serves (pkts : List MediaPacket) (w : World τ V) : Bool :=
  decide (written 0 w.heap.log = pkts) && ((w.heap.sessions 0).isSome &&
    (w.heap.writers 0).any fun v => v.resp = 0 &&
      (w.heap.responses 0).any fun resp => !resp.isClose && resp.session = some 0)

theorem exists_of_serves {pkts : List MediaPacket} (hw : serves pkts w = true) :
    written 0 w.heap.log = pkts ∧ ∃ s v, w.heap.sessions 0 = some s ∧
      w.heap.writers 0 = some v ∧ w.heap.Open v.resp 0 := by
  rw [serves, Bool.and_eq_true, Bool.and_eq_true, decide_eq_true_eq] at hw
  obtain ⟨hwritten, hsession, hwriter⟩ := hw
  obtain ⟨s, hs⟩ := Option.isSome_iff_exists.mp hsession
  obtain ⟨v, hv, hresp⟩ := (Option.any_eq_true ..).mp hwriter
  rw [Bool.and_eq_true, decide_eq_true_eq] at hresp
  obtain ⟨resp, hr, hopen⟩ := (Option.any_eq_true ..).mp hresp.2
  rw [Bool.and_eq_true, Bool.not_eq_true', decide_eq_true_eq] at hopen
  exact ⟨hwritten, s, v, hs, hv, resp, hresp.1 ▸ hr, hopen⟩

/-- **What a client is sent.**  In every state that a run reaches, the client of a response that
is open has been sent nothing, or the HTTP header, the FLV header and the tags of the packets
that its writer has written since it was made, each of them whole, once and in order.  The
sockets are steady, and a late callback ends the run. -/
theorem client_bytes (others : AvWriterBase τ V) (uuid : Nat → Bytes) (f : Fault)
    (hn : NeverFaults others f fun _ => True) (t : τ) (events : List (Event V))
    (hsteady : Run.Along (step others uuid) Event.Steady events (start t)) (w : World τ V)
    (hrun : Run.run (step others uuid) events (start t) = .ok w) (p c : Nat) (v : Writer)
    (s : Session) (hp : w.heap.writers p = some v) (hopen : w.heap.Open v.resp c)
    (hc : w.heap.sessions c = some s) :
    (s.sent = [] ∧ written p w.heap.log = []) ∨ s.sent = clientBytes (written p w.heap.log) := by
  have hst := run_streamed hn hsteady hrun
  obtain ⟨resp, hr, hclose, hsession⟩ := hopen
  rcases hst.fed p v resp c s hp hr hclose hsession hc with ⟨-, -, hsent, hnone⟩ | ⟨-, -, hsent⟩
  · exact Or.inl ⟨hsent, hnone⟩
  · exact Or.inr hsent

theorem client_bytes_client :
    ∃ w s, Run.run (step StreamMap.halfBroken sampleUuid) clientEvents (start ()) = .ok w ∧
      w.heap.sessions 0 = some s ∧ written 0 w.heap.log = [samplePacket true] ∧
      s.sent = clientBytes [samplePacket true] := by
  obtain ⟨w, hrun, hw⟩ := Run.exists_of_map_toOption
    (x := Run.run (step StreamMap.halfBroken sampleUuid) clientEvents (start ()))
    (f := serves [samplePacket true]) (b := true) (by decide +kernel)
  obtain ⟨hwritten, s, v, hs, hv, hopen⟩ := exists_of_serves hw
  have hsteady : Run.Along (step StreamMap.halfBroken sampleUuid) Event.Steady clientEvents
      (start ()) := by
    decide +kernel
  have hbytes := client_bytes StreamMap.halfBroken sampleUuid .useAfterFree
    (neverFaults_halfBroken _) () clientEvents hsteady w hrun 0 0 v s hv
    hopen hs
  rw [hwritten] at hbytes
  refine ⟨w, s, hrun, hs, hwritten, ?_⟩
  rcases hbytes with ⟨-, hnone⟩ | hbytes
  · cases hnone
  · exact hbytes

end World

end HttpflvServer

end MediaServer
