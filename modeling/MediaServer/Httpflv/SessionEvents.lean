import Mathlib.Tactic.Common
import MediaServer.Httpflv.HeapSoundness
import MediaServer.Lib.Guarded

/-!
# The sessions of the HTTP-FLV server

What an accept, a write that has ended and the timer of the sessions do with a sound heap.
The map of the server has the sessions that are there, each under its endpoint
(`Heap.Mapped`), and none of them has been silent for six ticks (`Heap.Settled`).

The timer goes through a copy of the map.  `Ticking` is the invariant of its loop, where the
sessions that are left to check have one tick still to count.
-/

namespace MediaServer

namespace HttpflvServer

namespace Heap

variable {ls lw : Nat → Nat} {P : Obs → Prop} {h h' : Heap} {c : Nat} {s : Session}

/-- `session_ptr_map_` has the sessions that are there. -/
def Mapped (h : Heap) : Prop :=
  ∀ key c, h.sessionPtrMap.find? key = some c ↔
    (h.sessions c).map Session.remoteEndpoint = some key

/-- The heap between two events. -/
structure Settled (h : Heap) : Prop where
  sound : Sound (fun _ => 0) (fun _ => 0) h
  mapped : Mapped h
  heard : ∀ c s, h.sessions c = some s → s.aliver.notAliveCnt ≤ 5

theorem Mapped.served (hm : Mapped h) (hserved : Served h h') : Mapped h' := by
  intro key c
  rw [hserved.sessionPtrMap, hserved.sessions]
  exact hm key c

theorem Mapped.find?_self (hm : Mapped h) (hc : h.sessions c = some s) :
    h.sessionPtrMap.find? s.remoteEndpoint = some c := by
  rw [hm, hc]
  rfl

/-- The invariant does not look at the map of the server. -/
theorem Sound.withMap (hs : Sound ls lw h) (m : OrderedMap Bytes Nat) :
    Sound ls lw { h with sessionPtrMap := m } :=
  ⟨hs.waits, hs.responded, hs.opened, hs.answered, hs.handled, hs.unfed, hs.unheard,
    hs.freshSession, hs.freshResponse, hs.freshWriter⟩

/-- A session goes together with its entry. -/
theorem Mapped.drop (hm : Mapped h) {key : Bytes} (hkey : h.sessionPtrMap.find? key = some c)
    (hdropped : Dropped c { h with sessionPtrMap := h.sessionPtrMap.erase key } h') :
    Mapped h' := by
  intro k d
  rw [hdropped.sessionPtrMap, hdropped.sessions]
  by_cases hk : k = key
  · rw [hk, OrderedMap.find?_erase_self]
    by_cases hdc : d = c
    · rw [hdc, Function.update_self]
      simp
    · rw [Function.update_of_ne hdc]
      refine ⟨(fun hd => by cases hd), fun hd => absurd ?_ hdc⟩
      have hd' := (hm key d).mpr hd
      rw [hkey, Option.some.injEq] at hd'
      exact hd'.symm
  · rw [OrderedMap.find?_erase_of_ne hk]
    by_cases hdc : d = c
    · rw [hdc, Function.update_self]
      refine ⟨fun hd => absurd ?_ hk, fun hd => by cases hd⟩
      rw [hm k c, (hm key c).mp hkey, Option.some.injEq] at hd
      exact hd.symm
    · rw [Function.update_of_ne hdc]
      exact hm k d

/-- Nothing is heard of a session while something is written. -/
theorem Served.unheard (hserved : Served h h') (c : Nat) :
    HttpflvServer.unheard c h'.log = HttpflvServer.unheard c h.log := by
  obtain ⟨obs, hlog, hobs⟩ := hserved.log
  rw [hlog]
  clear hlog
  induction obs using List.reverseRecOn with
  | nil => rw [List.append_nil]
  | append_singleton obs o ih =>
    obtain ⟨p, pkt, -, -, rfl, -⟩ := (hobs o (by simp)).resolve_left id
    rw [← List.append_assoc, unheard_wrote]
    exact ih fun o' ho' => hobs o' (by simp [ho'])

theorem Served.heard (hserved : Served h h') (hs : Sound ls lw h)
    (hcount : ∀ c s, h'.sessions c = some s →
      HttpflvServer.unheard c h'.log = some (s.aliver.notAliveCnt + ls c))
    (hheard : ∀ c s, h.sessions c = some s → s.aliver.notAliveCnt ≤ 5) :
    ∀ c s, h'.sessions c = some s → s.aliver.notAliveCnt ≤ 5 := by
  intro c s' hc'
  have hmap := hserved.sessions c
  rw [hc', Option.map_some] at hmap
  obtain ⟨s, hc, -⟩ := Option.map_eq_some_iff.mp hmap.symm
  have hsame := hcount c s' hc'
  rw [hserved.unheard, (hs.unheard c s hc).2, Option.some.injEq] at hsame
  have hle := hheard c s hc
  omega

theorem Settled.served (hset : Settled h) (hs' : Sound (fun _ => 0) (fun _ => 0) h')
    (hserved : Served h h') : Settled h' :=
  ⟨hs', hset.mapped.served hserved,
    hserved.heard hset.sound (fun c s hc => (hs'.unheard c s hc).2) hset.heard⟩

theorem Dropped.quiet (hdropped : Dropped c h h') : Quiet P h h' :=
  .of_log hdropped.writers hdropped.handleMap hdropped.nextWriter hdropped.nextSession.ge
    hdropped.closed
    (hdropped.log.trans (List.append_nil _).symm)
      fun _ ho => absurd ho List.not_mem_nil

/-! ## A session that is heard of -/

theorem setSession_idem (c : Nat) (s t : Session) (h : Heap) :
    (h.setSession c s).setSession c t = h.setSession c t := by
  simp only [setSession, Function.update_idem]

theorem Sound.hear (hs : Sound ls lw h) (hc : h.sessions c = some s) (hls : ls c = 0) :
    Sound ls lw ((h.setSession c { s with aliver := s.aliver.keepAlive }).record (.heard c)) := by
  refine ⟨hs.waits_update (hs.waits c s hc).of_aliver, hs.responded_update hc rfl,
    hs.opened_update hc rfl fun _ => rfl, hs.answered, hs.handled, ?_, ?_,
    fresh_update hs.freshSession hc, hs.freshResponse, hs.freshWriter⟩
  · intro id q v hid hq
    show _ ∧ HttpflvServer.unfed q (h.log ++ [.heard c]) = _
    rw [unfed_heard]
    exact hs.unfed id q v hid hq
  · intro d t hd
    show _ ∧ HttpflvServer.unheard d (h.log ++ [.heard c]) = _
    rw [unheard_heard]
    rcases update_eq_some hd with ⟨rfl, rfl⟩ | ⟨hdc, hd⟩
    · obtain ⟨hmax, hcount⟩ := hs.unheard d s hc
      refine ⟨hmax, ?_⟩
      rw [hcount, Option.map_some, if_pos rfl, hls]
      rfl
    · obtain ⟨hmax, hcount⟩ := hs.unheard d t hd
      refine ⟨hmax, ?_⟩
      rw [hcount, Option.map_some, if_neg (Ne.symm hdc)]

/-- What a callback leaves of its session. -/
structure Heard (c : Nat) (h h' : Heap) : Prop extends Quiet (fun o => o = .heard c) h h' where
  sessions : ∀ d, (h'.sessions d).map Session.remoteEndpoint =
    (h.sessions d).map Session.remoteEndpoint
  sessionPtrMap : h'.sessionPtrMap = h.sessionPtrMap

theorem heard_record (hc : h.sessions c = some s) (s' : Session)
    (hend : s'.remoteEndpoint = s.remoteEndpoint) :
    Heard c h ((h.setSession c s').record (.heard c)) where
  toQuiet := @Quiet.of_log _ h ((h.setSession c s').record (.heard c)) [.heard c] rfl rfl rfl
    (Nat.le_of_eq rfl) (fun _ _ hr => hr) rfl
      fun _ ho => List.mem_singleton.mp ho
  sessions := map_update hc hend
  sessionPtrMap := rfl

/-- A callback that only changes its session. -/
theorem Settled.hear (hset : Settled h) (s' : Session) (hc : h.sessions c = some s)
    (hend : s'.remoteEndpoint = s.remoteEndpoint) (hresp : s'.response = s.response)
    (hclosed : s.response ≠ none → s'.isClosed = s.isClosed) (hwaits : s'.Waits)
    (haliver : s'.aliver = s.aliver.keepAlive) :
    Settled ((h.setSession c s').record (.heard c)) := by
  have hwaits' : ({ s' with aliver := s.aliver } : Session).Waits :=
    ⟨hwaits.response, hwaits.sent, hwaits.isOpen, hwaits.input⟩
  obtain ⟨hs₁, -⟩ := hset.sound.setSession { s' with aliver := s.aliver } hc hend hresp hclosed rfl
    hwaits'
  have hs' := hs₁.hear (setSession_self ..) rfl
  rw [setSession_idem, ← haliver] at hs'
  refine ⟨hs', fun key d => ?_, fun d t hd => ?_⟩
  · rw [(heard_record hc s' hend).sessions]
    exact hset.mapped key d
  · rcases update_eq_some hd with ⟨-, rfl⟩ | ⟨-, hd⟩
    · rw [haliver]
      exact Nat.zero_le 5
    · exact hset.heard d t hd

/-- `on_close`. -/
theorem onClose_spec (hset : Settled h) {endpoint : Bytes} :
    ∃ h', World.onClose endpoint h = .ok h' ∧ Settled h' ∧ Quiet P h h' := by
  rw [World.onClose]
  rcases hkey : h.sessionPtrMap.find? endpoint with _ | c
  · exact ⟨h, rfl, hset, (Served.refl h).toQuiet.mono fun _ => False.elim⟩
  obtain ⟨s, hc, -⟩ := Option.map_eq_some_iff.mp ((hset.mapped endpoint c).mp hkey)
  obtain ⟨h', hdestroy, hs', hdropped⟩ :=
    destroySession_spec (hset.sound.withMap (h.sessionPtrMap.erase endpoint)) hc
  refine ⟨h', hdestroy, ⟨hs', hset.mapped.drop hkey hdropped, fun d t hd => ?_⟩, ?_⟩
  · rw [hdropped.sessions] at hd
    by_cases hdc : d = c
    · rw [hdc, Function.update_self] at hd
      cases hd
    · rw [Function.update_of_ne hdc] at hd
      exact hset.heard d t hd
  · exact .of_log hdropped.writers hdropped.handleMap hdropped.nextWriter
      hdropped.nextSession.ge hdropped.closed
      (hdropped.log.trans (List.append_nil _).symm)
      fun _ ho => absurd ho List.not_mem_nil

/-! ## Accepts and writes -/

/-- The heap with a new session. -/
def accepted (endpoint : Bytes) (h : Heap) : Heap :=
  ({ h with nextSession := h.nextSession + 1 }.setSession h.nextSession
    { remoteEndpoint := endpoint }).record (.accepted h.nextSession)

theorem Sound.accepted (hs : Sound ls lw h) (endpoint : Bytes) (hls : ls h.nextSession = 0) :
    Sound ls lw (h.accepted endpoint) := by
  have hfresh : h.sessions h.nextSession = none := hs.freshSession _ (Nat.le_refl _)
  refine ⟨?_, ?_, ?_, hs.answered, hs.handled, ?_, ?_, ?_, hs.freshResponse, hs.freshWriter⟩
  · intro d t hd
    rcases update_eq_some hd with ⟨-, rfl⟩ | ⟨-, hd⟩
    · exact ⟨fun _ => rfl, fun _ => rfl, fun _ h => absurd h Bool.false_ne_true, fun _ => rfl⟩
    · exact hs.waits d t hd
  · intro d t r hd ht
    rcases update_eq_some hd with ⟨-, rfl⟩ | ⟨-, hd⟩
    · cases ht
    · exact hs.responded d t r hd ht
  · intro r resp hr hopen
    obtain ⟨d, t, hsession, hd, ht⟩ := hs.opened r resp hr hopen
    have hdc : d ≠ h.nextSession := by
      rintro rfl
      rw [hfresh] at hd
      cases hd
    exact ⟨d, t, hsession, (Function.update_of_ne hdc ..).trans hd, ht⟩
  · intro id q v hid hq
    show _ ∧ HttpflvServer.unfed q (h.log ++ [.accepted h.nextSession]) = _
    rw [unfed_accepted]
    exact hs.unfed id q v hid hq
  · intro d t hd
    show _ ∧ HttpflvServer.unheard d (h.log ++ [.accepted h.nextSession]) = _
    rw [unheard_accepted]
    rcases update_eq_some hd with ⟨rfl, rfl⟩ | ⟨hdc, hd⟩
    · rw [if_pos rfl, hls]
      exact ⟨rfl, rfl⟩
    · rw [if_neg (Ne.symm hdc)]
      exact hs.unheard d t hd
  · intro d hd
    have hlt : h.nextSession + 1 ≤ d := hd
    exact (Function.update_of_ne (by omega) ..).trans (hs.freshSession d (by omega))

theorem onAccept_new {endpoint : Bytes} (hkey : h.sessionPtrMap.find? endpoint = none) :
    World.onAccept endpoint h = .ok { h.accepted endpoint with
      sessionPtrMap := h.sessionPtrMap.assign endpoint h.nextSession } := by
  unfold World.onAccept
  dsimp only
  split
  · rfl
  · next heq => cases hkey.symm.trans heq

/-- A session whose endpoint has one already goes at once. -/
theorem onAccept_known {endpoint : Bytes} (hkey : h.sessionPtrMap.find? endpoint = some c) :
    World.onAccept endpoint h = destroySession h.nextSession (h.accepted endpoint) := by
  unfold World.onAccept
  dsimp only
  split
  · next heq => cases hkey.symm.trans heq
  · rfl

theorem onAccept_spec (hset : Settled h) (endpoint : Bytes) :
    ∃ h', World.onAccept endpoint h = .ok h' ∧ Settled h' ∧
      Quiet (fun o => o = .accepted h.nextSession) h h' := by
  have hfresh : h.sessions h.nextSession = none :=
    hset.sound.freshSession _ (Nat.le_refl _)
  have hs₁ := hset.sound.accepted endpoint rfl
  have hc₁ : (h.accepted endpoint).sessions h.nextSession = some { remoteEndpoint := endpoint } :=
    setSession_self ..
  have hquiet : Quiet (fun o => o = .accepted h.nextSession) h (h.accepted endpoint) :=
    @Quiet.of_log _ h (h.accepted endpoint) [.accepted h.nextSession] rfl rfl rfl
      (show h.nextSession ≤ h.nextSession + 1 by omega) (fun _ _ hr => hr) rfl
      fun _ ho => List.mem_singleton.mp ho
  have hheard : ∀ d t, (h.accepted endpoint).sessions d = some t → t.aliver.notAliveCnt ≤ 5 := by
    intro d t hd
    rcases update_eq_some hd with ⟨-, rfl⟩ | ⟨-, hd⟩
    · exact Nat.zero_le 5
    · exact hset.heard d t hd
  rcases hkey : h.sessionPtrMap.find? endpoint with _ | c
  · refine ⟨_, onAccept_new hkey, ⟨hs₁.withMap _, ?_, hheard⟩, ⟨hquiet.writers,
      hquiet.handleMap, hquiet.nextWriter, hquiet.nextSession, hquiet.closed, hquiet.log⟩⟩
    intro key d
    show (h.sessionPtrMap.assign endpoint h.nextSession).find? key = some d ↔
      (Function.update h.sessions h.nextSession _ d).map _ = some key
    by_cases hd : d = h.nextSession
    · rw [hd, Function.update_self]
      by_cases hk : key = endpoint
      · rw [hk, OrderedMap.find?_assign_self]
        exact ⟨fun _ => rfl, fun _ => rfl⟩
      · rw [OrderedMap.find?_assign_of_ne hk, hset.mapped key, hfresh]
        exact ⟨(fun h => by cases h), fun h => absurd (Option.some.inj h).symm hk⟩
    · rw [Function.update_of_ne hd]
      by_cases hk : key = endpoint
      · rw [hk, OrderedMap.find?_assign_self, Option.some.injEq, ← hset.mapped, hkey]
        exact ⟨fun h => absurd h.symm hd, fun h => by cases h⟩
      · rw [OrderedMap.find?_assign_of_ne hk]
        exact hset.mapped key d
  · obtain ⟨h', hdestroy, hs', hdropped⟩ := destroySession_spec hs₁ hc₁
    have hsessions : h'.sessions = h.sessions := by
      rw [hdropped.sessions]
      show Function.update (Function.update h.sessions _ _) _ _ = _
      rw [Function.update_idem, ← hfresh, Function.update_eq_self]
    refine ⟨h', (onAccept_known hkey).trans hdestroy, ⟨hs', fun key d => ?_, fun d t hd => ?_⟩,
      hquiet.trans hdropped.quiet⟩
    · rw [hdropped.sessionPtrMap, hsessions]
      exact hset.mapped key d
    · rw [hsessions] at hd
      exact hset.heard d t hd

/-- The end of a write. -/
theorem onWrite_spec {τ V : Type} {w : World τ V} (hset : Settled w.heap)
    (hc : w.heap.sessions c = some s) (retCode : Int) :
    ∃ h', World.onWrite c retCode w = .ok { w with heap := h' } ∧ Settled h' ∧
      Quiet (fun o => o = .heard c) w.heap h' := by
  rw [World.onWrite, hc]
  dsimp only
  by_cases hsent : s.sent = []
  · exact ⟨w.heap, if_pos hsent, hset, (Served.refl _).toQuiet.mono fun _ => False.elim⟩
  have hreading : s.reading = false := by
    by_contra hreading
    exact hsent ((hset.sound.waits c s hc).sent (by simpa using hreading))
  rw [if_neg hsent]
  have hset₁ := hset.hear { s with aliver := s.aliver.keepAlive } hc rfl rfl (fun _ => rfl)
    (.of_not_reading hreading) rfl
  have hheard := heard_record hc { s with aliver := s.aliver.keepAlive } rfl
  by_cases hret : retCode ≠ 0
  · obtain ⟨h', hclose, hs', hserved⟩ := closeSession_spec hset₁.sound (setSession_self ..) hreading
    refine ⟨h', ?_, hset₁.served hs' hserved,
      hheard.toQuiet.trans (hserved.toQuiet.mono fun _ => False.elim)⟩
    rw [if_pos hret, hclose]
    rfl
  · refine ⟨_, ?_, hset₁, hheard.toQuiet⟩
    rw [if_neg hret]
    rfl

/-! ## The timer -/

/-- The sessions that are left to check. -/
def lateIn (rest : List (Bytes × Nat)) (c : Nat) : Nat := if c ∈ rest.map Prod.snd then 1 else 0

section Rest

variable {key : Bytes} {d : Nat} {rest : List (Bytes × Nat)}

theorem lateIn_self : lateIn ((key, c) :: rest) c = 1 := by
  simp [lateIn]

theorem lateIn_of_not_mem (hnot : c ∉ rest.map Prod.snd) : lateIn rest c = 0 := if_neg hnot

theorem lateIn_of_ne (hne : d ≠ c) : lateIn rest d = lateIn ((key, c) :: rest) d := by
  simp only [lateIn, List.map_cons, List.mem_cons, or_iff_right hne]

/-- What has one entry of the map is not checked again. -/
theorem rest_apart {m : OrderedMap Bytes Nat} (hnodup : (((key, c) :: rest).map Prod.fst).Nodup)
    (hthere : ∀ e ∈ (key, c) :: rest, m.find? e.1 = some e.2)
    (honly : ∀ k, m.find? k = some c → k = key) :
    (∀ e ∈ rest, e.1 ≠ key) ∧ c ∉ rest.map Prod.snd := by
  obtain ⟨hnot, -⟩ := List.nodup_cons.mp hnodup
  have hne : ∀ e ∈ rest, e.1 ≠ key := fun e he heq => hnot (List.mem_map.mpr ⟨e, he, heq⟩)
  refine ⟨hne, fun hin => ?_⟩
  obtain ⟨e, he, rfl⟩ := List.mem_map.mp hin
  exact hne e he (honly e.1 (hthere e (List.mem_cons_of_mem _ he)))

end Rest

/-- The invariant of the loop that began with `h₀`. -/
structure Ticking (h₀ : Heap) (rest : List (Bytes × Nat)) (h : Heap) : Prop where
  sound : Sound (lateIn rest) (fun _ => 0) h
  mapped : Mapped h
  there : ∀ e ∈ rest, h.sessionPtrMap.find? e.1 = some e.2
  nodup : (rest.map Prod.fst).Nodup
  heard : ∀ c s, h.sessions c = some s → s.aliver.notAliveCnt ≤ 5
  writers : h.writers = h₀.writers
  handleMap : h.handleMap = h₀.handleMap
  nextWriter : h.nextWriter = h₀.nextWriter
  nextSession : h.nextSession = h₀.nextSession
  closed : ∀ r d, h.Open r d → h₀.Open r d
  log : h.log = h₀.log ++ [.ticked]

/-- A session that counts a tick. -/
theorem Sound.tick {ls' : Nat → Nat} (hs : Sound ls lw h) (hc : h.sessions c = some s)
    (hls : ls c = 1) (hc' : ls' c = 0) (hother : ∀ d, d ≠ c → ls' d = ls d) :
    Sound ls' lw (h.setSession c { s with aliver := s.aliver.isAlive.2 }) := by
  refine ⟨hs.waits_update (hs.waits c s hc).of_aliver, hs.responded_update hc rfl,
    hs.opened_update hc rfl fun _ => rfl, hs.answered, hs.handled, hs.unfed, ?_,
    fresh_update hs.freshSession hc, hs.freshResponse, hs.freshWriter⟩
  intro d t hd
  rcases update_eq_some hd with ⟨rfl, rfl⟩ | ⟨hdc, hd⟩
  · obtain ⟨hmax, hcount⟩ := hs.unheard d s hc
    refine ⟨hmax, hcount.trans ?_⟩
    rw [hls, hc']
    rfl
  · rw [hother d hdc]
    exact hs.unheard d t hd

theorem Ticking.next {h₀ : Heap} {e : Bytes × Nat} {rest : List (Bytes × Nat)}
    (ht : Ticking h₀ (e :: rest) h) :
    ∃ h', World.checkSession h e = .ok h' ∧ Ticking h₀ rest h' := by
  obtain ⟨key, c⟩ := e
  have hkey : h.sessionPtrMap.find? key = some c := ht.there (key, c) (by simp)
  obtain ⟨s, hc, hend⟩ := Option.map_eq_some_iff.mp ((ht.mapped key c).mp hkey)
  have honly : ∀ k, h.sessionPtrMap.find? k = some c → k = key := by
    intro k hk
    have hmap := (ht.mapped k c).mp hk
    rw [hc, Option.map_some, Option.some.injEq, hend] at hmap
    exact hmap.symm
  obtain ⟨hrest, hnotin⟩ := rest_apart ht.nodup ht.there honly
  have hnodup := (List.nodup_cons.mp ht.nodup).2
  obtain ⟨hmax, hcount⟩ := ht.sound.unheard c s hc
  have hs₁ : Sound (lateIn rest) (fun _ => 0)
      (h.setSession c { s with aliver := s.aliver.isAlive.2 }) :=
    ht.sound.tick hc lateIn_self (lateIn_of_not_mem hnotin) fun d hd => lateIn_of_ne hd
  rw [World.checkSession, deref_some hc, Run.ok_bind]
  dsimp only
  by_cases halive : s.aliver.isAlive.1 = true
  · refine ⟨_, if_pos halive, hs₁, fun k d => ?_, ?_, hnodup, fun d t hd => ?_, ht.writers,
      ht.handleMap, ht.nextWriter, ht.nextSession, ht.closed, ht.log⟩
    · show _ ↔ (Function.update h.sessions c _ d).map Session.remoteEndpoint = some k
      rw [map_update hc (by rfl)]
      exact ht.mapped k d
    · exact fun e he => ht.there e (List.mem_cons_of_mem _ he)
    · rcases update_eq_some hd with ⟨-, rfl⟩ | ⟨-, hd⟩
      · have hle := (SessionAliver.isAlive_iff hmax).mp halive
        show s.aliver.notAliveCnt + 1 ≤ 5
        omega
      · exact ht.heard d t hd
  · let h₁ := h.setSession c { s with aliver := s.aliver.isAlive.2 }
    have hmap₁ : Mapped h₁ := by
      intro k d
      show _ ↔ (Function.update h.sessions c _ d).map Session.remoteEndpoint = some k
      rw [map_update hc (by rfl)]
      exact ht.mapped k d
    have hkey₁ : h₁.sessionPtrMap.find? key = some c := hkey
    obtain ⟨h', hdestroy, hs', hdropped⟩ :=
      destroySession_spec (hs₁.withMap (h₁.sessionPtrMap.erase key)) (setSession_self ..)
    refine ⟨h', (if_neg halive).trans hdestroy, hs', hmap₁.drop hkey₁ hdropped, fun e he => ?_,
      hnodup, fun d t hd => ?_, hdropped.writers.trans ht.writers,
      hdropped.handleMap.trans ht.handleMap, hdropped.nextWriter.trans ht.nextWriter,
      hdropped.nextSession.trans ht.nextSession,
      fun r d hr => ht.closed r d (hdropped.closed r d hr), hdropped.log.trans ht.log⟩
    · rw [hdropped.sessionPtrMap]
      show (h.sessionPtrMap.erase key).find? e.1 = some e.2
      rw [OrderedMap.find?_erase_of_ne (hrest e he)]
      exact ht.there e (List.mem_cons_of_mem _ he)
    · rw [hdropped.sessions] at hd
      by_cases hdc : d = c
      · rw [hdc, Function.update_self] at hd
        cases hd
      · rw [Function.update_of_ne hdc] at hd
        exact ht.heard d t ((Function.update_of_ne hdc ..).symm.trans hd)

theorem Settled.ticking (hset : Settled h) :
    Ticking h h.sessionPtrMap.entries (h.record .ticked) where
  sound := by
    refine ⟨hset.sound.waits, hset.sound.responded, hset.sound.opened, hset.sound.answered,
      hset.sound.handled, ?_, ?_, hset.sound.freshSession, hset.sound.freshResponse,
      hset.sound.freshWriter⟩
    · intro id q v hid hq
      show _ ∧ HttpflvServer.unfed q (h.log ++ [.ticked]) = _
      rw [unfed_ticked]
      exact hset.sound.unfed id q v hid hq
    · intro c s hc
      have hin : c ∈ h.sessionPtrMap.entries.map Prod.snd :=
        List.mem_map.mpr ⟨_, OrderedMap.find?_eq_some.mp (hset.mapped.find?_self hc), rfl⟩
      obtain ⟨hmax, hcount⟩ := hset.sound.unheard c s hc
      refine ⟨hmax, ?_⟩
      show HttpflvServer.unheard c (h.log ++ [.ticked]) = _
      rw [unheard_ticked, hcount, lateIn, if_pos hin]
      rfl
  mapped := hset.mapped
  there e he := OrderedMap.find?_eq_some.mpr he
  nodup := h.sessionPtrMap.keys_nodup
  heard := hset.heard
  writers := rfl
  handleMap := rfl
  nextWriter := rfl
  nextSession := rfl
  closed _ _ hr := hr
  log := rfl

/-- The timer of the sessions. -/
theorem onTimer_spec (hset : Settled h) :
    ∃ h', World.onTimer h = .ok h' ∧ Settled h' ∧ Quiet (fun o => o = .ticked) h h' ∧
      h'.log = h.log ++ [.ticked] := by
  obtain ⟨h', hloop, ht⟩ := @Run.exists_foldlM Fault _ _ World.checkSession (Ticking h)
    (fun _ _ _ ht => ht.next) h.sessionPtrMap.entries (h.record .ticked) hset.ticking
  have hlate : lateIn [] = fun _ => 0 := rfl
  refine ⟨h', hloop, ⟨hlate ▸ ht.sound, ht.mapped, ht.heard⟩, ?_, ht.log⟩
  · exact .of_log ht.writers ht.handleMap ht.nextWriter ht.nextSession.ge ht.closed ht.log
      fun o ho => List.mem_singleton.mp ho

end Heap

end HttpflvServer

end MediaServer
