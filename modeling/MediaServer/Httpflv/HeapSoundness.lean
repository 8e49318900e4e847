import Mathlib.Tactic.Common
import MediaServer.Httpflv.HttpflvServer
import MediaServer.Lib.Watchdog

/-!
# The pointers of the HTTP-FLV server

`Heap.Sound` is what holds of the objects between two calls.  A response that is open has a
session, which is open too and has this response; a writer has a response; the map of the
handlers has writers that are there.  `Heap.Served` is what a call on a response or on a
writer leaves as it was.

* A session answers one request: while it reads it has no response (`Session.Waits`), and
  what it has read so far stays incomplete when a read brings nothing
  (`takeData_again`).
* Each call on a sound heap goes well and leaves a sound heap (`closeSession_spec`,
  `writeResponse_spec`, `writePacket_spec`, `closeWriter_spec`).
-/

namespace MediaServer

namespace HttpInput

variable {data : Bytes} {s s' : HttpInput}

/-- A header that is not complete stays so without new data. -/
theorem analyzeHeader_again {ret : Int} (h : analyzeHeader s = .ok (ret, s'))
    (hready : s'.headerIsReady = false) : ret = 0 ∧ analyzeHeader s' = .ok (0, s') := by
  rw [analyzeHeader] at h
  split at h
  · next hfind =>
    simp only [Except.ok.injEq, Prod.mk.injEq] at h
    obtain ⟨rfl, rfl⟩ := h
    refine ⟨rfl, ?_⟩
    rw [analyzeHeader, hfind]
  · next pos hfind =>
    dsimp only at h
    split at h
    · simp only [Except.ok.injEq, Prod.mk.injEq] at h
      rw [← h.2] at hready
      cases hready
    · obtain ⟨⟨ret₁, request⟩, -, h⟩ := Run.exists_of_bind_ok h
      cases h
      cases hready

/-- A request that is not complete stays so when a read brings nothing. -/
theorem takeData_again (h : takeData data s = .ok (.incomplete, s')) :
    takeData [] s' = .ok (.incomplete, s') := by
  rw [takeData] at h
  split at h
  · obtain ⟨⟨ret, s₁⟩, hanalyze, h⟩ := Run.exists_of_bind_ok h
    dsimp only at h
    split_ifs at h with hret hready
    · cases h
    · cases h
      rw [Bool.not_eq_true'] at hready
      obtain ⟨-, hagain⟩ := analyzeHeader_again hanalyze hready
      have hunready : (!s'.headerIsReady) = true := by
        rw [hready]
        rfl
      rw [takeData, if_pos hunready, List.append_nil, hagain, Run.ok_bind]
      dsimp only
      rw [if_neg (by decide), if_pos hunready]
      rfl
    · simp only [pure, Except.pure, Except.ok.injEq, Prod.mk.injEq] at h
      obtain ⟨hprogress, rfl⟩ := h
      rw [takeData, if_neg (by simpa using hready)]
      simp only [List.append_nil, hprogress]
  · next hready =>
    simp only [Except.ok.injEq, Prod.mk.injEq] at h
    obtain ⟨hprogress, rfl⟩ := h
    rw [takeData, if_neg hready]
    simp only [List.append_nil, hprogress]

end HttpInput

namespace HttpflvServer

/-! ## What the log says -/

/-- The writer `p` is made. -/
def Obs.makes (p : Nat) : Obs → Bool
  | .made q => q = p
  | .accepted _ | .heard _ | .ticked | .wrote _ _ | .checked => false

/-- The writer `p` gets a packet. -/
def Obs.feeds (p : Nat) : Obs → Bool
  | .wrote q _ => q = p
  | .accepted _ | .heard _ | .ticked | .made _ | .checked => false

/-- The timer of the writers runs. -/
def Obs.isCheck : Obs → Bool
  | .checked => true
  | .accepted _ | .heard _ | .ticked | .made _ | .wrote _ _ => false

/-- The checks since the writer `p` was made or has written. -/
def unfed (p : Nat) (log : List Obs) : Option Nat :=
  Watchdog.idle (Obs.makes p) (Obs.feeds p) Obs.isCheck log

/-- The session `c` is made. -/
def Obs.accepts (c : Nat) : Obs → Bool
  | .accepted d => d = c
  | .heard _ | .ticked | .made _ | .wrote _ _ | .checked => false

/-- The socket of the session `c` calls back. -/
def Obs.hears (c : Nat) : Obs → Bool
  | .heard d => d = c
  | .accepted _ | .ticked | .made _ | .wrote _ _ | .checked => false

/-- The timer of the sessions runs. -/
def Obs.isTick : Obs → Bool
  | .ticked => true
  | .accepted _ | .heard _ | .made _ | .wrote _ _ | .checked => false

/-- The ticks since the session `c` was made or its socket has called back. -/
def unheard (c : Nat) (log : List Obs) : Option Nat :=
  Watchdog.idle (Obs.accepts c) (Obs.hears c) Obs.isTick log

section Logs

variable {p q c d : Nat} {pkt : MediaPacket} {log : List Obs}

theorem unfed_wrote :
    unfed p (log ++ [.wrote q pkt]) = (unfed p log).map fun n => if q = p then 0 else n := by
  rw [unfed, Watchdog.idle_concat]
  simp [Watchdog.beat, Obs.makes, Obs.feeds, Obs.isCheck, unfed]

theorem unfed_made : unfed p (log ++ [.made q]) = if q = p then some 0 else unfed p log := by
  rw [unfed, Watchdog.idle_concat]
  simp [Watchdog.beat, Obs.makes, Obs.feeds, Obs.isCheck, unfed]

theorem unfed_checked : unfed p (log ++ [.checked]) = (unfed p log).map (· + 1) := by
  rw [unfed, Watchdog.idle_concat]
  simp [Watchdog.beat, Obs.makes, Obs.feeds, Obs.isCheck, unfed]

theorem unfed_accepted : unfed p (log ++ [.accepted c]) = unfed p log := by
  rw [unfed, Watchdog.idle_concat]
  simp [Watchdog.beat, Obs.makes, Obs.feeds, Obs.isCheck, unfed]

theorem unfed_heard : unfed p (log ++ [.heard c]) = unfed p log := by
  rw [unfed, Watchdog.idle_concat]
  simp [Watchdog.beat, Obs.makes, Obs.feeds, Obs.isCheck, unfed]

theorem unfed_ticked : unfed p (log ++ [.ticked]) = unfed p log := by
  rw [unfed, Watchdog.idle_concat]
  simp [Watchdog.beat, Obs.makes, Obs.feeds, Obs.isCheck, unfed]

theorem unheard_heard :
    unheard c (log ++ [.heard d]) = (unheard c log).map fun n => if d = c then 0 else n := by
  rw [unheard, Watchdog.idle_concat]
  simp [Watchdog.beat, Obs.accepts, Obs.hears, Obs.isTick, unheard]

theorem unheard_accepted :
    unheard c (log ++ [.accepted d]) = if d = c then some 0 else unheard c log := by
  rw [unheard, Watchdog.idle_concat]
  simp [Watchdog.beat, Obs.accepts, Obs.hears, Obs.isTick, unheard]

theorem unheard_ticked : unheard c (log ++ [.ticked]) = (unheard c log).map (· + 1) := by
  rw [unheard, Watchdog.idle_concat]
  simp [Watchdog.beat, Obs.accepts, Obs.hears, Obs.isTick, unheard]

theorem unheard_wrote : unheard c (log ++ [.wrote p pkt]) = unheard c log := by
  rw [unheard, Watchdog.idle_concat]
  simp [Watchdog.beat, Obs.accepts, Obs.hears, Obs.isTick, unheard]

theorem unheard_made : unheard c (log ++ [.made p]) = unheard c log := by
  rw [unheard, Watchdog.idle_concat]
  simp [Watchdog.beat, Obs.accepts, Obs.hears, Obs.isTick, unheard]

theorem unheard_checked : unheard c (log ++ [.checked]) = unheard c log := by
  rw [unheard, Watchdog.idle_concat]
  simp [Watchdog.beat, Obs.accepts, Obs.hears, Obs.isTick, unheard]

end Logs

/-! ## The invariant -/

/-- A session that reads has not answered, and is open unless its socket has failed. -/
structure Session.Waits (s : Session) : Prop where
  response : s.reading = true → s.response = none
  sent : s.reading = true → s.sent = []
  isOpen : s.reading = true → s.isClosed = true → s.failed = true
  input : s.reading = true → s.input.takeData [] = .ok (.incomplete, s.input)

theorem Session.Waits.of_not_reading {s : Session} (h : s.reading = false) : s.Waits := by
  refine ⟨?_, ?_, ?_, ?_⟩ <;> exact fun hreading => absurd hreading (by rw [h]; decide)

theorem Session.Waits.of_aliver {s : Session} {aliver : SessionAliver} (h : s.Waits) :
    ({ s with aliver } : Session).Waits :=
  ⟨h.response, h.sent, h.isOpen, h.input⟩

/-- The fields of a writer that stay. -/
def Writer.ident (w : Writer) : Bytes × Bytes × Nat := (w.key, w.writerId, w.resp)

theorem Writer.ident_eq {v w : Writer} (h : v.ident = w.ident) :
    v.key = w.key ∧ v.writerId = w.writerId ∧ v.resp = w.resp := by
  simpa [ident] using h

namespace Heap

/-- What is written to the response goes to the session `c`. -/
def Open (r c : Nat) (h : Heap) : Prop :=
  ∃ resp, h.responses r = some resp ∧ resp.isClose = false ∧ resp.session = some c

/-- `lateSession` and `lateWriter` are the ticks that an object has still to count. -/
structure Sound (lateSession lateWriter : Nat → Nat) (h : Heap) : Prop where
  waits : ∀ c s, h.sessions c = some s → s.Waits
  responded : ∀ c s r, h.sessions c = some s → s.response = some r →
    ∃ resp, h.responses r = some resp
  opened : ∀ r resp, h.responses r = some resp → resp.isClose = false →
    ∃ c s, resp.session = some c ∧ h.sessions c = some s ∧ s.response = some r ∧ s.isClosed = false
  answered : ∀ p w, h.writers p = some w → ∃ resp, h.responses w.resp = some resp
  handled : ∀ id p, h.handleMap.find? id = some p → ∃ w, h.writers p = some w ∧ w.writerId = id
  unfed : ∀ id p w, h.handleMap.find? id = some p → h.writers p = some w →
    w.aliver.tryMax = 4 ∧ unfed p h.log = some (w.aliver.notAliveCnt + lateWriter p)
  unheard : ∀ c s, h.sessions c = some s →
    s.aliver.tryMax = 4 ∧ unheard c h.log = some (s.aliver.notAliveCnt + lateSession c)
  freshSession : ∀ c, h.nextSession ≤ c → h.sessions c = none
  freshResponse : ∀ r, h.nextResponse ≤ r → h.responses r = none
  freshWriter : ∀ p, h.nextWriter ≤ p → h.writers p = none

/-- What a step leaves that neither makes a writer nor deletes one.  It records what `P`
says, and the packets that have been written to an open response. -/
structure Quiet (P : Obs → Prop) (h h' : Heap) : Prop where
  writers : ∀ p, (h'.writers p).map Writer.ident = (h.writers p).map Writer.ident
  handleMap : h'.handleMap = h.handleMap
  nextWriter : h'.nextWriter = h.nextWriter
  nextSession : h.nextSession ≤ h'.nextSession
  closed : ∀ r c, h'.Open r c → h.Open r c
  log : ∃ obs, h'.log = h.log ++ obs ∧
    ∀ o ∈ obs, P o ∨ ∃ p pkt w c, o = .wrote p pkt ∧ h.writers p = some w ∧ h.Open w.resp c

/-- What a call on a response or on a writer leaves. -/
structure Served (h h' : Heap) : Prop extends Quiet (fun _ => False) h h' where
  sessions : ∀ c, (h'.sessions c).map Session.remoteEndpoint =
    (h.sessions c).map Session.remoteEndpoint
  sessionPtrMap : h'.sessionPtrMap = h.sessionPtrMap

section Relations

variable {P Q : Obs → Prop} {h h' h'' : Heap} {p : Nat} {w w' : Writer}

/-- The writer that was there before a call. -/
theorem Quiet.exists_writer (hquiet : Quiet P h h') (hw : h'.writers p = some w') :
    ∃ w, h.writers p = some w ∧ w.ident = w'.ident := by
  have hmap := hquiet.writers p
  rw [hw, Option.map_some] at hmap
  exact Option.map_eq_some_iff.mp hmap.symm

/-- The writer that is there after a call. -/
theorem Quiet.exists_writer' (hquiet : Quiet P h h') (hw : h.writers p = some w) :
    ∃ w', h'.writers p = some w' ∧ w'.ident = w.ident := by
  have hmap := hquiet.writers p
  rw [hw, Option.map_some] at hmap
  exact Option.map_eq_some_iff.mp hmap

theorem Quiet.eq_none_iff (hquiet : Quiet P h h') : h'.writers p = none ↔ h.writers p = none := by
  rw [← Option.map_eq_none_iff (f := Writer.ident), hquiet.writers p, Option.map_eq_none_iff]

theorem Quiet.mono (hquiet : Quiet P h h') (hP : ∀ o, P o → Q o) : Quiet Q h h' where
  writers := hquiet.writers
  handleMap := hquiet.handleMap
  nextWriter := hquiet.nextWriter
  nextSession := hquiet.nextSession
  closed := hquiet.closed
  log := by
    obtain ⟨obs, hlog, hobs⟩ := hquiet.log
    exact ⟨obs, hlog, fun o ho => (hobs o ho).imp_left (hP o)⟩

theorem Quiet.trans (h₁ : Quiet P h h') (h₂ : Quiet P h' h'') : Quiet P h h'' where
  writers p := (h₂.writers p).trans (h₁.writers p)
  handleMap := h₂.handleMap.trans h₁.handleMap
  nextWriter := h₂.nextWriter.trans h₁.nextWriter
  nextSession := h₁.nextSession.trans h₂.nextSession
  closed r c hr := h₁.closed r c (h₂.closed r c hr)
  log := by
    obtain ⟨obs, hlog, hobs⟩ := h₁.log
    obtain ⟨obs', hlog', hobs'⟩ := h₂.log
    refine ⟨obs ++ obs', by rw [hlog', hlog, List.append_assoc], fun o ho => ?_⟩
    rcases List.mem_append.mp ho with ho | ho
    · exact hobs o ho
    · refine (hobs' o ho).imp_right ?_
      rintro ⟨p, pkt, w', c, rfl, hw', hopen⟩
      obtain ⟨w, hw, hident⟩ := h₁.exists_writer hw'
      refine ⟨p, pkt, w, c, rfl, hw, h₁.closed _ c ?_⟩
      rw [(Writer.ident_eq hident).2.2]
      exact hopen

theorem Quiet.of_log {obs : List Obs} (hwriters : h'.writers = h.writers)
    (hhandle : h'.handleMap = h.handleMap) (hnext : h'.nextWriter = h.nextWriter)
    (hsession : h.nextSession ≤ h'.nextSession)
    (hclosed : ∀ r c, h'.Open r c → h.Open r c) (hlog : h'.log = h.log ++ obs)
    (hobs : ∀ o ∈ obs, P o) : Quiet P h h' :=
  ⟨fun _ => by rw [hwriters], hhandle, hnext, hsession, hclosed, obs, hlog,
    fun o ho => Or.inl (hobs o ho)⟩

theorem Served.refl (h : Heap) : Served h h where
  writers _ := rfl
  handleMap := rfl
  nextWriter := rfl
  nextSession := Nat.le_refl _
  closed _ _ hr := hr
  log := ⟨[], by simp⟩
  sessions _ := rfl
  sessionPtrMap := rfl

theorem Served.trans (h₁ : Served h h') (h₂ : Served h' h'') : Served h h'' where
  toQuiet := h₁.toQuiet.trans h₂.toQuiet
  sessions c := (h₂.sessions c).trans (h₁.sessions c)
  sessionPtrMap := h₂.sessionPtrMap.trans h₁.sessionPtrMap

end Relations

/-! ## Single updates -/

section Updates

variable {ls lw : Nat → Nat} {α : Type} {h h' : Heap} {c r p : Nat} {s s' : Session}
  {resp : Response} {w w' : Writer}

@[simp] theorem setSession_self (c : Nat) (s : Session) (h : Heap) :
    (h.setSession c s).sessions c = some s := Function.update_self ..

@[simp] theorem setResponse_self (r : Nat) (resp : Response) (h : Heap) :
    (h.setResponse r resp).responses r = some resp := Function.update_self ..

@[simp] theorem setWriter_self (p : Nat) (w : Writer) (h : Heap) :
    (h.setWriter p w).writers p = some w := Function.update_self ..

theorem update_eq_some {f : Nat → Option α} {x y : Nat} {a b : α}
    (h : Function.update f x (some a) y = some b) : (y = x ∧ a = b) ∨ (y ≠ x ∧ f y = some b) := by
  by_cases hy : y = x
  · rw [hy, Function.update_self, Option.some.injEq] at h
    exact Or.inl ⟨hy, h⟩
  · rw [Function.update_of_ne hy] at h
    exact Or.inr ⟨hy, h⟩

theorem update_none_eq_some {f : Nat → Option α} {x y : Nat} {b : α}
    (h : Function.update f x none y = some b) : y ≠ x ∧ f y = some b := by
  by_cases hy : y = x
  · rw [hy, Function.update_self] at h
    cases h
  · exact ⟨hy, (Function.update_of_ne hy ..).symm.trans h⟩

theorem fresh_update {f : Nat → Option α} {n x : Nat} {a : α} {b : Option α}
    (hfresh : ∀ y, n ≤ y → f y = none) (hx : f x = some a) (y : Nat) (hy : n ≤ y) :
    Function.update f x b y = none := by
  have hne : y ≠ x := by
    rintro rfl
    rw [hfresh y hy] at hx
    cases hx
  exact (Function.update_of_ne hne ..).trans (hfresh y hy)

theorem map_update {β : Type} {f : Nat → Option α} {x : Nat} {a b : α} {g : α → β}
    (hx : f x = some a) (hg : g b = g a) (y : Nat) :
    (Function.update f x (some b) y).map g = (f y).map g := by
  by_cases hy : y = x
  · rw [hy, Function.update_self, hx, Option.map_some, Option.map_some, hg]
  · rw [Function.update_of_ne hy]

theorem Sound.waits_update (hs : Sound ls lw h) (hwaits : s'.Waits) (d : Nat) (t : Session)
    (hd : (h.setSession c s').sessions d = some t) : t.Waits := by
  rcases update_eq_some hd with ⟨-, rfl⟩ | ⟨-, hd⟩
  · exact hwaits
  · exact hs.waits d t hd

theorem Sound.responded_update (hs : Sound ls lw h) (hc : h.sessions c = some s)
    (hresp : s'.response = s.response) (d : Nat) (t : Session) (r : Nat)
    (hd : (h.setSession c s').sessions d = some t) (ht : t.response = some r) :
    ∃ resp, h.responses r = some resp := by
  rcases update_eq_some hd with ⟨rfl, rfl⟩ | ⟨-, hd⟩
  · exact hs.responded d s r hc (hresp ▸ ht)
  · exact hs.responded d t r hd ht

theorem Sound.opened_update (hs : Sound ls lw h) (hc : h.sessions c = some s)
    (hresp : s'.response = s.response) (hclosed : s.response ≠ none → s'.isClosed = s.isClosed)
    (r : Nat) (resp : Response) (hr : h.responses r = some resp) (hopen : resp.isClose = false) :
    ∃ d t, resp.session = some d ∧ (h.setSession c s').sessions d = some t ∧
      t.response = some r ∧ t.isClosed = false := by
  obtain ⟨d, t, hsession, hd, ht, hclose⟩ := hs.opened r resp hr hopen
  by_cases hdc : d = c
  · subst hdc
    rw [hc, Option.some.injEq] at hd
    subst hd
    exact ⟨d, s', hsession, Function.update_self .., hresp.trans ht,
      (hclosed (by simp [ht])).trans hclose⟩
  · exact ⟨d, t, hsession, (Function.update_of_ne hdc ..).trans hd, ht, hclose⟩

theorem Sound.answered_update (hs : Sound ls lw h) (hp : h.writers p = some w)
    (hresp : w'.resp = w.resp) (q : Nat) (v : Writer)
    (hq : (h.setWriter p w').writers q = some v) : ∃ resp, h.responses v.resp = some resp := by
  rcases update_eq_some hq with ⟨rfl, rfl⟩ | ⟨-, hq⟩
  · rw [hresp]
    exact hs.answered q w hp
  · exact hs.answered q v hq

theorem Sound.handled_update (hs : Sound ls lw h) (hp : h.writers p = some w)
    (hid : w'.writerId = w.writerId) (id : Bytes) (q : Nat)
    (hq : h.handleMap.find? id = some q) :
    ∃ v, (h.setWriter p w').writers q = some v ∧ v.writerId = id := by
  obtain ⟨v, hv, hvid⟩ := hs.handled id q hq
  by_cases hqp : q = p
  · subst hqp
    rw [hp, Option.some.injEq] at hv
    subst hv
    exact ⟨w', Function.update_self .., hid.trans hvid⟩
  · exact ⟨v, (Function.update_of_ne hqp ..).trans hv, hvid⟩

/-- What a session keeps while something is sent through it. -/
theorem Sound.setSession (hs : Sound ls lw h) (s' : Session) (hc : h.sessions c = some s)
    (hend : s'.remoteEndpoint = s.remoteEndpoint) (hresp : s'.response = s.response)
    (hclosed : s.response ≠ none → s'.isClosed = s.isClosed) (haliver : s'.aliver = s.aliver)
    (hwaits : s'.Waits) :
    Sound ls lw (h.setSession c s') ∧ Served h (h.setSession c s') := by
  refine ⟨⟨hs.waits_update hwaits, hs.responded_update hc hresp, hs.opened_update hc hresp hclosed,
    hs.answered, hs.handled, hs.unfed, ?_, fresh_update hs.freshSession hc, hs.freshResponse,
    hs.freshWriter⟩, { Served.refl h with sessions := map_update hc hend }⟩
  intro d t hd
  rcases update_eq_some hd with ⟨rfl, rfl⟩ | ⟨-, hd⟩
  · rw [haliver]
    exact hs.unheard d s hc
  · exact hs.unheard d t hd

/-- A response that stays as open as it was. -/
theorem Sound.setResponse (hs : Sound ls lw h) (resp' : Response) (hr : h.responses r = some resp)
    (hclose : resp'.isClose = resp.isClose) (hsession : resp'.session = resp.session) :
    Sound ls lw (h.setResponse r resp') ∧ Served h (h.setResponse r resp') := by
  have hthere : ∀ x, (∃ y, h.responses x = some y) →
      ∃ y, (h.setResponse r resp').responses x = some y := by
    rintro x ⟨y, hy⟩
    by_cases hx : x = r
    · exact ⟨resp', by rw [hx]; exact Function.update_self ..⟩
    · exact ⟨y, (Function.update_of_ne hx ..).trans hy⟩
  refine ⟨⟨hs.waits, ?_, ?_, ?_, hs.handled, hs.unfed, hs.unheard, hs.freshSession, ?_,
    hs.freshWriter⟩, ?_⟩
  · exact fun d t x hd ht => hthere x (hs.responded d t x hd ht)
  · intro x y hx hopen
    rcases update_eq_some hx with ⟨rfl, rfl⟩ | ⟨-, hx⟩
    · rw [hsession]
      exact hs.opened x resp hr (hclose ▸ hopen)
    · exact hs.opened x y hx hopen
  · exact fun q v hq => hthere _ (hs.answered q v hq)
  · exact fresh_update hs.freshResponse hr
  · refine { Served.refl h with closed := fun x c hx => ?_ }
    obtain ⟨y, hy, hopen, hc⟩ := hx
    rcases update_eq_some hy with ⟨rfl, rfl⟩ | ⟨-, hy⟩
    · exact ⟨resp, hr, hclose.symm.trans hopen, hsession.symm.trans hc⟩
    · exact ⟨y, hy, hopen, hc⟩

/-- A flag of a writer. -/
theorem Sound.setWriter (hs : Sound ls lw h) (w' : Writer) (hp : h.writers p = some w)
    (hident : w'.ident = w.ident) (haliver : w'.aliver = w.aliver) :
    Sound ls lw (h.setWriter p w') ∧ Served h (h.setWriter p w') := by
  obtain ⟨hkey, hid, hresp⟩ := Writer.ident_eq hident
  refine ⟨⟨hs.waits, hs.responded, hs.opened, hs.answered_update hp hresp, hs.handled_update hp hid,
    ?_, hs.unheard, hs.freshSession, hs.freshResponse, fresh_update hs.freshWriter hp⟩,
    { Served.refl h with writers := map_update hp hident }⟩
  intro id q v hid hq
  rcases update_eq_some hq with ⟨rfl, rfl⟩ | ⟨-, hq⟩
  · rw [haliver]
    exact hs.unfed id q w hid hp
  · exact hs.unfed id q v hid hq

end Updates

/-! ## Closing -/

section Closing

variable {ls lw : Nat → Nat} {h : Heap} {c r p : Nat} {s : Session} {resp : Response} {w : Writer}

theorem deref_some {α : Type} {x : Option α} {a : α} (hx : x = some a) : deref x = .ok a := by
  rw [hx]
  rfl

/-- What an open session and its response become. -/
def quiet (c : Nat) (s : Session) (r : Nat) (resp : Response) (h : Heap) : Heap :=
  (h.setSession c { s with isClosed := true }).setResponse r
    { resp with isClose := true, session := none }

theorem closeSession_of_closed (hc : h.sessions c = some s) (hclosed : s.isClosed = true) :
    closeSession c h = .ok h := by
  rw [closeSession, deref_some hc, Run.ok_bind, if_pos hclosed]
  rfl

theorem closeSession_of_none (hc : h.sessions c = some s) (hopen : s.isClosed = false)
    (hresp : s.response = none) :
    closeSession c h = .ok (h.setSession c { s with isClosed := true }) := by
  rw [closeSession, deref_some hc, Run.ok_bind, if_neg (by rw [hopen]; decide)]
  simp only [hresp]
  rfl

theorem closeSession_of_some (hc : h.sessions c = some s) (hopen : s.isClosed = false)
    (hresp : s.response = some r) (hr : h.responses r = some resp) :
    closeSession c h = .ok (h.quiet c s r resp) := by
  have hclose : setClose r (h.setSession c { s with isClosed := true }) =
      .ok (h.quiet c s r resp) := by
    rw [setClose, deref_some (show (h.setSession c _).responses r = some resp from hr)]
    rfl
  rw [closeSession, deref_some hc, Run.ok_bind, if_neg (by rw [hopen]; decide), ← hclose]
  rw [hresp]

/-- Closing an open response closes its session, which closes the response. -/
theorem closeResponse_of_open (hs : Sound ls lw h) (hr : h.responses r = some resp)
    (hopen : resp.isClose = false) :
    ∃ c s, h.sessions c = some s ∧ s.isClosed = false ∧ s.response = some r ∧
      closeResponse r h = .ok (h.quiet c s r resp) := by
  obtain ⟨c, s, hsession, hc, hresp, hclosed⟩ := hs.opened r resp hr hopen
  refine ⟨c, s, hc, hclosed, hresp, ?_⟩
  rw [closeResponse, deref_some hr, Run.ok_bind, if_neg (by rw [hopen]; decide)]
  simp only [hsession]
  have hclose : closeSession c (h.setResponse r { resp with isClose := true }) =
      .ok ((h.setResponse r { resp with isClose := true }).quiet c s r
        { resp with isClose := true }) :=
    closeSession_of_some hc hclosed hresp (Function.update_self ..)
  have hagain : setClose r ((h.setResponse r { resp with isClose := true }).quiet c s r
      { resp with isClose := true }) = .ok (h.quiet c s r resp) := by
    rw [quiet, setClose, deref_some (setResponse_self ..), Run.ok_bind]
    simp only [quiet, setResponse, setSession, Function.update_idem]
    rfl
  rw [← hsession, hclose, Run.ok_bind, hagain]

theorem Sound.quiet (hs : Sound ls lw h) (hc : h.sessions c = some s)
    (hresp : s.response = some r) (hr : h.responses r = some resp) :
    Sound ls lw (h.quiet c s r resp) ∧ Served h (h.quiet c s r resp) := by
  have hreading : s.reading = false := by
    by_contra hreading
    rw [(hs.waits c s hc).response (by simpa using hreading)] at hresp
    cases hresp
  have hwaits : ({ s with isClosed := true } : Session).Waits := .of_not_reading hreading
  have hthere : ∀ x, (∃ y, h.responses x = some y) →
      ∃ y, (h.quiet c s r resp).responses x = some y := by
    rintro x ⟨y, hy⟩
    by_cases hx : x = r
    · exact ⟨_, by rw [hx]; exact Function.update_self ..⟩
    · exact ⟨y, (Function.update_of_ne hx ..).trans hy⟩
  refine ⟨⟨?_, ?_, ?_, fun q v hq => hthere _ (hs.answered q v hq), hs.handled, hs.unfed, ?_, ?_,
    ?_, hs.freshWriter⟩, ?_⟩
  · intro d t hd
    rcases update_eq_some hd with ⟨-, rfl⟩ | ⟨-, hd⟩
    · exact hwaits
    · exact hs.waits d t hd
  · intro d t x hd ht
    rcases update_eq_some hd with ⟨rfl, rfl⟩ | ⟨-, hd⟩
    · exact hthere x (hs.responded d s x hc ht)
    · exact hthere x (hs.responded d t x hd ht)
  · intro x y hx hy
    rcases update_eq_some hx with ⟨rfl, rfl⟩ | ⟨hxr, hx⟩
    · cases hy
    · obtain ⟨d, t, hsession, hd, ht, hclose⟩ := hs.opened x y hx hy
      have hdc : d ≠ c := by
        rintro rfl
        rw [hc, Option.some.injEq] at hd
        subst hd
        rw [hresp, Option.some.injEq] at ht
        exact hxr ht.symm
      exact ⟨d, t, hsession, (Function.update_of_ne hdc ..).trans hd, ht, hclose⟩
  · intro d t hd
    rcases update_eq_some hd with ⟨rfl, rfl⟩ | ⟨-, hd⟩
    · exact hs.unheard d s hc
    · exact hs.unheard d t hd
  · exact fresh_update hs.freshSession hc
  · exact fresh_update hs.freshResponse hr
  · refine { Served.refl h with
      sessions := map_update hc rfl, closed := fun x d hx => ?_ }
    obtain ⟨y, hy, hyopen, hd⟩ := hx
    rcases update_eq_some hy with ⟨rfl, rfl⟩ | ⟨-, hy⟩
    · cases hyopen
    · exact ⟨y, hy, hyopen, hd⟩

/-- A response is closed after this, whether it was open or not. -/
theorem closeResponse_spec (hs : Sound ls lw h) (hr : h.responses r = some resp) :
    ∃ h', closeResponse r h = .ok h' ∧ Sound ls lw h' ∧ Served h h' ∧ h'.log = h.log ∧
      ∀ c, ¬ h'.Open r c := by
  by_cases hopen : resp.isClose = true
  · refine ⟨h, ?_, hs, Served.refl h, rfl, ?_⟩
    · rw [closeResponse, deref_some hr, Run.ok_bind, if_pos hopen]
      rfl
    · rintro c ⟨resp', hr', hopen', -⟩
      rw [hr, Option.some.injEq] at hr'
      rw [← hr', hopen] at hopen'
      cases hopen'
  · obtain ⟨c, s, hc, hclosed, hresp, heq⟩ :=
      closeResponse_of_open hs hr (by simpa using hopen)
    obtain ⟨hs', hserved⟩ := hs.quiet hc hresp hr
    refine ⟨_, heq, hs', hserved, rfl, ?_⟩
    rintro d ⟨resp', hr', hopen', -⟩
    rw [quiet, setResponse_self, Option.some.injEq] at hr'
    rw [← hr'] at hopen'
    cases hopen'

/-- An answered session that is closed. -/
theorem closeSession_spec (hs : Sound ls lw h) (hc : h.sessions c = some s)
    (hreading : s.reading = false) :
    ∃ h', closeSession c h = .ok h' ∧ Sound ls lw h' ∧ Served h h' := by
  by_cases hclosed : s.isClosed = true
  · exact ⟨h, closeSession_of_closed hc hclosed, hs, Served.refl h⟩
  · rw [Bool.not_eq_true] at hclosed
    rcases hresp : s.response with _ | r
    · refine ⟨_, closeSession_of_none hc hclosed hresp, hs.setSession _ hc rfl rfl ?_ rfl ?_⟩
      · exact fun hsome => absurd hresp hsome
      · exact .of_not_reading hreading
    · obtain ⟨resp, hr⟩ := hs.responded c s r hc hresp
      exact ⟨_, closeSession_of_some hc hclosed hresp hr, hs.quiet hc hresp hr⟩

end Closing

/-! ## Writing -/

section Writing

variable {ls lw : Nat → Nat} {h : Heap} {c r p : Nat} {s : Session} {resp : Response} {w : Writer}
  {pkt : MediaPacket}

theorem writeSession_spec (hs : Sound ls lw h) (hc : h.sessions c = some s)
    (hreading : s.reading = false) (data : Bytes) :
    ∃ h', writeSession c data h = .ok h' ∧ Sound ls lw h' ∧ Served h h' ∧
      h'.responses = h.responses ∧ h'.writers = h.writers ∧ h'.log = h.log ∧
      ∃ s', h'.sessions c = some s' ∧ s'.reading = false := by
  refine ⟨h.setSession c { s with sent := s.sent ++ data }, ?_, ?_⟩
  · rw [writeSession, deref_some hc]
    rfl
  · obtain ⟨hs', hserved⟩ := hs.setSession { s with sent := s.sent ++ data } hc rfl rfl
      (fun _ => rfl) rfl (.of_not_reading hreading)
    exact ⟨hs', hserved, rfl, rfl, rfl, _, setSession_self .., hreading⟩

/-- A write succeeds when the response is open. -/
theorem writeResponse_spec (hs : Sound ls lw h) (hr : h.responses r = some resp) (data : Bytes) :
    ∃ ret h', writeResponse r data true h = .ok (ret, h') ∧ Sound ls lw h' ∧ Served h h' ∧
      h'.writers = h.writers ∧ h'.log = h.log ∧ (ret < 0 ∨ ∃ c, h'.Open r c) := by
  rw [writeResponse, deref_some hr, Run.ok_bind]
  rcases hclose : resp.isClose with _ | _
  · obtain ⟨c, s, hsession, hc, hresp, -⟩ := hs.opened r resp hr hclose
    have hreading : s.reading = false := by
      by_contra hreading
      rw [(hs.waits c s hc).response (by simpa using hreading)] at hresp
      cases hresp
    simp only [hsession]
    by_cases hwritten : resp.writtenHeader = true
    · obtain ⟨h', hwrite, hs', hserved, hresponses, hwriters, hlog, -⟩ :=
        writeSession_spec hs hc hreading data
      refine ⟨0, h', ?_, hs', hserved, hwriters, hlog,
        Or.inr ⟨c, resp, by rw [hresponses, hr], hclose, hsession⟩⟩
      rw [if_pos hwritten]
      show (writeSession c data h >>= _) = _
      rw [hwrite]
      rfl
    · obtain ⟨h₁, hhead, hs₁, hserved₁, hresponses, hwriters₁, hlog₁, s₁, hc₁, hreading₁⟩ :=
        writeSession_spec hs hc hreading (responseHeader data.length true)
      have hr₁ : h₁.responses r = some resp := by rw [hresponses, hr]
      let resp₂ : Response := { resp with writtenHeader := true }
      have hs₂ := hs₁.setResponse resp₂ hr₁ rfl rfl
      have hc₂ : (h₁.setResponse r resp₂).sessions c = some s₁ := hc₁
      obtain ⟨h', hwrite, hs', hserved, hresponses', hwriters, hlog, -⟩ :=
        writeSession_spec hs₂.1 hc₂ hreading₁ data
      have hr' : h'.responses r = some resp₂ := by rw [hresponses', setResponse_self]
      refine ⟨0, h', ?_, hs', (hserved₁.trans hs₂.2).trans hserved, hwriters.trans hwriters₁,
        hlog.trans hlog₁, Or.inr ⟨c, resp₂, hr', hclose, hsession⟩⟩
      rw [if_neg hwritten, hhead]
      simp only [resp₂, hsession, hclose] at hwrite
      show (writeSession c data (h₁.setResponse r _) >>= _) = _
      rw [hwrite]
      rfl
  · exact ⟨-1, h, rfl, hs, Served.refl h, rfl, rfl, Or.inl (by decide)⟩

theorem writeParts_spec (hs : Sound ls lw h) (hp : h.writers p = some w) (parts : List Bytes) :
    ∃ ret h', writeParts w.resp parts h = .ok (ret, h') ∧ Sound ls lw h' ∧ Served h h' ∧
      h'.writers = h.writers ∧ h'.log = h.log ∧
        (ret < 0 ∨ parts = [] ∨ ∃ c, h'.Open w.resp c) := by
  induction parts generalizing h with
  | nil => exact ⟨0, h, rfl, hs, Served.refl h, rfl, rfl, Or.inr (Or.inl rfl)⟩
  | cons data rest ih =>
    obtain ⟨resp, hr⟩ := hs.answered p w hp
    obtain ⟨ret, h₁, hwrite, hs₁, hserved₁, hwriters₁, hlog₁, hret⟩ :=
      writeResponse_spec hs hr data
    rw [writeParts, hwrite, Run.ok_bind]
    by_cases hneg : ret < 0
    · exact ⟨ret, h₁, if_pos hneg, hs₁, hserved₁, hwriters₁, hlog₁, Or.inl hneg⟩
    · obtain ⟨ret', h', hrest, hs', hserved, hwriters, hlog, hret'⟩ := ih hs₁ (hwriters₁ ▸ hp)
      refine ⟨ret', h', (if_neg hneg).trans hrest, hs', hserved₁.trans hserved,
        hwriters.trans hwriters₁, hlog.trans hlog₁, ?_⟩
      rcases hret' with hneg' | rfl | hopen
      · exact Or.inl hneg'
      · cases hrest
        exact Or.inr (Or.inr (hret.resolve_left hneg))
      · exact Or.inr (Or.inr hopen)

theorem sendFlvHeader_spec (hs : Sound ls lw h) (hp : h.writers p = some w) :
    ∃ ret h', sendFlvHeader p h = .ok (ret, h') ∧ Sound ls lw h' ∧ Served h h' ∧
      h'.log = h.log := by
  rw [sendFlvHeader, deref_some hp, Run.ok_bind]
  by_cases hready : w.flvHeaderReady = true
  · exact ⟨0, h, if_pos hready, hs, Served.refl h, rfl⟩
  by_cases hav : (!w.hasAudio && !w.hasVideo) = true
  · exact ⟨-1, h, (if_neg hready).trans (if_pos hav), hs, Served.refl h, rfl⟩
  obtain ⟨resp, hr⟩ := hs.answered p w hp
  obtain ⟨ret, h₁, hwrite, hs₁, hserved₁, hwriters₁, hlog₁, -⟩ := writeResponse_spec hs hr
    (flvFileHeader (FlvMuxer.headerFlag w.hasVideo w.hasAudio))
  have hp₁ : h₁.writers p = some w := hwriters₁ ▸ hp
  have hready' := hs₁.setWriter { w with flvHeaderReady := true } hp₁ rfl rfl
  refine ⟨0, _, ?_, hready'.1, hserved₁.trans hready'.2, hlog₁⟩
  rw [if_neg hready, if_neg hav, hwrite]
  rfl

/-- A writer that has written is alive again. -/
theorem Sound.wrote (hs : Sound ls lw h) (hp : h.writers p = some w) (hlw : lw p = 0)
    (hopen : h.Open w.resp c) :
    let h' := (h.setWriter p { w with aliver := w.aliver.keepAlive }).record (.wrote p pkt)
    Sound ls lw h' ∧ Served h h' := by
  refine ⟨⟨hs.waits, hs.responded, hs.opened, hs.answered_update hp rfl, hs.handled_update hp rfl,
    ?_, ?_, hs.freshSession, hs.freshResponse, fresh_update hs.freshWriter hp⟩, ?_⟩
  · intro id q v hid hq
    show _ ∧ HttpflvServer.unfed q (h.log ++ [.wrote p pkt]) = _
    rw [unfed_wrote]
    rcases update_eq_some hq with ⟨rfl, rfl⟩ | ⟨hqp, hq⟩
    · obtain ⟨hmax, hcount⟩ := hs.unfed id q w hid hp
      refine ⟨hmax, ?_⟩
      rw [hcount, Option.map_some, if_pos rfl, hlw]
      rfl
    · obtain ⟨hmax, hcount⟩ := hs.unfed id q v hid hq
      refine ⟨hmax, ?_⟩
      rw [hcount, Option.map_some, if_neg (Ne.symm hqp)]
  · intro d t hd
    show _ ∧ HttpflvServer.unheard d (h.log ++ [.wrote p pkt]) = _
    rw [unheard_wrote]
    exact hs.unheard d t hd
  · refine { Served.refl h with writers := map_update hp rfl, log := ?_ }
    exact ⟨[.wrote p pkt], rfl,
      fun o ho => Or.inr ⟨p, pkt, w, c, List.mem_singleton.mp ho, hp, hopen⟩⟩

theorem writePacket_spec (hs : Sound ls lw h) (hp : h.writers p = some w) (hlw : lw p = 0)
    (pkt : MediaPacket) :
    ∃ ret h', writePacket pkt p h = .ok (ret, h') ∧ Sound ls lw h' ∧ Served h h' := by
  obtain ⟨ret, h₁, hheader, hs₁, hserved₁, -⟩ := sendFlvHeader_spec hs hp
  obtain ⟨w₁, hp₁, -⟩ := hserved₁.exists_writer' hp
  rw [writePacket, hheader, Run.ok_bind]
  by_cases hret : ret ≠ 0
  · exact ⟨0, h₁, if_pos hret, hs₁, hserved₁⟩
  rcases htag : tagType pkt with _ | tag
  · exact ⟨0, h₁, if_neg hret, hs₁, hserved₁⟩
  obtain ⟨ret₂, h₂, hparts, hs₂, hserved₂, hwriters₂, -, hopen⟩ :=
    writeParts_spec hs₁ hp₁ (tagParts tag pkt)
  have hrest : (deref (h₁.writers p) >>= fun w =>
      writeParts w.resp (tagParts tag pkt) h₁ >>= fun x =>
        if x.1 < 0 then .ok x
        else keepWriter p x.2 >>= fun h => .ok (0, h.record (.wrote p pkt))) =
    if ret₂ < 0 then .ok (ret₂, h₂)
    else keepWriter p h₂ >>= fun h => .ok (0, h.record (.wrote p pkt)) := by
    rw [deref_some hp₁, Run.ok_bind, hparts]
    rfl
  by_cases hneg : ret₂ < 0
  · exact ⟨ret₂, h₂, (if_neg hret).trans (hrest.trans (if_pos hneg)), hs₂,
      hserved₁.trans hserved₂⟩
  · have hp₂ : h₂.writers p = some w₁ := hwriters₂ ▸ hp₁
    obtain ⟨c, hopen⟩ := (hopen.resolve_left hneg).resolve_left (by simp [tagParts])
    obtain ⟨hs', hserved⟩ := @Sound.wrote ls lw h₂ c p w₁ pkt hs₂ hp₂ hlw hopen
    refine ⟨0, _, (if_neg hret).trans (hrest.trans ((if_neg hneg).trans ?_)), hs',
      (hserved₁.trans hserved₂).trans hserved⟩
    rw [keepWriter, deref_some hp₂]
    rfl

end Writing

/-! ## Destructors -/

section Destructors

variable {ls lw : Nat → Nat} {h : Heap} {c p : Nat} {s : Session} {w : Writer}

/-- `close_writer`. -/
theorem closeWriter_spec (hs : Sound ls lw h) (hp : h.writers p = some w) :
    ∃ h', closeWriter p h = .ok h' ∧ Sound ls lw h' ∧ Served h h' ∧ h'.log = h.log := by
  rw [closeWriter, deref_some hp, Run.ok_bind]
  by_cases hclosed : w.closedFlag = true
  · exact ⟨h, if_pos hclosed, hs, Served.refl h, rfl⟩
  obtain ⟨hs₁, hserved₁⟩ := hs.setWriter { w with closedFlag := true } hp rfl rfl
  obtain ⟨resp, hr⟩ := hs₁.answered p _ (setWriter_self ..)
  obtain ⟨h', hclose, hs', hserved, hlog, -⟩ := closeResponse_spec hs₁ hr
  exact ⟨h', (if_neg hclosed).trans hclose, hs', hserved₁.trans hserved, hlog⟩

/-- The heap without a writer. -/
def without (p : Nat) (h : Heap) : Heap := { h with writers := Function.update h.writers p none }

theorem Sound.without (hs : Sound ls lw h) (hgone : ∀ id, h.handleMap.find? id ≠ some p) :
    Sound ls lw (h.without p) := by
  have hother : ∀ q v, (h.without p).writers q = some v → q ≠ p ∧ h.writers q = some v :=
    fun _ _ hq => update_none_eq_some hq
  refine ⟨hs.waits, hs.responded, hs.opened, ?_, ?_, ?_, hs.unheard, hs.freshSession,
    hs.freshResponse, ?_⟩
  · exact fun q v hq => hs.answered q v (hother q v hq).2
  · intro id q hq
    obtain ⟨v, hv, hid⟩ := hs.handled id q hq
    have hqp : q ≠ p := by
      rintro rfl
      exact hgone id hq
    exact ⟨v, (Function.update_of_ne hqp ..).trans hv, hid⟩
  · exact fun id q v hid hq => hs.unfed id q v hid (hother q v hq).2
  · intro q hq
    by_cases hqp : q = p
    · rw [hqp]
      exact Function.update_self ..
    · exact (Function.update_of_ne hqp ..).trans (hs.freshWriter q hq)

theorem deleteWriter_spec (hs : Sound ls lw h) (hp : h.writers p = some w)
    (hgone : ∀ id, h.handleMap.find? id ≠ some p) :
    ∃ h₁, deleteWriter p h = .ok (h₁.without p) ∧ Sound ls lw (h₁.without p) ∧ Served h h₁ ∧
      h₁.log = h.log := by
  obtain ⟨h₁, hclose, hs₁, hserved, hlog⟩ := closeWriter_spec hs hp
  refine ⟨h₁, ?_, hs₁.without (hserved.handleMap ▸ hgone), hserved, hlog⟩
  rw [deleteWriter, hclose]
  rfl

/-- What the destructor of the session `c` leaves. -/
structure Dropped (c : Nat) (h h' : Heap) : Prop where
  sessions : h'.sessions = Function.update h.sessions c none
  writers : h'.writers = h.writers
  sessionPtrMap : h'.sessionPtrMap = h.sessionPtrMap
  handleMap : h'.handleMap = h.handleMap
  nextWriter : h'.nextWriter = h.nextWriter
  nextSession : h'.nextSession = h.nextSession
  closed : ∀ r d, h'.Open r d → h.Open r d
  log : h'.log = h.log

/-- A session that no open response has can go. -/
theorem Sound.drop (hs : Sound ls lw h) (c : Nat) (responses : Nat → Option Response)
    (hthere : ∀ r, (∃ resp, responses r = some resp) ↔ ∃ resp, h.responses r = some resp)
    (hopen : ∀ r resp, responses r = some resp → resp.isClose = false →
      h.responses r = some resp ∧ resp.session ≠ some c) :
    let h' := { h with sessions := Function.update h.sessions c none, responses }
    Sound ls lw h' ∧ Dropped c h h' := by
  have hother : ∀ d t, Function.update h.sessions c none d = some t →
      d ≠ c ∧ h.sessions d = some t := fun _ _ hd => update_none_eq_some hd
  refine ⟨⟨?_, ?_, ?_, ?_, hs.handled, hs.unfed, ?_, ?_, ?_, hs.freshWriter⟩,
    ⟨rfl, rfl, rfl, rfl, rfl, rfl, ?_, rfl⟩⟩
  · exact fun d t hd => hs.waits d t (hother d t hd).2
  · exact fun d t r hd ht => (hthere r).mpr (hs.responded d t r (hother d t hd).2 ht)
  · intro r resp hr hclose
    obtain ⟨hr', hne⟩ := hopen r resp hr hclose
    obtain ⟨d, t, hsession, hd, ht⟩ := hs.opened r resp hr' hclose
    have hdc : d ≠ c := by
      rintro rfl
      exact hne hsession
    exact ⟨d, t, hsession, (Function.update_of_ne hdc ..).trans hd, ht⟩
  · exact fun q v hq => (hthere _).mpr (hs.answered q v hq)
  · exact fun d t hd => hs.unheard d t (hother d t hd).2
  · intro d hd
    by_cases hdc : d = c
    · rw [hdc]
      exact Function.update_self ..
    · exact (Function.update_of_ne hdc ..).trans (hs.freshSession d hd)
  · intro r hr
    by_contra hne
    obtain ⟨resp, hresp⟩ := (hthere r).mp (Option.ne_none_iff_exists'.mp hne)
    rw [hs.freshResponse r hr] at hresp
    cases hresp
  · rintro r d ⟨resp, hr, hclose, hd⟩
    exact ⟨resp, (hopen r resp hr hclose).1, hclose, hd⟩

/-- The response of a session that goes is closed. -/
theorem destroySession_spec (hs : Sound ls lw h) (hc : h.sessions c = some s) :
    ∃ h', destroySession c h = .ok h' ∧ Sound ls lw h' ∧ Dropped c h h' := by
  have hsession : ∀ r resp, h.responses r = some resp → resp.isClose = false →
      resp.session = some c → s.response = some r ∧ s.isClosed = false := by
    intro r resp hr hclose hrc
    obtain ⟨d, t, hd, ht, hresp, hopen⟩ := hs.opened r resp hr hclose
    rw [hrc, Option.some.injEq] at hd
    subst hd
    rw [hc, Option.some.injEq] at ht
    subst ht
    exact ⟨hresp, hopen⟩
  by_cases hclosed : s.isClosed = true
  · obtain ⟨hs', hdropped⟩ := hs.drop c h.responses (fun _ => Iff.rfl) fun r resp hr hclose =>
      ⟨hr, fun hrc => by rw [(hsession r resp hr hclose hrc).2] at hclosed; cases hclosed⟩
    refine ⟨_, ?_, hs', hdropped⟩
    rw [destroySession, closeSession_of_closed hc hclosed]
    rfl
  rw [Bool.not_eq_true] at hclosed
  rcases hresp : s.response with _ | x
  · obtain ⟨hs', hdropped⟩ := hs.drop c h.responses (fun _ => Iff.rfl) fun r resp hr hclose =>
      ⟨hr, fun hrc => by rw [(hsession r resp hr hclose hrc).1] at hresp; cases hresp⟩
    refine ⟨_, ?_, hs', hdropped⟩
    rw [destroySession, closeSession_of_none hc hclosed hresp, Run.ok_bind, setSession]
    simp only [Function.update_idem]
    rfl
  · obtain ⟨resp, hr⟩ := hs.responded c s x hc hresp
    let responses := Function.update h.responses x
      (some { resp with isClose := true, session := none })
    have hthere : ∀ r, (∃ resp, responses r = some resp) ↔ ∃ resp, h.responses r = some resp := by
      intro r
      by_cases hrx : r = x
      · rw [hrx]
        exact ⟨fun _ => ⟨resp, hr⟩, fun _ => ⟨_, Function.update_self ..⟩⟩
      · rw [show responses r = h.responses r from Function.update_of_ne hrx ..]
    have hopen : ∀ r y, responses r = some y → y.isClose = false →
        h.responses r = some y ∧ y.session ≠ some c := by
      intro r y hy hclose
      rcases update_eq_some hy with ⟨-, rfl⟩ | ⟨hrx, hy⟩
      · cases hclose
      · refine ⟨hy, fun hrc => hrx ?_⟩
        obtain ⟨hr', -⟩ := hsession r y hy hclose hrc
        rw [hresp, Option.some.injEq] at hr'
        exact hr'.symm
    obtain ⟨hs', hdropped⟩ := hs.drop c responses hthere hopen
    refine ⟨_, ?_, hs', hdropped⟩
    rw [destroySession, closeSession_of_some hc hclosed hresp hr, Run.ok_bind, quiet, setSession,
      setResponse]
    simp only [Function.update_idem]
    rfl

end Destructors

end Heap

end HttpflvServer

end MediaServer
