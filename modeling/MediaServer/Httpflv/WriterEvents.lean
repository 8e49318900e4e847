import Mathlib.Tactic.Common
import MediaServer.Av.PlayerCalls
import MediaServer.Httpflv.SessionEvents

/-!
# The writers of the HTTP-FLV server

A request makes a writer, packets go to it, and the timer of the writers deletes it.

* `Made` is what a request for a stream does to the heap, `onRead_spec` is the callback of a
  read, which makes a writer or is `Quiet`.
* `guards_players`: no call on a writer of a stream faults, so that a packet keeps the
  invariant whatever the other players do (`packet_spec`).
* `Checking` is the invariant of the loop over the writers, `Checked` what the loop leaves.
-/

namespace MediaServer

namespace HttpflvServer

/-- Every writer in a stream is there, under its key and its id. -/
def Entries {V : Type} (h : Heap) (streams : Streams (Nat ⊕ V)) : Prop :=
  ∀ k stream, streams k = some stream → ∀ entry ∈ stream.writerMap, ∀ p, entry.2 = .inl p →
    ∃ w, h.writers p = some w ∧ w.key = k ∧ w.writerId = entry.1

namespace Heap

variable {ls lw : Nat → Nat} {P : Obs → Prop} {h h' : Heap} {c p r : Nat} {s : Session}

/-! ## A request -/

/-- The heap with a response for the session `c`. -/
def answer (c : Nat) (s : Session) (h : Heap) : Heap :=
  ({ h with nextResponse := h.nextResponse + 1 }.setResponse h.nextResponse
    { session := some c }).setSession c { s with response := some h.nextResponse }

theorem Sound.answer (hs : Sound ls lw h) (hc : h.sessions c = some s) (hresp : s.response = none)
    (hopen : s.isClosed = false) (hreading : s.reading = false) : Sound ls lw (h.answer c s) := by
  have hfresh : h.responses h.nextResponse = none := hs.freshResponse _ (Nat.le_refl _)
  have hthere : ∀ r, (∃ resp, h.responses r = some resp) →
      ∃ resp, (h.answer c s).responses r = some resp := by
    rintro r ⟨resp, hr⟩
    have hne : r ≠ h.nextResponse := by
      rintro rfl
      rw [hfresh] at hr
      cases hr
    exact ⟨resp, (Function.update_of_ne hne ..).trans hr⟩
  refine ⟨?_, ?_, ?_, fun q v hq => hthere _ (hs.answered q v hq), hs.handled, hs.unfed, ?_, ?_, ?_,
    hs.freshWriter⟩
  · intro d t hd
    rcases update_eq_some hd with ⟨-, rfl⟩ | ⟨-, hd⟩
    · exact .of_not_reading hreading
    · exact hs.waits d t hd
  · intro d t r hd ht
    rcases update_eq_some hd with ⟨-, rfl⟩ | ⟨-, hd⟩
    · rw [← Option.some.inj ht]
      exact ⟨_, Function.update_self ..⟩
    · exact hthere r (hs.responded d t r hd ht)
  · intro r resp hr hclose
    rcases update_eq_some hr with ⟨rfl, rfl⟩ | ⟨-, hr⟩
    · exact ⟨c, _, rfl, setSession_self .., rfl, hopen⟩
    · obtain ⟨d, t, hsession, hd, ht, htopen⟩ := hs.opened r resp hr hclose
      have hdc : d ≠ c := by
        rintro rfl
        rw [hc, Option.some.injEq] at hd
        rw [← hd, hresp] at ht
        cases ht
      exact ⟨d, t, hsession, (Function.update_of_ne hdc ..).trans hd, ht, htopen⟩
  · intro d t hd
    rcases update_eq_some hd with ⟨rfl, rfl⟩ | ⟨-, hd⟩
    · exact hs.unheard d s hc
    · exact hs.unheard d t hd
  · exact fresh_update hs.freshSession hc
  · intro r hr
    have hlt : h.nextResponse + 1 ≤ r := hr
    exact (Function.update_of_ne (by omega) ..).trans (hs.freshResponse r (by omega))

theorem Settled.answer (hset : Settled h) (hc : h.sessions c = some s) (hresp : s.response = none)
    (hopen : s.isClosed = false) (hreading : s.reading = false) : Settled (h.answer c s) := by
  refine ⟨hset.sound.answer hc hresp hopen hreading, fun key d => ?_, fun d t hd => ?_⟩
  · show _ ↔ (Function.update h.sessions c _ d).map Session.remoteEndpoint = some key
    rw [map_update hc (by rfl)]
    exact hset.mapped key d
  · rcases update_eq_some hd with ⟨rfl, rfl⟩ | ⟨-, hd⟩
    · exact hset.heard d s hc
    · exact hset.heard d t hd

/-- The new response is the only one that is open now. -/
theorem open_answer {d : Nat} (ho : (h.answer c s).Open r d) :
    h.Open r d ∨ r = h.nextResponse := by
  obtain ⟨resp, hr, hclose, hd⟩ := ho
  rcases update_eq_some hr with ⟨rfl, -⟩ | ⟨-, hr⟩
  · exact Or.inr rfl
  · exact Or.inl ⟨resp, hr, hclose, hd⟩

/-- The heap with a writer for the response `r`. -/
def enlist (uuid : Nat → Bytes) (key : Bytes) (r : Nat) (h : Heap) : Heap :=
  let id := uuid h.nextWriter
  let h₁ := { h with nextWriter := h.nextWriter + 1 }.setWriter h.nextWriter
    { key, writerId := id, resp := r }
  { h₁ with handleMap := if (h.handleMap.find? id).isSome then h.handleMap
    else h.handleMap.assign id h.nextWriter }.record (.made h.nextWriter)

variable {uuid : Nat → Bytes} {key : Bytes}

theorem enlist_self : (h.enlist uuid key r).writers h.nextWriter =
    some { key, writerId := uuid h.nextWriter, resp := r } := Function.update_self ..

theorem enlist_handleMap {id : Bytes} {q : Nat} (hs : Sound ls lw h)
    (hid : (h.enlist uuid key r).handleMap.find? id = some q) :
    (q = h.nextWriter ∧ id = uuid h.nextWriter) ∨
      (q ≠ h.nextWriter ∧ h.handleMap.find? id = some q) := by
  have hold : h.handleMap.find? id = some q → q ≠ h.nextWriter := by
    rintro hq rfl
    obtain ⟨w, hw, -⟩ := hs.handled id _ hq
    rw [hs.freshWriter _ (Nat.le_refl _)] at hw
    cases hw
  simp only [enlist, record] at hid
  split at hid
  · exact Or.inr ⟨hold hid, hid⟩
  · by_cases hne : id = uuid h.nextWriter
    · rw [hne, OrderedMap.find?_assign_self, Option.some.injEq] at hid
      exact Or.inl ⟨hid.symm, hne⟩
    · rw [OrderedMap.find?_assign_of_ne hne] at hid
      exact Or.inr ⟨hold hid, hid⟩

theorem Sound.enlist (hs : Sound ls lw h) (hlw : lw h.nextWriter = 0)
    (hr : ∃ resp, h.responses r = some resp) : Sound ls lw (h.enlist uuid key r) := by
  refine ⟨hs.waits, hs.responded, hs.opened, ?_, ?_, ?_, ?_, hs.freshSession, hs.freshResponse,
    ?_⟩
  · intro q v hq
    rcases update_eq_some hq with ⟨-, rfl⟩ | ⟨-, hq⟩
    · exact hr
    · exact hs.answered q v hq
  · intro id q hid
    rcases enlist_handleMap hs hid with ⟨rfl, rfl⟩ | ⟨hne, hid⟩
    · exact ⟨_, Function.update_self .., rfl⟩
    · obtain ⟨v, hv, hvid⟩ := hs.handled id q hid
      exact ⟨v, (Function.update_of_ne hne ..).trans hv, hvid⟩
  · intro id q v hid hq
    show _ ∧ HttpflvServer.unfed q (h.log ++ [.made h.nextWriter]) = _
    rw [unfed_made]
    rcases enlist_handleMap hs hid with ⟨rfl, rfl⟩ | ⟨hne, hid⟩
    · rw [if_pos rfl, hlw]
      rcases update_eq_some hq with ⟨-, rfl⟩ | ⟨hne, -⟩
      · exact ⟨rfl, rfl⟩
      · exact absurd rfl hne
    · rw [if_neg (Ne.symm hne)]
      exact hs.unfed id q v hid ((Function.update_of_ne hne ..).symm.trans hq)
  · intro d t hd
    show _ ∧ HttpflvServer.unheard d (h.log ++ [.made h.nextWriter]) = _
    rw [unheard_made]
    exact hs.unheard d t hd
  · intro q hq
    have hlt : h.nextWriter + 1 ≤ q := hq
    exact (Function.update_of_ne (by omega) ..).trans (hs.freshWriter q (by omega))

/-- What a request for a stream does. -/
structure Made (uuid : Nat → Bytes) (c : Nat) (h h' : Heap) : Prop where
  nextWriter : h'.nextWriter = h.nextWriter + 1
  nextSession : h'.nextSession = h.nextSession
  others : ∀ q, q ≠ h.nextWriter →
    (h'.writers q).map Writer.ident = (h.writers q).map Writer.ident
  made : ∃ w, h'.writers h.nextWriter = some w ∧ w.writerId = uuid h.nextWriter ∧ h'.Open w.resp c
  handleMap : h'.handleMap = if (h.handleMap.find? (uuid h.nextWriter)).isSome then h.handleMap
    else h.handleMap.assign (uuid h.nextWriter) h.nextWriter
  closed : ∀ r d, h'.Open r d → h.Open r d ∨ h.responses r = none
  log : h'.log = h.log ++ [.made h.nextWriter]

end Heap

open HttpflvServer.Heap MediaStreamManager

section Entries

variable {V : Type} {uuid : Nat → Bytes} {P : Obs → Prop} {h h' : Heap}
  {streams streams' : Streams (Nat ⊕ V)}

theorem Entries.quiet (he : Entries h streams)
    (hquiet : Quiet P h h') : Entries h' streams := by
  intro k stream hk entry hentry p hp
  obtain ⟨v, hv, hkey, hid⟩ := he k stream hk entry hentry p hp
  obtain ⟨v', hv', hident⟩ := hquiet.exists_writer' hv
  obtain ⟨hkey', hid', -⟩ := Writer.ident_eq hident
  exact ⟨v', hv', hkey'.trans hkey, hid'.trans hid⟩

theorem Entries.within (he : Entries h streams)
    (hwithin : Within streams streams') : Entries h streams' := by
  intro k stream' hk entry hentry p hp
  obtain ⟨stream, hstream, hin⟩ := hwithin k stream' hk entry hentry
  exact he k stream hstream entry hin p hp

/-- The stream of a new writer. -/
theorem Entries.enlist (he : Entries h streams)
    (hfresh : h.writers h.nextWriter = none) (key : Bytes) (r : Nat) :
    Entries (h.enlist uuid key r)
      (Function.update streams key
        (some (((streams key).getD {}).insertWriter (uuid h.nextWriter) (.inl h.nextWriter)))) := by
  have hold : ∀ k stream, streams k = some stream → ∀ entry ∈ stream.writerMap, ∀ p,
      entry.2 = .inl p → ∃ v, (h.enlist uuid key r).writers p = some v ∧ v.key = k ∧
        v.writerId = entry.1 := by
    intro k stream hk entry hentry p hp
    obtain ⟨v, hv, hvk⟩ := he k stream hk entry hentry p hp
    have hne : p ≠ h.nextWriter := by
      rintro rfl
      rw [hfresh] at hv
      cases hv
    exact ⟨v, (Function.update_of_ne hne ..).trans hv, hvk⟩
  intro k stream hk entry hentry p hp
  by_cases hkey : k = key
  · rw [hkey, Function.update_self, Option.some.injEq] at hk
    rw [← hk, MediaStream.insertWriter] at hentry
    have hin : entry ∈ ((streams key).getD {}).writerMap ∨
        entry = (uuid h.nextWriter, .inl h.nextWriter) := by
      split at hentry
      · exact Or.inl hentry
      · rcases List.mem_append.mp hentry with hentry | hentry
        · exact Or.inl hentry
        · exact Or.inr (List.mem_singleton.mp hentry)
    rcases hin with hin | rfl
    · rcases hs : streams key with _ | stream₀
      · rw [hs] at hin
        cases hin
      · rw [hs] at hin
        exact hkey ▸ hold key stream₀ hs entry hin p hp
    · obtain rfl : h.nextWriter = p := Sum.inl.inj hp
      exact ⟨_, Function.update_self .., hkey.symm, rfl⟩
  · rw [Function.update_of_ne hkey] at hk
    exact hold k stream hk entry hentry p hp

end Entries

namespace World

variable {τ V : Type} {others : AvWriterBase τ V} {uuid : Nat → Bytes} {P : Obs → Prop}
  {w w' : World τ V} {c : Nat} {s : Session}

/-- The invariant of the server. -/
structure Sound (w : World τ V) : Prop where
  settled : Settled w.heap
  entries : Entries w.heap w.streams

/-! ## The callback of a read -/

/-- A session while it handles a read. -/
def woken (read : Option Bytes) (input : HttpInput) (s : Session) : Session :=
  { s with
    input := input
    isClosed := s.isClosed || read.isNone
    aliver := s.aliver.keepAlive
    reading := false
    failed := s.failed || read.isNone }

/-- The heap while the session handles a read. -/
def hearing (c : Nat) (read : Option Bytes) (input : HttpInput) (s : Session) (h : Heap) : Heap :=
  (h.setSession c (woken read input s)).record (.heard c)

theorem setSession_record (o : Obs) (t : Session) (h : Heap) :
    (h.record o).setSession c t = (h.setSession c t).record o := rfl

theorem closeSession_unanswered {t : Session} (hresp : t.response = none) (h : Heap) :
    closeSession c (h.setSession c t) = .ok (h.setSession c { t with isClosed := true }) := by
  by_cases hclosed : t.isClosed = true
  · have hsame : { t with isClosed := true } = t := by rw [← hclosed]
    rw [closeSession_of_closed (setSession_self ..) hclosed, hsame]
  · rw [closeSession_of_none (setSession_self ..) (by simpa using hclosed) hresp, setSession_idem]

/-- A read that has failed closes its session. -/
theorem close_failed (hresp : s.response = none) (read : Option Bytes) (h : Heap) :
    let t := { s with reading := false, failed := s.failed || read.isNone }
    (if read.isNone then closeSession c (h.setSession c t) else .ok (h.setSession c t)) =
      .ok (h.setSession c { t with isClosed := s.isClosed || read.isNone }) := by
  dsimp only
  rcases read with _ | data
  · rw [if_pos (by rfl), closeSession_unanswered (by exact hresp)]
    simp only [Option.isNone_none, Bool.or_true]
  · rw [if_neg (by simp)]
    simp only [Option.isNone_some, Bool.or_false]

theorem onRead_eq (hset : Settled w.heap) (hc : w.heap.sessions c = some s)
    (hreading : s.reading = true) (read : Option Bytes) :
    onRead others uuid c read w =
      match s.input.takeData (read.getD []) with
      | .error _ => .error .thrown
      | .ok (.rejected, input) =>
        ofFault (withHeap (onClose s.remoteEndpoint)
          { w with heap := hearing c read input s w.heap })
      | .ok (.incomplete, input) =>
        .ok { w with heap :=
          (w.heap.setSession c { woken read input s with reading := true }).record (.heard c) }
      | .ok (.complete _, input) =>
        ofFault (handle others uuid c { w with heap := hearing c read input s w.heap }) := by
  have hresp := (hset.sound.waits c s hc).response hreading
  rw [onRead, hc]
  dsimp only
  rw [hreading]
  simp only [Bool.not_true, Bool.false_eq_true, if_false]
  rw [close_failed hresp read w.heap]
  simp only [ofFault, Run.ok_bind, deref_some (setSession_self ..)]
  rcases s.input.takeData (read.getD []) with e | ⟨found, input⟩
  · rfl
  rcases found with _ | _ | body
  · dsimp only
    rw [setSession_idem]
    rfl
  · dsimp only
    rw [setSession_idem, setSession_record, setSession_idem]
    rfl
  · dsimp only
    rw [setSession_idem]
    rfl

section Players

variable {h : Heap} {p : Nat} {v : Writer} {t : τ}

theorem getKey_inl (hp : h.writers p = some v) :
    (players others).getKey (.inl p) (h, t) = .ok v.key := by
  show (deref (h.writers p) >>= _) = _
  rw [deref_some hp]
  rfl

theorem getWriterid_inl (hp : h.writers p = some v) :
    (players others).getWriterid (.inl p) (h, t) = .ok v.writerId := by
  show (deref (h.writers p) >>= _) = _
  rw [deref_some hp]
  rfl

theorem addPlayer_inl (hp : h.writers p = some v) (streams : Streams (Nat ⊕ V)) :
    addPlayer (players others) (.inl p) (h, t) streams =
      .ok (Function.update streams v.key
        (some (((streams v.key).getD {}).insertWriter v.writerId (.inl p)))) := by
  rw [addPlayer, getKey_inl hp, Run.ok_bind, getWriterid_inl hp]
  rfl

theorem removePlayer_inl (hp : h.writers p = some v) (streams : Streams (Nat ⊕ V)) :
    removePlayer (players others) (.inl p) (h, t) streams =
      .ok (erasePlayer v.key v.writerId streams) := by
  rw [removePlayer, getKey_inl hp, Run.ok_bind, getWriterid_inl hp]
  rfl

end Players

/-- A new response that is closed at once leaves nothing. -/
theorem quiet_of_answer (hs : Heap.Sound ls lw h) (hserved : Served (h.answer c s) h')
    (hnot : ∀ d, ¬ h'.Open h.nextResponse d) : Quiet P h h' where
  writers := hserved.writers
  handleMap := hserved.handleMap
  nextWriter := hserved.nextWriter
  nextSession := hserved.nextSession
  closed r d hr := by
    rcases open_answer (hserved.closed r d hr) with hr' | rfl
    · exact hr'
    · exact absurd hr (hnot d)
  log := by
    obtain ⟨obs, hlog, hobs⟩ := hserved.log
    refine ⟨obs, hlog, fun o ho => Or.inr ?_⟩
    obtain ⟨p, pkt, v, d, rfl, hv, hvopen⟩ := (hobs o ho).resolve_left id
    -- a writer that was there has an older response
    obtain ⟨resp, hresp⟩ := hs.answered p v hv
    refine ⟨p, pkt, v, d, rfl, hv, (open_answer hvopen).resolve_right fun heq => ?_⟩
    rw [heq, hs.freshResponse _ (Nat.le_refl _)] at hresp
    cases hresp

/-- The call of the handler. -/
theorem handle_spec (hw : Sound w) (hc : w.heap.sessions c = some s) (hresp : s.response = none)
    (hopen : s.isClosed = false) (hreading : s.reading = false) :
    ∃ w', handle others uuid c w = .ok w' ∧ Sound w' ∧
      (Quiet P w.heap w'.heap ∧ w'.streams = w.streams ∨ Made uuid c w.heap w'.heap) := by
  have hset₁ := hw.settled.answer hc hresp hopen hreading
  have hr₁ : (w.heap.answer c s).responses w.heap.nextResponse = some { session := some c } :=
    Function.update_self ..
  have hfresh : w.heap.responses w.heap.nextResponse = none :=
    hw.settled.sound.freshResponse _ (Nat.le_refl _)
  have hhandle : handle others uuid c w = httpflvHandle others uuid s.input.request.uri
      w.heap.nextResponse { w with heap := w.heap.answer c s } := by
    rw [handle, deref_some hc]
    rfl
  rw [hhandle, httpflvHandle]
  rcases streamKey s.input.request.uri with _ | key
  · obtain ⟨h', hclose, hs', hserved, -, hnot⟩ := closeResponse_spec hset₁.sound hr₁
    have hquiet : Quiet P w.heap h' := quiet_of_answer hw.settled.sound hserved hnot
    refine ⟨{ w with heap := h' }, ?_, ⟨hset₁.served hs' hserved, ?_⟩, Or.inl ⟨hquiet, rfl⟩⟩
    · show withHeap _ _ = _
      rw [withHeap, hclose]
      rfl
    · exact Entries.quiet hw.entries hquiet
  · let h₁ := w.heap.answer c s
    have hfreshw : h₁.writers h₁.nextWriter = none := hset₁.sound.freshWriter _ (Nat.le_refl _)
    refine ⟨⟨h₁.enlist uuid key w.heap.nextResponse, w.others,
      Function.update w.streams key (some (((w.streams key).getD {}).insertWriter
        (uuid h₁.nextWriter) (.inl h₁.nextWriter)))⟩, ?_, ⟨⟨?_, ?_, ?_⟩, ?_⟩,
      Or.inr ⟨rfl, rfl, ?_, ?_, rfl, ?_, rfl⟩⟩
    · show (addPlayer (players others) (.inl h₁.nextWriter)
        ({ h₁.enlist uuid key w.heap.nextResponse with log := h₁.log }, w.others) w.streams >>=
          _) = _
      rw [addPlayer_inl (by exact enlist_self)]
      rfl
    · exact hset₁.sound.enlist rfl ⟨_, hr₁⟩
    · exact hset₁.mapped
    · exact hset₁.heard
    · exact @Entries.enlist _ uuid h₁ w.streams hw.entries hfreshw key w.heap.nextResponse
    · exact fun q hq => congrArg (Option.map Writer.ident) (Function.update_of_ne hq ..)
    · exact ⟨_, enlist_self, rfl, _, hr₁, rfl, rfl⟩
    · intro r d hr
      rcases open_answer (show h₁.Open r d from hr) with hr' | rfl
      · exact Or.inl hr'
      · exact Or.inr hfresh

/-- A failed read brings nothing, so that a request is complete on an open session only. -/
theorem open_of_complete {read : Option Bytes} {input : HttpInput}
    {body : HttpRequest → HttpRequest} (hwaits : s.Waits) (hreading : s.reading = true)
    (htake : s.input.takeData (read.getD []) = .ok (.complete body, input))
    (hsteady : read ≠ none → s.failed = false) : (woken read input s).isClosed = false := by
  rcases read with _ | data
  · rw [Option.getD_none, hwaits.input hreading] at htake
    cases htake
  · by_contra hclosed
    have hclosed' : s.isClosed = true := by simpa [woken] using hclosed
    have hfailed := hwaits.isOpen hreading hclosed'
    rw [hsteady (by simp)] at hfailed
    cases hfailed

/-- A read makes a writer, or it is quiet.  A request that has come after a failed read would
be answered by a closed session. -/
theorem onRead_spec (hw : Sound w) (hc : w.heap.sessions c = some s) (read : Option Bytes)
    (hsteady : read ≠ none → s.failed = false) (f : Fault) :
    Run.Guarded (.fault f)
      (fun w' : World τ V => Sound w' ∧ (Quiet (fun o => o = .heard c) w.heap w'.heap ∨
        ∃ h₁, Settled h₁ ∧ Quiet (fun o => o = .heard c) w.heap h₁ ∧ Made uuid c h₁ w'.heap))
      (onRead others uuid c read w) := by
  have hwaits := hw.settled.sound.waits c s hc
  by_cases hreading : s.reading = true
  swap
  · have hidle : onRead others uuid c read w = .ok w := by
      rw [onRead, hc]
      dsimp only
      rw [if_pos (by simpa using hreading)]
    rw [hidle]
    exact Run.guarded_ok ⟨hw, Or.inl ((Served.refl _).toQuiet.mono fun _ => False.elim)⟩
  have hresp := hwaits.response hreading
  rw [onRead_eq hw.settled hc hreading]
  rcases htake : s.input.takeData (read.getD []) with e | ⟨found, input⟩
  · exact Run.guarded_error (by simp)
  have hset₁ : Settled (hearing c read input s w.heap) :=
    hw.settled.hear (woken read input s) hc rfl rfl (fun h => absurd hresp h) (.of_not_reading rfl)
      rfl
  have hheard := (heard_record hc (woken read input s) rfl).toQuiet
  have hentries₁ := hw.entries.quiet hheard
  rcases found with _ | _ | body
  · obtain ⟨h', hclose, hset', hquiet⟩ :=
      @onClose_spec (fun o => o = .heard c) _ hset₁ s.remoteEndpoint
    have hok : withHeap (onClose s.remoteEndpoint)
        { w with heap := hearing c read input s w.heap } =
        .ok { w with heap := h' } := by
      rw [withHeap, hclose]
      rfl
    dsimp only
    rw [hok]
    exact Run.guarded_ok ⟨⟨hset', hentries₁.quiet hquiet⟩, Or.inl (hheard.trans hquiet)⟩
  · let s' : Session := { woken read input s with reading := true }
    have hwaits' : s'.Waits := by
      refine ⟨fun _ => hresp, fun _ => hwaits.sent hreading, fun _ hclosed => ?_, fun _ => ?_⟩
      · rcases Bool.or_eq_true_iff.mp hclosed with hclosed | hnone
        · exact Bool.or_eq_true_iff.mpr (Or.inl (hwaits.isOpen hreading hclosed))
        · exact Bool.or_eq_true_iff.mpr (Or.inr hnone)
      · exact HttpInput.takeData_again htake
    have hquiet := (heard_record hc s' rfl).toQuiet
    have hset' := hw.settled.hear s' hc rfl rfl (fun h => absurd hresp h) hwaits' rfl
    exact Run.guarded_ok ⟨⟨hset', hw.entries.quiet hquiet⟩, Or.inl hquiet⟩
  · have hopen := open_of_complete hwaits hreading htake hsteady
    have hc₁ : (hearing c read input s w.heap).sessions c = some (woken read input s) :=
      setSession_self ..
    obtain ⟨w', hok, hw', heffect⟩ := @handle_spec _ _ others uuid (fun o => o = .heard c)
      { w with heap := hearing c read input s w.heap } c _ ⟨hset₁, hentries₁⟩ hc₁ hresp hopen rfl
    dsimp only
    rw [hok]
    refine Run.guarded_ok ⟨hw', ?_⟩
    rcases heffect with ⟨hquiet, -⟩ | hmade
    · exact Or.inl (hheard.trans hquiet)
    · exact Or.inr ⟨_, hset₁, hheard, hmade⟩

/-! ## Packets -/

/-- The players that can be called: those of the others, and the writers that are there. -/
def Live (h : Heap) : Nat ⊕ V → Prop
  | .inl p => ∃ v, h.writers p = some v
  | .inr _ => True

theorem guards_players {f : Fault} (hn : NeverFaults others f fun _ => True) (h₀ : Heap) :
    Guards (players others) f
      (fun st => Heap.Sound (fun _ => 0) (fun _ => 0) st.1 ∧ Served h₀ st.1) (Live h₀) where
  write := by
    rintro pkt (p | v) ⟨h, t⟩ hlive ⟨hs, hserved⟩
    · obtain ⟨v₀, hv₀⟩ := hlive
      obtain ⟨v, hp, -⟩ := hserved.exists_writer' hv₀
      obtain ⟨ret, h', hwrite, hs', hserved'⟩ := writePacket_spec hs hp rfl pkt
      refine Run.guarded_of_ok (a := (ret, (h', t))) ?_ ⟨hs', hserved.trans hserved'⟩
      show (h.writePacket pkt p >>= _) = _
      rw [hwrite]
      rfl
    · refine (Run.guarded_of_avoids (hn.write trivial)).bind fun x _ _ => ?_
      exact Run.guarded_pure ⟨hs, hserved⟩
  key := by
    rintro (p | v) ⟨h, t⟩ hlive ⟨hs, hserved⟩
    · obtain ⟨v₀, hv₀⟩ := hlive
      obtain ⟨v, hp, -⟩ := hserved.exists_writer' hv₀
      rw [getKey_inl hp]
      exact Run.avoids_ok _ _
    · exact hn.key
  writerid := by
    rintro (p | v) ⟨h, t⟩ hlive ⟨hs, hserved⟩
    · obtain ⟨v₀, hv₀⟩ := hlive
      obtain ⟨v, hp, -⟩ := hserved.exists_writer' hv₀
      rw [getWriterid_inl hp]
      exact Run.avoids_ok _ _
    · exact hn.writerid
  inited := by
    rintro (p | v) ⟨h, t⟩ hlive ⟨hs, hserved⟩
    · obtain ⟨v₀, hv₀⟩ := hlive
      obtain ⟨v, hp, -⟩ := hserved.exists_writer' hv₀
      show Run.Avoids f (deref (h.writers p) >>= _)
      rw [deref_some hp]
      exact Run.avoids_ok _ _
    · exact hn.inited
  init := by
    rintro flag (p | v) ⟨h, t⟩ hlive ⟨hs, hserved⟩
    · obtain ⟨v₀, hv₀⟩ := hlive
      obtain ⟨v, hp, -⟩ := hserved.exists_writer' hv₀
      obtain ⟨hs', hserved'⟩ := hs.setWriter { v with initFlag := flag } hp rfl rfl
      show Run.Guarded f _ (deref (h.writers p) >>= _)
      rw [deref_some hp]
      exact Run.guarded_ok ⟨hs', hserved.trans hserved'⟩
    · refine (Run.guarded_of_avoids hn.init).bind fun x _ _ => ?_
      exact Run.guarded_pure ⟨hs, hserved⟩

theorem guarded_ofFault {α : Type} {f : Fault} {Q : α → Prop} {x : Except Fault α}
    (h : Run.Guarded f Q x) : Run.Guarded (.fault f) Q (ofFault x) := by
  rcases x with e | a
  · exact Run.guarded_error fun he => h (Stop.fault.inj he)
  · exact h

/-- A packet for any number of players. -/
theorem packet_spec {f : Fault} (hn : NeverFaults others f fun _ => True) (hw : Sound w)
    (pkt : MediaPacket) :
    Run.Guarded (.fault f)
      (fun w' : World τ V => Sound w' ∧ Quiet (fun _ => False) w.heap w'.heap)
      (step others uuid (.packet pkt) w) := by
  have hlive : ∀ stream, w.streams pkt.key = some stream → ∀ entry ∈ stream.writerMap,
      Live w.heap entry.2 := by
    intro stream hk entry hentry
    rcases hentry2 : entry.2 with p | v
    · obtain ⟨v, hv, -⟩ := hw.entries _ stream hk entry hentry p hentry2
      exact ⟨v, hv⟩
    · exact trivial
  have hpacket : Run.Guarded f _
      (writerMediaPacket (players others) pkt (w.heap, w.others) w.streams) :=
    (guards_players hn w.heap).writerMediaPacket hlive ⟨hw.settled.sound, Served.refl _⟩
  refine (guarded_ofFault hpacket).bind ?_
  rintro ⟨st, streams⟩ - ⟨⟨hs', hserved⟩, hwithin⟩
  exact Run.guarded_pure ⟨⟨hw.settled.served hs' hserved,
    (hw.entries.quiet hserved.toQuiet).within hwithin⟩, hserved.toQuiet⟩

/-- A player of the others. -/
theorem addOther_spec {f : Fault} (hn : NeverFaults others f fun _ => True) (hw : Sound w) (v : V) :
    Run.Guarded (.fault f)
      (fun w' : World τ V => Sound w' ∧ Quiet (fun _ => False) w.heap w'.heap)
      (step others uuid (.addOther v) w) := by
  have hadd : Run.Guarded f (Entries w.heap)
      (addPlayer (players others) (.inr v) (w.heap, w.others) w.streams) := by
    refine (Run.guarded_of_avoids hn.key).bind fun key _ _ => ?_
    refine (Run.guarded_of_avoids hn.writerid).bind fun id _ _ => ?_
    refine Run.guarded_pure fun k stream hk entry hentry p hp => ?_
    by_cases hkey : k = key
    · rw [hkey, Function.update_self, Option.some.injEq] at hk
      rw [← hk, MediaStream.insertWriter] at hentry
      have hin : entry ∈ ((w.streams key).getD {}).writerMap := by
        split at hentry
        · exact hentry
        · rcases List.mem_append.mp hentry with hentry | hentry
          · exact hentry
          · rw [List.mem_singleton.mp hentry] at hp
            cases hp
      rcases hs : w.streams key with _ | stream₀
      · rw [hs] at hin
        cases hin
      · rw [hs] at hin
        exact hkey ▸ hw.entries key stream₀ hs entry hin p hp
    · rw [Function.update_of_ne hkey] at hk
      exact hw.entries k stream hk entry hentry p hp
  refine (guarded_ofFault hadd).bind fun streams _ hentries => ?_
  exact Run.guarded_pure ⟨⟨hw.settled, hentries⟩, (Served.refl _).toQuiet⟩

theorem removeOther_spec {f : Fault} (hn : NeverFaults others f fun _ => True) (hw : Sound w)
    (v : V) :
    Run.Guarded (.fault f)
      (fun w' : World τ V => Sound w' ∧ Quiet (fun _ => False) w.heap w'.heap)
      (step others uuid (.removeOther v) w) := by
  have hremove : Run.Guarded f (Within w.streams)
      (removePlayer (players others) (.inr v) (w.heap, w.others) w.streams) :=
    (guards_players hn w.heap).removePlayer (w := .inr v) trivial
      ⟨hw.settled.sound, Served.refl _⟩ w.streams
  refine (guarded_ofFault hremove).bind fun streams _ hwithin => ?_
  exact Run.guarded_pure ⟨⟨hw.settled, hw.entries.within hwithin⟩, (Served.refl _).toQuiet⟩

end World

end HttpflvServer

end MediaServer
