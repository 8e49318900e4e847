import Mathlib.Tactic.Common
import MediaServer.Httpflv.ServerRuns

/-!
# How long the clients of the HTTP-FLV server live

A writer goes with the sixth check since its last packet, and with no other step
(`writer_lifetime`).  The ids of the writers are random, so that no two are the same.

A client from which nothing comes and to which nothing gets through is cleaned away: its
session in six ticks, which closes its response, and its writer in six checks more
(`silent_client_cleaned`).

Both are about runs of steady sockets (`Event.Steady`) that no late callback has ended.
-/

namespace MediaServer

namespace HttpflvServer

namespace World

open HttpflvServer.Heap MediaStreamManager

variable {τ V : Type} {others : AvWriterBase τ V} {uuid : Nat → Bytes} {w w' : World τ V}
  {f : Fault} {P : Obs → Prop} {D : Nat → Prop} {h h' : Heap} {e : Event V} {c p : Nat}

/-! ## The lifetime of a writer -/

/-- Six checks without a packet. -/
def Starved (p : Nat) (log : List Obs) : Prop :=
  Watchdog.Expired (Obs.makes p) (Obs.feeds p) Obs.isCheck 6 log

/-- The writers that are there are those that have not starved. -/
structure Lifetimes (uuid : Nat → Bytes) (h : Heap) : Prop where
  made : ∀ p, .made p ∈ h.log ↔ p < h.nextWriter
  handled : ∀ p v, h.writers p = some v →
    v.writerId = uuid p ∧ h.handleMap.find? (uuid p) = some p
  starved : ∀ p, p < h.nextWriter → (h.writers p = none ↔ Starved p h.log)

theorem starved_append {obs : List Obs} {log : List Obs} (hobs : ∀ o ∈ obs, o.isCheck = false) :
    Starved p (log ++ obs) ↔ Starved p log :=
  Watchdog.expired_append_of_no_tick (by decide) hobs

theorem not_starved {log : List Obs} (hmade : .made p ∉ log) : ¬ Starved p log := by
  intro h
  obtain ⟨o, ho, hstart⟩ := h.exists_start
  cases o with
  | made q =>
    have hq : q = p := by simpa [Obs.makes] using hstart
    exact hmade (hq ▸ ho)
  | accepted _ | heard _ | ticked | wrote _ _ | checked => cases hstart

theorem Lifetimes.quiet (hl : Lifetimes uuid h) (hquiet : Quiet P h h')
    (hP : ∀ o, P o → o.isCheck = false ∧ ∀ p, o ≠ .made p) : Lifetimes uuid h' := by
  obtain ⟨obs, hlog, hobs⟩ := hquiet.log
  have hobs' : ∀ o ∈ obs, o.isCheck = false ∧ ∀ p, o ≠ .made p := by
    intro o ho
    rcases hobs o ho with ho | ⟨q, pkt, v, d, rfl, -⟩
    · exact hP o ho
    · exact ⟨rfl, fun _ h => by cases h⟩
  refine ⟨fun p => ?_, fun p v' hp => ?_, fun p hp => ?_⟩
  · rw [hlog, hquiet.nextWriter, ← hl.made p, List.mem_append, or_iff_left]
    exact fun hin => (hobs' _ hin).2 p rfl
  · obtain ⟨v, hv, hident⟩ := hquiet.exists_writer hp
    obtain ⟨-, hid, -⟩ := Writer.ident_eq hident
    rw [hquiet.handleMap, ← hid]
    exact hl.handled p v hv
  · rw [hquiet.nextWriter] at hp
    rw [hlog, starved_append fun o ho => (hobs' o ho).1, hquiet.eq_none_iff, hl.starved p hp]

theorem Lifetimes.enlisted (hl : Lifetimes uuid h) (hinj : Function.Injective uuid)
    (hs : Heap.Sound (fun _ => 0) (fun _ => 0) h) (hmade : Made uuid c h h') :
    Lifetimes uuid h' := by
  have hfresh : h.handleMap.find? (uuid h.nextWriter) = none := by
    by_contra hne
    obtain ⟨q, hq⟩ := Option.ne_none_iff_exists'.mp hne
    obtain ⟨v, hv, hid⟩ := hs.handled _ q hq
    have heq : q = h.nextWriter := hinj ((hl.handled q v hv).1.symm.trans hid)
    rw [heq, hs.freshWriter _ (Nat.le_refl _)] at hv
    cases hv
  have hhandle : h'.handleMap = h.handleMap.assign (uuid h.nextWriter) h.nextWriter := by
    rw [hmade.handleMap, hfresh]
    rfl
  obtain ⟨v, hv, hid, -⟩ := hmade.made
  refine ⟨fun p => ?_, fun p v' hp => ?_, fun p hp => ?_⟩
  · rw [hmade.log, List.mem_append, hl.made p, hmade.nextWriter, List.mem_singleton,
      Obs.made.injEq]
    omega
  · by_cases hne : p = h.nextWriter
    · subst hne
      rw [hv, Option.some.injEq] at hp
      rw [hhandle, ← hp]
      exact ⟨hid, OrderedMap.find?_assign_self⟩
    · have hmap := hmade.others p hne
      rw [hp, Option.map_some] at hmap
      obtain ⟨v₀, hv₀, hident⟩ := Option.map_eq_some_iff.mp hmap.symm
      obtain ⟨-, hid₀, -⟩ := Writer.ident_eq hident
      rw [hhandle, OrderedMap.find?_assign_of_ne (hinj.ne hne), ← hid₀]
      exact hl.handled p v₀ hv₀
  · rw [hmade.log, starved_append (by simp [Obs.isCheck])]
    by_cases hne : p = h.nextWriter
    · subst hne
      rw [hv]
      refine iff_of_false (by simp) (not_starved fun hin => ?_)
      exact Nat.lt_irrefl _ ((hl.made _).mp hin)
    · rw [← Option.map_eq_none_iff (f := Writer.ident), hmade.others p hne,
        Option.map_eq_none_iff]
      rw [hmade.nextWriter] at hp
      exact hl.starved p (by omega)

theorem Lifetimes.checked (hl : Lifetimes uuid h) (hs' : Heap.Sound (fun _ => 0) (fun _ => 0) h')
    (hchecked : Checked [] h h') : Lifetimes uuid h' := by
  have hhandled : ∀ p v', h'.writers p = some v' →
      v'.writerId = uuid p ∧ h'.handleMap.find? (uuid p) = some p := by
    intro p v' hp
    obtain ⟨v, hv, hident⟩ := hchecked.kept p v' hp
    obtain ⟨-, hid, -⟩ := Writer.ident_eq hident
    obtain ⟨hid₀, hfind⟩ := hl.handled p v hv
    exact ⟨hid ▸ hid₀, (hchecked.handled _ p).mpr ⟨hfind, by simp [hp]⟩⟩
  refine ⟨fun p => ?_, hhandled, fun p hp => ?_⟩
  · rw [hchecked.log, hchecked.nextWriter, ← hl.made p]
    simp
  · rw [hchecked.nextWriter] at hp
    rcases hold : h.writers p with _ | v
    · have hgone : h'.writers p = none := by
        by_contra hne
        obtain ⟨v', hv'⟩ := Option.ne_none_iff_exists'.mp hne
        obtain ⟨v, hv, -⟩ := hchecked.kept p v' hv'
        rw [hold] at hv
        cases hv
      refine iff_of_true hgone ?_
      rw [hchecked.log]
      exact ((hl.starved p hp).mp hold).append
    · have hyoung : ¬ Starved p h.log := by
        rw [← hl.starved p hp, hold]
        exact Option.some_ne_none _
      constructor
      · intro hnone
        obtain ⟨n, hn, hcount⟩ := hchecked.gone p v hold hnone
        exact .of_idle hcount hn
      · intro hstarved
        by_contra hne
        obtain ⟨v', hv'⟩ := Option.ne_none_iff_exists'.mp hne
        -- a writer that is left has counted five checks at most
        obtain ⟨-, hfind⟩ := hhandled p v' hv'
        have hle := hchecked.fed _ p v' hfind (by simp) hv'
        have hcount := (hs'.unfed _ p v' hfind hv').2
        rw [Starved, hchecked.log, Watchdog.expired_concat] at hstarved
        rcases hstarved with hstarved | hsix
        · exact hyoung hstarved
        · have hsix' : unfed p h'.log = some 6 := by
            rw [hchecked.log]
            exact hsix
          rw [hcount, Option.some.injEq] at hsix'
          omega

theorem Event.Records.not_made {o : Obs} (ho : e.Records h o) :
    o.isCheck = false ∧ ∀ p, o ≠ .made p := by
  rcases ho.cases with rfl | ⟨c, -, rfl⟩ | rfl <;> exact ⟨rfl, fun _ h => by cases h⟩

theorem Lifetimes.effect (hl : Lifetimes uuid h) (hinj : Function.Injective uuid)
    (hs' : Heap.Sound (fun _ => 0) (fun _ => 0) h') (heffect : Effect uuid e h h') :
    Lifetimes uuid h' := by
  rcases heffect with ⟨-, hquiet, -⟩ | ⟨-, -, hset, hquiet, hmade⟩ | ⟨-, hchecked⟩
  · exact hl.quiet hquiet fun _ => Event.Records.not_made
  · exact (hl.quiet hquiet fun _ => Event.Records.not_made).enlisted hinj hset.sound hmade
  · exact hl.checked hs' hchecked

theorem lifetimes_start (uuid : Nat → Bytes) (t : τ) :
    Lifetimes uuid (start t : World τ V).heap where
  made p := ⟨fun h => absurd h List.not_mem_nil, fun h => absurd h (Nat.not_lt_zero p)⟩
  handled _ v h := absurd (show none = some v from h) (by simp)
  starved p h := absurd h (Nat.not_lt_zero p)

/-- The invariants at the end of a run. -/
theorem run_lifetimes (hinj : Function.Injective uuid) (hn : NeverFaults others f fun _ => True)
    {events : List (Event V)} (hw : Sound w) (hl : Lifetimes uuid w.heap)
    (hsteady : Run.Along (step others uuid) Event.Steady events w)
    (hrun : Run.run (step others uuid) events w = .ok w') :
    Sound w' ∧ Lifetimes uuid w'.heap := by
  have hstep : ∀ (e : Event V) (w w' : World τ V), Sound w ∧ Lifetimes uuid w.heap → e.Steady w →
      step others uuid e w = .ok w' → Sound w' ∧ Lifetimes uuid w'.heap := by
    intro e w w' h hsteady hok
    obtain ⟨hw', heffect⟩ := step_ok_spec hn h.1 hsteady hok
    exact ⟨hw', h.2.effect hinj hw'.settled.sound heffect⟩
  exact Run.run_invariant hstep ⟨hw, hl⟩ hsteady hrun

/-- **The lifetime of a writer.**  In every state that a run reaches without a late callback,
which ends it, the writers that are there are those that were made and have not gone through
six checks in a row without a packet written to their response.  The sockets are steady: one
that has failed a read brings nothing more. -/
theorem writer_lifetime (others : AvWriterBase τ V) (uuid : Nat → Bytes)
    (hinj : Function.Injective uuid) (f : Fault) (hn : NeverFaults others f fun _ => True) (t : τ)
    (events : List (Event V))
    (hsteady : Run.Along (step others uuid) Event.Steady events (start t)) (w : World τ V)
    (hrun : Run.run (step others uuid) events (start t) = .ok w) (p : Nat) :
    (∃ v, w.heap.writers p = some v) ↔ .made p ∈ w.heap.log ∧ ¬ Starved p w.heap.log := by
  obtain ⟨hw, hl⟩ := run_lifetimes hinj hn (sound_start t) (lifetimes_start uuid t) hsteady hrun
  rw [← Option.ne_none_iff_exists', hl.made p]
  by_cases hp : p < w.heap.nextWriter
  · rw [Ne, hl.starved p hp]
    exact (and_iff_right hp).symm
  · refine iff_of_false (fun hne => hne (hw.settled.sound.freshWriter p (by omega))) ?_
    exact fun h => hp h.1

theorem sampleUuid_injective : Function.Injective sampleUuid := by
  intro m n h
  simpa [sampleUuid] using congrArg List.length h

/-- One check is not enough to lose the writer of a client. -/
theorem writer_lifetime_client :
    ∃ w, Run.run (step StreamMap.halfBroken sampleUuid) (clientEvents ++ silentEvents)
        (start ()) = .ok w ∧ .made 0 ∈ w.heap.log ∧ ¬ Starved 0 w.heap.log := by
  obtain ⟨w, hrun, hwriter⟩ := Run.exists_of_map_toOption
    (x := Run.run (step StreamMap.halfBroken sampleUuid) (clientEvents ++ silentEvents) (start ()))
    (f := fun w => (w.heap.writers 0).isSome) (b := true) (by decide +kernel)
  refine ⟨w, hrun, ?_⟩
  obtain ⟨hsteady, -⟩ := steady_client.append hrun
  rw [← writer_lifetime StreamMap.halfBroken sampleUuid sampleUuid_injective .useAfterFree
    (neverFaults_halfBroken _) () (clientEvents ++ silentEvents) hsteady w hrun 0]
  exact Option.isSome_iff_exists.mp hwriter

/-! ## Cleaning up -/

/-- What the writer `p` writes goes to sessions with `D`, if it is there. -/
def Bound (D : Nat → Prop) (p : Nat) (h : Heap) : Prop :=
  p < h.nextWriter ∧ ∀ v, h.writers p = some v → ∀ c, h.Open v.resp c → D c

theorem Bound.quiet (hb : Bound D p h) (hquiet : Quiet P h h') : Bound D p h' := by
  refine ⟨hquiet.nextWriter ▸ hb.1, fun v' hp c hopen => ?_⟩
  obtain ⟨v, hv, hident⟩ := hquiet.exists_writer hp
  obtain ⟨-, -, hresp⟩ := Writer.ident_eq hident
  exact hb.2 v hv c (hresp ▸ hquiet.closed _ c hopen)

theorem Bound.made (hb : Bound D p h) (hs : Heap.Sound (fun _ => 0) (fun _ => 0) h)
    (hmade : Made uuid c h h') : Bound D p h' := by
  refine ⟨hmade.nextWriter ▸ Nat.lt_succ_of_lt hb.1, fun v' hp d hopen => ?_⟩
  have hne : p ≠ h.nextWriter := Nat.ne_of_lt hb.1
  have hmap := hmade.others p hne
  rw [hp, Option.map_some] at hmap
  obtain ⟨v, hv, hident⟩ := Option.map_eq_some_iff.mp hmap.symm
  obtain ⟨-, -, hresp⟩ := Writer.ident_eq hident
  rcases hmade.closed v'.resp d hopen with hopen | hnone
  · exact hb.2 v hv d (hresp ▸ hopen)
  · obtain ⟨resp, hr⟩ := hs.answered p v hv
    rw [hresp, hnone] at hr
    cases hr

theorem Bound.effect (hb : Bound D p h) (heffect : Effect uuid e h h') : Bound D p h' := by
  rcases heffect with ⟨-, hquiet, -⟩ | ⟨-, -, hset, hquiet, hmade⟩ | ⟨-, hchecked⟩
  · exact hb.quiet hquiet
  · exact (hb.quiet hquiet).made hset.sound hmade
  · refine ⟨hchecked.nextWriter ▸ hb.1, fun v' hp d hopen => ?_⟩
    obtain ⟨v, hv, hident⟩ := hchecked.kept p v' hp
    obtain ⟨-, -, hresp⟩ := Writer.ident_eq hident
    exact hb.2 v hv d (hresp ▸ hchecked.closed _ d hopen)

/-- Nothing is recorded of a writer without an open response. -/
theorem Effect.starves (heffect : Effect uuid e h h') (hb : Bound (fun _ => False) p h) :
    ∃ obs, h'.log = h.log ++ obs ∧ Watchdog.Silent (Obs.makes p) (Obs.feeds p) obs ∧
      (e.isCheckAlive = true → 0 < obs.countP Obs.isCheck) := by
  have hquiet : ∀ {h₁}, Quiet (e.Records h) h h₁ → ∃ obs, h₁.log = h.log ++ obs ∧
      Watchdog.Silent (Obs.makes p) (Obs.feeds p) obs := by
    intro h₁ hquiet
    obtain ⟨obs, hlog, hobs⟩ := hquiet.log
    refine ⟨obs, hlog, fun o ho => ?_⟩
    rcases hobs o ho with ho | ⟨q, pkt, v, d, rfl, hv, hopen⟩
    · rcases ho.cases with rfl | ⟨c, -, rfl⟩ | rfl <;> exact ⟨rfl, rfl⟩
    · refine ⟨rfl, decide_eq_false fun hqp => ?_⟩
      exact hb.2 v (hqp ▸ hv) d hopen
  rcases heffect with ⟨hcheck, hq, -⟩ | ⟨hcheck, -, -, hq, hmade⟩ | ⟨-, hchecked⟩
  · obtain ⟨obs, hlog, hsilent⟩ := hquiet hq
    exact ⟨obs, hlog, hsilent, fun he => absurd (hcheck.symm.trans he) Bool.false_ne_true⟩
  · obtain ⟨obs, hlog, hsilent⟩ := hquiet hq
    refine ⟨obs ++ [.made _], by rw [hmade.log, hlog, List.append_assoc], fun o ho => ?_,
      fun he => absurd (hcheck.symm.trans he) Bool.false_ne_true⟩
    rcases List.mem_append.mp ho with ho | ho
    · exact hsilent o ho
    · rw [List.mem_singleton.mp ho]
      refine ⟨decide_eq_false ?_, rfl⟩
      rw [hq.nextWriter]
      exact Nat.ne_of_gt hb.1
  · refine ⟨[.checked], hchecked.log, fun o ho => ?_, fun _ => by decide⟩
    rw [List.mem_singleton.mp ho]
    exact ⟨rfl, rfl⟩

/-- Nothing is recorded of a session while nothing comes from its socket. -/
theorem Effect.hushes (heffect : Effect uuid e h h') (hc : c < h.nextSession)
    (habout : ¬ e.About c) :
    c < h'.nextSession ∧ ∃ obs, h'.log = h.log ++ obs ∧
      Watchdog.Silent (Obs.accepts c) (Obs.hears c) obs ∧
        (e.isTimer = true → 0 < obs.countP Obs.isTick) := by
  have hquiet : ∀ {h₁}, Quiet (e.Records h) h h₁ → ∃ obs, h₁.log = h.log ++ obs ∧
      Watchdog.Silent (Obs.accepts c) (Obs.hears c) obs := by
    intro h₁ hquiet
    obtain ⟨obs, hlog, hobs⟩ := hquiet.log
    refine ⟨obs, hlog, fun o ho => ?_⟩
    rcases hobs o ho with ho | ⟨q, pkt, v, d, rfl, -⟩
    · rcases ho.cases with rfl | ⟨d, hd, rfl⟩ | rfl
      · exact ⟨decide_eq_false (Nat.ne_of_gt hc), rfl⟩
      · exact ⟨rfl, decide_eq_false fun hdc => habout (hdc ▸ hd)⟩
      · exact ⟨rfl, rfl⟩
    · exact ⟨rfl, rfl⟩
  rcases heffect with ⟨-, hq, htimer⟩ | ⟨-, htimer, -, hq, hmade⟩ | ⟨htimer, hchecked⟩
  · obtain ⟨obs, hlog, hsilent⟩ := hquiet hq
    refine ⟨Nat.lt_of_lt_of_le hc hq.nextSession, obs, hlog, hsilent, fun he => ?_⟩
    have hobs : obs = [.ticked] := List.append_cancel_left (hlog.symm.trans (htimer he))
    rw [hobs]
    decide
  · obtain ⟨obs, hlog, hsilent⟩ := hquiet hq
    refine ⟨hmade.nextSession ▸ Nat.lt_of_lt_of_le hc hq.nextSession, obs ++ [.made _],
      by rw [hmade.log, hlog, List.append_assoc], fun o ho => ?_,
      fun he => absurd (htimer.symm.trans he) Bool.false_ne_true⟩
    rcases List.mem_append.mp ho with ho | ho
    · exact hsilent o ho
    · rw [List.mem_singleton.mp ho]
      exact ⟨rfl, rfl⟩
  · refine ⟨Nat.lt_of_lt_of_le hc hchecked.nextSession, [.checked], hchecked.log, fun o ho => ?_,
      fun he => absurd (htimer.symm.trans he) Bool.false_ne_true⟩
    rw [List.mem_singleton.mp ho]
    exact ⟨rfl, rfl⟩

/-- A session that is silent for six ticks is gone. -/
theorem hushed_session (hn : NeverFaults others f fun _ => True) {quiet : List (Event V)}
    (hw : Sound w) (hsteady : Run.Along (step others uuid) Event.Steady quiet w)
    (hrun : Run.run (step others uuid) quiet w = .ok w') {s : Session}
    (hc : w.heap.sessions c = some s) (hquiet : ∀ e ∈ quiet, ¬ e.About c)
    (hticks : 6 ≤ quiet.countP Event.isTimer) : w'.heap.sessions c = none := by
  have hlt : c < w.heap.nextSession := by
    by_contra hge
    rw [hw.settled.sound.freshSession c (by omega)] at hc
    cases hc
  have hhush := hsteady.and (Run.along_of_forall_mem hquiet w)
  obtain ⟨⟨hw', -⟩, obs, hlog, hsilent, hcount⟩ :=
    Watchdog.exists_silent_run (fun w : World τ V => Sound w ∧ c < w.heap.nextSession)
      (fun w => w.heap.log)
      (fun e w w' h hcond hstep => by
        obtain ⟨hw', heffect⟩ := step_ok_spec hn h.1 hcond.1 hstep
        obtain ⟨hlt', hobs⟩ := heffect.hushes h.2 hcond.2
        exact ⟨⟨hw', hlt'⟩, hobs⟩)
      ⟨hw, hlt⟩ hhush hrun
  by_contra hne
  obtain ⟨s', hc'⟩ := Option.ne_none_iff_exists'.mp hne
  have hbefore := (hw.settled.sound.unheard c s hc).2
  have hafter := (hw'.settled.sound.unheard c s' hc').2
  have hle := hw'.settled.heard c s' hc'
  have hcount' : unheard c w'.heap.log =
      some (s.aliver.notAliveCnt + 0 + obs.countP Obs.isTick) := by
    rw [hlog]
    exact Watchdog.idle_of_silent hbefore hsilent
  rw [hafter, Option.some.injEq] at hcount'
  omega

theorem run_bound (hn : NeverFaults others f fun _ => True) {events : List (Event V)}
    (hw : Sound w) (hsteady : Run.Along (step others uuid) Event.Steady events w)
    (hrun : Run.run (step others uuid) events w = .ok w') (hb : Bound D p w.heap) :
    Bound D p w'.heap := by
  have hstep : ∀ (e : Event V) (w w' : World τ V), Sound w ∧ Bound D p w.heap → e.Steady w →
      step others uuid e w = .ok w' → Sound w' ∧ Bound D p w'.heap := by
    intro e w w' h hsteady hok
    obtain ⟨hw', heffect⟩ := step_ok_spec hn h.1 hsteady hok
    exact ⟨hw', h.2.effect heffect⟩
  exact (Run.run_invariant hstep ⟨hw, hb⟩ hsteady hrun).2

/-- A writer without an open response is gone after six checks. -/
theorem starved_writer (hinj : Function.Injective uuid) (hn : NeverFaults others f fun _ => True)
    {after : List (Event V)} (hw : Sound w) (hl : Lifetimes uuid w.heap)
    (hsteady : Run.Along (step others uuid) Event.Steady after w)
    (hrun : Run.run (step others uuid) after w = .ok w') (hb : Bound (fun _ => False) p w.heap)
    (hchecks : 6 ≤ after.countP Event.isCheckAlive) : w'.heap.writers p = none := by
  obtain ⟨⟨hw', hb'⟩, obs, hlog, hsilent, hcount⟩ :=
    Watchdog.exists_silent_run
      (fun w : World τ V => Sound w ∧ Bound (fun _ => False) p w.heap) (fun w => w.heap.log)
      (fun e w w' h hcond hstep => by
        obtain ⟨hw', heffect⟩ := step_ok_spec hn h.1 hcond hstep
        exact ⟨⟨hw', h.2.effect heffect⟩, heffect.starves h.2⟩)
      ⟨hw, hb⟩ hsteady hrun
  obtain ⟨-, hl'⟩ := run_lifetimes hinj hn hw hl hsteady hrun
  rw [hl'.starved p hb'.1, hlog]
  rcases hp : w.heap.writers p with _ | v
  · exact Watchdog.Expired.append ((hl.starved p hb.1).mp hp)
  · obtain ⟨-, hfind⟩ := hl.handled p v hp
    exact .of_silence (hw.settled.sound.unfed _ p v hfind hp).2 hsilent (by omega)

/-- **A silent client is cleaned away.**  Six ticks after the last sign of its socket a session
is gone, whatever else happens meanwhile, and six checks later its writer is deleted and in no
stream.  The sockets are steady, and no late callback has ended the run. -/
theorem silent_client_cleaned (others : AvWriterBase τ V) (uuid : Nat → Bytes)
    (hinj : Function.Injective uuid) (f : Fault) (hn : NeverFaults others f fun _ => True) (t : τ)
    (before quiet after : List (Event V))
    (hsteady : Run.Along (step others uuid) Event.Steady (before ++ quiet ++ after) (start t))
    (w₁ w₂ w₃ : World τ V) (h₁ : Run.run (step others uuid) before (start t) = .ok w₁)
    (h₂ : Run.run (step others uuid) quiet w₁ = .ok w₂)
    (h₃ : Run.run (step others uuid) after w₂ = .ok w₃) (c : Nat) (s : Session)
    (hc : w₁.heap.sessions c = some s) (hquiet : ∀ e ∈ quiet, ¬ e.About c)
    (hticks : 6 ≤ quiet.countP Event.isTimer) (hchecks : 6 ≤ after.countP Event.isCheckAlive) :
    w₂.heap.sessions c = none ∧
      ∀ p v, w₁.heap.writers p = some v → w₁.heap.Open v.resp c →
        w₃.heap.writers p = none ∧
          ∀ k stream, w₃.streams k = some stream →
            ∀ entry ∈ stream.writerMap, entry.2 ≠ .inl p := by
  obtain ⟨hsteady₁₂, hsteady₃⟩ := hsteady.append ((Run.run_append h₁).trans h₂)
  obtain ⟨hsteady₁, hsteady₂⟩ := hsteady₁₂.append h₁
  obtain ⟨hw₁, hl₁⟩ := run_lifetimes hinj hn (sound_start t) (lifetimes_start uuid t) hsteady₁ h₁
  obtain ⟨hw₂, hl₂⟩ := run_lifetimes hinj hn hw₁ hl₁ hsteady₂ h₂
  obtain ⟨hw₃, -⟩ := run_lifetimes hinj hn hw₂ hl₂ hsteady₃ h₃
  have hgone := hushed_session hn hw₁ hsteady₂ h₂ hc hquiet hticks
  refine ⟨hgone, fun p v hp hopen => ?_⟩
  have hlt : p < w₁.heap.nextWriter := by
    by_contra hge
    rw [hw₁.settled.sound.freshWriter p (by omega)] at hp
    cases hp
  -- the response of the writer is of the session that goes
  have hb₁ : Bound (fun d => d = c) p w₁.heap := by
    refine ⟨hlt, fun v' hp' d hopen' => ?_⟩
    rw [hp, Option.some.injEq] at hp'
    subst hp'
    obtain ⟨resp, hr, -, hrc⟩ := hopen
    obtain ⟨resp', hr', -, hrd⟩ := hopen'
    rw [hr, Option.some.injEq] at hr'
    rw [← hr', hrc, Option.some.injEq] at hrd
    exact hrd.symm
  obtain ⟨hlt₂, hb₂⟩ := run_bound hn hw₁ hsteady₂ h₂ hb₁
  have hdeserted : Bound (fun _ => False) p w₂.heap := by
    refine ⟨hlt₂, fun v' hp' d hopen' => ?_⟩
    have hdc := hb₂ v' hp' d hopen'
    obtain ⟨resp, hr, hclose, hrd⟩ := hopen'
    obtain ⟨d', s', hsession, hd', -⟩ := hw₂.settled.sound.opened _ resp hr hclose
    rw [hrd, Option.some.injEq] at hsession
    rw [← hsession, hdc, hgone] at hd'
    cases hd'
  have hnone := starved_writer hinj hn hw₂ hl₂ hsteady₃ h₃ hdeserted hchecks
  refine ⟨hnone, fun k stream hk entry hentry heq => ?_⟩
  obtain ⟨v', hv', -⟩ := hw₃.entries k stream hk entry hentry p heq
  rw [hnone] at hv'
  cases hv'

theorem silent_client_cleaned_client :
    ∃ w₂ w₃, Run.run (step StreamMap.halfBroken sampleUuid) (clientEvents ++ silentEvents)
        (start ()) = .ok w₂ ∧
      Run.run (step StreamMap.halfBroken sampleUuid) checkEvents w₂ = .ok w₃ ∧
      w₂.heap.sessions 0 = none ∧ w₃.heap.writers 0 = none := by
  let machine := Run.run (step StreamMap.halfBroken sampleUuid)
  obtain ⟨w₁, h₁, hsession⟩ := Run.exists_of_map_toOption (x := machine clientEvents (start ()))
    (f := fun w => (w.heap.sessions 0).isSome &&
      (w.heap.writers 0).any fun v => v.resp = 0 && (w.heap.responses 0).any fun resp =>
        !resp.isClose && resp.session = some 0) (b := true) (by decide +kernel)
  obtain ⟨w₃, h, -⟩ := Run.exists_of_map_toOption
    (x := machine (clientEvents ++ silentEvents ++ checkEvents) (start ()))
    (f := fun w => w.heap.nextWriter) (b := 1) (by decide +kernel)
  obtain ⟨w₂, h₂, h₃⟩ := Run.exists_of_run_append h
  rw [Bool.and_eq_true] at hsession
  obtain ⟨s, hs⟩ := Option.isSome_iff_exists.mp hsession.1
  have h₁₂ := (Run.run_append h₁).symm.trans h₂
  obtain ⟨hgone, hwriters⟩ := silent_client_cleaned StreamMap.halfBroken sampleUuid
    sampleUuid_injective .useAfterFree (neverFaults_halfBroken _) () clientEvents silentEvents
    checkEvents steady_client w₁ w₂ w₃ h₁ h₁₂ h₃ 0 s hs (by decide) (by decide) (by decide)
  refine ⟨w₂, w₃, h₂, h₃, hgone, ?_⟩
  obtain ⟨v, hv, hresp⟩ := (Option.any_eq_true ..).mp hsession.2
  rw [Bool.and_eq_true, decide_eq_true_eq] at hresp
  obtain ⟨resp, hr, hopen⟩ := (Option.any_eq_true ..).mp hresp.2
  rw [Bool.and_eq_true, Bool.not_eq_true', decide_eq_true_eq] at hopen
  exact (hwriters 0 v hv ⟨resp, hresp.1 ▸ hr, hopen⟩).1

end World

end HttpflvServer

end MediaServer
