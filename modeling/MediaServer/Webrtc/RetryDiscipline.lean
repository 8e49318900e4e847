import MediaServer.Webrtc.NackTimer

/-!
# How often a packet is asked for

A *stay* of a number is the time from its insertion into the map of the missing packets
to its removal.  In one stay a number is asked for at most `NACK_RETRY_MAX + 1` times,
with a round trip between two times, and not any more when its packet has come.
`Disciplined` says this of one tick of the timer.

The history of a stay is no part of the generator.  `note` keeps it beside the
generator, from the map alone: when a number is inserted, when a packet with it comes,
and when it is in a list.  `Guarded` connects the history with `NACK_INFO`, and
`reports_disciplined` is the result about runs.  It needs nothing of the clock.

One part needs a condition.  `update_nacklist` removes a number that is lower than the
last one only.  A number that has been in the map for half a cycle is not, and it is
asked for when its packet has come (`not_disciplined`).
-/

namespace MediaServer

namespace NackTimer

variable {nowMs rtt : Int} {m : OrderedMap UInt16 NackInfo} {k seq : UInt16} {t t' : NackTimer}

/-- `lost_seq_list` when it is passed on. -/
def lostSeqList (nowMs : Int) (t : NackTimer) : List UInt16 :=
  (sweep nowMs t.rtt t.generator.nackMap).2.mergeSort fun a b => decide (a ≤ b)

/-- `on_timer` without its callback. -/
def afterTimer (nowMs : Int) (t : NackTimer) : NackTimer :=
  if t.generator.nackMap.entries.isEmpty then t
  else { t with generator.nackMap := trim (sweep nowMs t.rtt t.generator.nackMap).1 }

/-- The steps of a generator whose callback does not fail. -/
def listen : Event → NackTimer → Except Fault NackTimer
  | .packet seq, t => .ok { t with generator := t.generator.updateNacklist seq }
  | .updateRtt rtt, t => .ok { t with rtt }
  | .timer nowMs, t => .ok (t.afterTimer nowMs)

/-- What is known of a number since it was inserted: whether a packet with it has come,
and when it was in a list, the last time first. -/
structure Stay where
  received : Bool := false
  reports : List Int := []
  deriving DecidableEq, Repr

/-- What is known of each number. -/
abbrev Stays := UInt16 → Stay

/-- What is known behind a step. -/
def note : Event → NackTimer → Stays → Stays
  | .packet seq, t, stays => fun k =>
    if k ∉ t.generator.nackMap.keys ∧ k ∈ (t.generator.updateNacklist seq).nackMap.keys then {}
    else if k = seq then { stays k with received := true }
    else stays k
  | .updateRtt _, _, stays => stays
  | .timer nowMs, t, stays => fun k =>
    if k ∈ lostSeqList nowMs t then { stays k with reports := nowMs :: (stays k).reports }
    else stays k

/-- What is asked of a tick: its list ascends, and every number of it stays in the map,
has not come, and has been asked for at most `NACK_RETRY_MAX` times before, the last
time a round trip ago. -/
def Disciplined : Event → Stays × NackTimer → Prop
  | .timer nowMs, (stays, t) =>
    (lostSeqList nowMs t).Pairwise (· < ·) ∧ ∀ k ∈ lostSeqList nowMs t,
      k ∈ t.generator.nackMap.keys ∧ (stays k).received = false ∧
      ((stays k).reports.length : Int) ≤ NACK_RETRY_MAX ∧
      ∀ last ∈ (stays k).reports.head?, t.rtt ≤ nowMs - last
  | _, _ => True

/-- A packet whose number is in the map is lower than the last one. -/
def Erasable : Event → NackTimer → Prop
  | .packet seq, t =>
    seq ∈ t.generator.nackMap.keys → seqLowerThan seq t.generator.lastSeq = true
  | _, _ => True

instance : ∀ (e : Event) (t : NackTimer), Decidable (Erasable e t)
  | .packet _, _ => inferInstanceAs (Decidable (_ → _))
  | .updateRtt _, _ => inferInstanceAs (Decidable True)
  | .timer _, _ => inferInstanceAs (Decidable True)

/-! ## The timer -/

theorem lostSeqList_eq (nowMs : Int) (t : NackTimer) : lostSeqList nowMs t = due nowMs t := by
  rw [lostSeqList, sweep_snd, mergeSort_due]

theorem mem_lostSeqList :
    k ∈ lostSeqList nowMs t ↔ ∃ v, t.generator.nackMap.find? k = some v ∧
      v.retry ≤ NACK_RETRY_MAX ∧ t.rtt ≤ nowMs - v.sentMs := by
  rw [lostSeqList_eq, due]
  simp only [List.mem_map, List.mem_filter, decide_eq_true_eq, OrderedMap.find?_eq_some]
  constructor
  · rintro ⟨⟨k', v⟩, ⟨hmem, hdue⟩, rfl⟩
    exact ⟨v, hmem, hdue⟩
  · rintro ⟨v, hmem, hdue⟩
    exact ⟨(k, v), ⟨hmem, hdue⟩, rfl⟩

/-- `on_timer` is the generator's part and its callback. -/
theorem onTimer_eq (shift : Shift) (ssrc : UInt32) (nowMs : Int) (t : NackTimer) :
    onTimer shift ssrc nowMs t =
      if (lostSeqList nowMs t).isEmpty then .ok (t.afterTimer nowMs)
      else (generateNacklist shift ssrc (lostSeqList nowMs t)).map fun data =>
        { t.afterTimer nowMs with sent := t.sent ++ [data] } := by
  simp only [onTimer, afterTimer, sweep_snd, mergeSort_due, lostSeqList_eq]
  split
  · rename_i hempty
    have hnone : due nowMs t = [] := by
      rw [due, List.isEmpty_iff.mp hempty]
      rfl
    rw [hnone]
    rfl
  · split
    · rfl
    · cases generateNacklist shift ssrc (due nowMs t) <;> rfl

/-- A step of the generator and its stream is one of the generator. -/
theorem listen_of_step {shift : Shift} {ssrc : UInt32} {e : Event}
    (h : step shift ssrc e t = .ok t') : listen e t = .ok { t' with sent := t.sent } := by
  cases e with
  | packet seq =>
    cases h
    rfl
  | updateRtt rtt =>
    cases h
    rfl
  | timer nowMs =>
    have hsent : (t.afterTimer nowMs).sent = t.sent := by
      rw [afterTimer]
      split <;> rfl
    rw [step, onTimer_eq] at h
    split at h
    · cases h
      rw [← hsent]
      rfl
    · obtain ⟨data, -, rfl⟩ := Run.exists_of_map_ok h
      rw [← hsent]
      rfl

/-! ## What the timer does to an entry -/

theorem find?_sweepEntry_of_ne {st : Sweep} {e : UInt16 × NackInfo} (hk : k ≠ e.1) :
    (sweepEntry nowMs rtt st e).1.find? k = st.1.find? k := by
  rw [sweepEntry]
  split
  · exact OrderedMap.find?_erase_of_ne hk
  · split
    · rfl
    · exact OrderedMap.find?_assign_of_ne hk

theorem find?_foldl_sweepEntry {entries : List (UInt16 × NackInfo)} {st : Sweep}
    (hk : k ∉ entries.map Prod.fst) :
    (entries.foldl (sweepEntry nowMs rtt) st).1.find? k = st.1.find? k := by
  induction entries generalizing st with
  | nil => rfl
  | cons e entries ih =>
    rw [List.map_cons, List.mem_cons, not_or] at hk
    rw [List.foldl_cons, ih hk.2, find?_sweepEntry_of_ne hk.1]

/-- The entry `w` is what the timer leaves of `v`. -/
def Passed (nowMs rtt : Int) (v w : NackInfo) : Prop :=
  v.retry ≤ NACK_RETRY_MAX ∧
    (nowMs - v.sentMs < rtt ∧ w = v ∨
      rtt ≤ nowMs - v.sentMs ∧ w = { v with sentMs := nowMs, retry := v.retry + 1 })

theorem passed_sweepEntry {st : Sweep} {v w : NackInfo} (hv : st.1.find? k = some v)
    (hw : (sweepEntry nowMs rtt st (k, v)).1.find? k = some w) : Passed nowMs rtt v w := by
  rw [sweepEntry] at hw
  split at hw
  · rw [OrderedMap.find?_erase_self] at hw
    cases hw
  · rename_i hretry
    split at hw
    · rename_i hwaits
      rw [hv] at hw
      cases hw
      exact ⟨Int.not_lt.mp hretry, .inl ⟨hwaits, rfl⟩⟩
    · rename_i hwaited
      rw [OrderedMap.find?_assign_self] at hw
      cases hw
      exact ⟨Int.not_lt.mp hretry, .inr ⟨Int.not_lt.mp hwaited, rfl⟩⟩

/-- The loop visits each entry once. -/
theorem passed_sweep {w : NackInfo} (hw : (sweep nowMs rtt m).1.find? k = some w) :
    ∃ v, m.find? k = some v ∧ Passed nowMs rtt v w := by
  rcases hv : m.find? k with _ | v
  · have hk : k ∉ m.entries.map Prod.fst := OrderedMap.find?_eq_none.mp hv
    rw [sweep, find?_foldl_sweepEntry hk, hv] at hw
    cases hw
  · refine ⟨v, rfl, ?_⟩
    obtain ⟨before, after, hentries⟩ := List.append_of_mem (OrderedMap.find?_eq_some.mp hv)
    have hnodup := m.keys_nodup
    rw [OrderedMap.keys, hentries, List.map_append, List.map_cons, List.nodup_append] at hnodup
    obtain ⟨-, hafter, hdisjoint⟩ := hnodup
    have hbefore : k ∉ before.map Prod.fst := by
      intro hmem
      exact hdisjoint k hmem k (by simp) rfl
    rw [sweep, hentries, List.foldl_append, List.foldl_cons,
      find?_foldl_sweepEntry (List.nodup_cons.mp hafter).1] at hw
    refine passed_sweepEntry ?_ hw
    rw [find?_foldl_sweepEntry hbefore, hv]

theorem entries_trim : (trim m).entries = m.entries.drop (m.size - NACK_LIST_MAX) := by
  simp only [trim]

theorem find?_of_trim {v : NackInfo} (h : (trim m).find? k = some v) : m.find? k = some v := by
  rw [OrderedMap.find?_eq_some] at h ⊢
  rw [entries_trim] at h
  exact List.mem_of_mem_drop h

theorem passed_afterTimer {w : NackInfo}
    (hw : (t.afterTimer nowMs).generator.nackMap.find? k = some w) :
    ∃ v, t.generator.nackMap.find? k = some v ∧ Passed nowMs t.rtt v w := by
  rw [afterTimer] at hw
  split at hw
  · rename_i hempty
    rw [OrderedMap.find?_eq_some, List.isEmpty_iff.mp hempty] at hw
    cases hw
  · exact passed_sweep (find?_of_trim hw)

/-! ## What a packet does to an entry -/

theorem find?_addKey_of_some {v : NackInfo} (h : m.find? k = some v) (key : UInt16) :
    (NackGenerator.addKey m key).find? k = some v := by
  rw [NackGenerator.addKey]
  split
  · rename_i hnone
    rw [OrderedMap.find?_assign_of_ne ?_, h]
    rintro rfl
    rw [h] at hnone
    cases hnone
  · exact h

/-- The loop leaves the entries that are there. -/
theorem find?_addKeys_of_some {v : NackInfo} (h : m.find? k = some v) (keys : List UInt16) :
    (keys.foldl NackGenerator.addKey m).find? k = some v := by
  induction keys generalizing m with
  | nil => exact h
  | cons key keys ih => exact ih (find?_addKey_of_some h key)

/-- An entry that the loop adds has not been asked for. -/
theorem find?_addKeys_cases {keys : List UInt16} {w : NackInfo}
    (hw : (keys.foldl NackGenerator.addKey m).find? k = some w) :
    m.find? k = some w ∨ (m.find? k = none ∧ w.retry = 0) := by
  rcases hv : m.find? k with _ | v
  · refine .inr ⟨rfl, ?_⟩
    induction keys generalizing m with
    | nil =>
      rw [List.foldl_nil, hv] at hw
      cases hw
    | cons key keys ih =>
      rcases hadd : (NackGenerator.addKey m key).find? k with _ | v
      · exact ih hw hadd
      · rw [List.foldl_cons, find?_addKeys_of_some hadd] at hw
        cases hw
        rw [NackGenerator.addKey] at hadd
        split at hadd
        · rw [OrderedMap.find?_assign] at hadd
          split at hadd
          · cases hadd
            rfl
          · rw [hv] at hadd
            cases hadd
        · rw [hv] at hadd
          cases hadd
  · rw [find?_addKeys_of_some hv] at hw
    exact .inl hw

theorem not_seqLowerThan_self (seq : UInt16) : ¬ seqLowerThan seq seq = true := by
  simp [seqLowerThan]

/-- A packet that is not lower than the last one removes nothing. -/
theorem find?_updateNacklist_of_not_lower {g : NackGenerator} {v : NackInfo}
    (hlower : ¬ seqLowerThan seq g.lastSeq = true) (hv : g.nackMap.find? k = some v) :
    (g.updateNacklist seq).nackMap.find? k = some v := by
  rw [NackGenerator.updateNacklist]
  split_ifs
  · exact hv
  · exact hv
  · exact hv
  · exact find?_addKeys_of_some hv _

/-- What a packet leaves in the map: entries of other numbers, and new ones. -/
theorem find?_updateNacklist_cases {g : NackGenerator} {w : NackInfo}
    (hstarted : k ∈ g.nackMap.keys → g.initFlag = true)
    (herasable : seq ∈ g.nackMap.keys → seqLowerThan seq g.lastSeq = true)
    (hw : (g.updateNacklist seq).nackMap.find? k = some w) :
    (g.nackMap.find? k = some w ∧ k ≠ seq) ∨ (g.nackMap.find? k = none ∧ w.retry = 0) := by
  have hother : ¬ seqLowerThan seq g.lastSeq = true → g.nackMap.find? k = some w → k ≠ seq := by
    rintro hlower hk rfl
    exact hlower (herasable (OrderedMap.mem_keys_iff.mpr (by simp [hk])))
  rw [NackGenerator.updateNacklist] at hw
  split_ifs at hw with hinit hsame hlower hnext
  · have hflag := hstarted (OrderedMap.mem_keys_iff.mpr (by simp [hw]))
    simp [hflag] at hinit
  · refine .inl ⟨hw, hother ?_ hw⟩
    rw [hsame]
    exact not_seqLowerThan_self _
  · split at hw
    · rw [OrderedMap.find?_erase] at hw
      split_ifs at hw with hk
      exact .inl ⟨hw, hk⟩
    · rename_i hnone
      refine .inl ⟨hw, ?_⟩
      rintro rfl
      rw [hw] at hnone
      cases hnone
  · exact .inl ⟨hw, hother hlower hw⟩
  · rcases find?_addKeys_cases hw with hk | hk
    · exact .inl ⟨hk, hother hlower hk⟩
    · exact .inr hk

/-! ## Runs -/

/-- What the history of a number and its entry say about each other. -/
structure Matches (stay : Stay) (v : NackInfo) : Prop where
  waits : stay.received = false
  retry : v.retry = stay.reports.length
  sentMs : ∀ last ∈ stay.reports.head?, v.sentMs = last

/-- The invariant of the generator and the history beside it. -/
structure Guarded (stays : Stays) (t : NackTimer) : Prop where
  started : ∀ k ∈ t.generator.nackMap.keys, t.generator.initFlag = true
  kept : ∀ k v, t.generator.nackMap.find? k = some v → Matches (stays k) v

variable {stays : Stays}

theorem guarded_start : Guarded (fun _ => {}) {} := by
  refine ⟨?_, ?_⟩ <;> simp [OrderedMap.keys]

theorem matches_new {v : NackInfo} (h : v.retry = 0) : Matches {} v where
  waits := rfl
  retry := h
  sentMs := by simp

/-- A tick of the timer is as it should be. -/
theorem Guarded.disciplined (h : Guarded stays t) (e : Event) : Disciplined e (stays, t) := by
  cases e with
  | packet seq => trivial
  | updateRtt rtt => trivial
  | timer nowMs =>
    refine ⟨?_, ?_⟩
    · rw [lostSeqList_eq]
      exact due_sorted nowMs t
    · intro k hk
      obtain ⟨v, hv, hretry, hwaited⟩ := mem_lostSeqList.mp hk
      have hmatches := h.kept k v hv
      refine ⟨OrderedMap.mem_keys_iff.mpr (by simp [hv]), hmatches.waits, ?_, ?_⟩
      · rw [← hmatches.retry]
        exact hretry
      · intro last hlast
        rw [← hmatches.sentMs last hlast]
        exact hwaited

theorem Guarded.packet (h : Guarded stays t) (herasable : Erasable (.packet seq) t) :
    Guarded (note (.packet seq) t stays)
      { t with generator := t.generator.updateNacklist seq } := by
  refine ⟨fun k _ => NackGenerator.initFlag_updateNacklist t.generator seq, ?_⟩
  intro k w hw
  have hafter : k ∈ (t.generator.updateNacklist seq).nackMap.keys :=
    OrderedMap.mem_keys_iff.mpr (by simp [hw])
  show Matches (if _ then _ else _) w
  rcases find?_updateNacklist_cases (h.started k) herasable hw with ⟨hv, hne⟩ | ⟨hnone, hretry⟩
  · have hbefore : k ∈ t.generator.nackMap.keys := OrderedMap.mem_keys_iff.mpr (by simp [hv])
    rw [if_neg (fun hnew => hnew.1 hbefore), if_neg hne]
    exact h.kept k w hv
  · rw [if_pos ⟨OrderedMap.find?_eq_none.mp hnone, hafter⟩]
    exact matches_new hretry

theorem Guarded.timer (h : Guarded stays t) (nowMs : Int) :
    Guarded (note (.timer nowMs) t stays) (t.afterTimer nowMs) := by
  have hflag : (t.afterTimer nowMs).generator.initFlag = t.generator.initFlag := by
    simp only [afterTimer, apply_ite NackTimer.generator, apply_ite NackGenerator.initFlag, ite_self]
  refine ⟨?_, ?_⟩
  · intro k hk
    obtain ⟨w, hw⟩ := Option.ne_none_iff_exists'.mp (OrderedMap.mem_keys_iff.mp hk)
    obtain ⟨v, hv, -⟩ := passed_afterTimer hw
    rw [hflag]
    exact h.started k (OrderedMap.mem_keys_iff.mpr (by simp [hv]))
  · intro k w hw
    obtain ⟨v, hv, hretry, hpassed⟩ := passed_afterTimer hw
    have hmatches := h.kept k v hv
    show Matches (if _ then _ else _) w
    rcases hpassed with ⟨hwaits, rfl⟩ | ⟨hwaited, rfl⟩
    · rw [if_neg]
      · exact hmatches
      · intro hk
        obtain ⟨v, hv', -, hwaited⟩ := mem_lostSeqList.mp hk
        rw [hv, Option.some.injEq] at hv'
        subst hv'
        omega
    · rw [if_pos (mem_lostSeqList.mpr ⟨v, hv, hretry, hwaited⟩)]
      refine ⟨hmatches.waits, ?_, ?_⟩
      · have hcount := hmatches.retry
        simp only [List.length_cons]
        omega
      · rintro last hlast
        exact Option.some.inj hlast

/-- **Step.** -/
theorem guarded_step {e : Event} {s s' : Stays × NackTimer} (h : Guarded s.1 s.2)
    (herasable : Erasable e s.2) (hstep : Run.withGhost note listen e s = .ok s') :
    Guarded s'.1 s'.2 := by
  obtain ⟨hlisten, hnote⟩ := Run.withGhost_ok.mp hstep
  rw [hnote]
  cases e with
  | packet seq =>
    rw [← Except.ok.inj hlisten]
    exact h.packet herasable
  | updateRtt rtt =>
    rw [← Except.ok.inj hlisten]
    exact ⟨h.started, h.kept⟩
  | timer nowMs =>
    rw [← Except.ok.inj hlisten]
    exact h.timer nowMs

/-- **Run.**  When every packet whose number is in the map is lower than the last one,
every tick is as it should be. -/
theorem reports_disciplined (events : List Event) (h : Run.Along listen Erasable events {}) :
    Run.Along (Run.withGhost note listen) Disciplined events (fun _ => {}, {}) := by
  have hghost : Run.Along (Run.withGhost note listen) (fun e s => Erasable e s.2) events
      (fun _ => {}, {}) := (Run.along_withGhost note _).mpr h
  refine hghost.of_invariant (fun s => Guarded s.1 s.2) ?_ ?_ guarded_start
  · intro e s s' hs herasable hstep
    exact guarded_step hs herasable hstep
  · intro e s hs _
    exact hs.disciplined e

/-- Two gaps, of which one is filled between two ticks. -/
theorem reports_disciplined_gaps :
    Run.Along (Run.withGhost note listen) Disciplined
      [.packet 0, .packet 3, .timer 100, .packet 1, .packet 7, .timer 130] (fun _ => {}, {}) :=
  reports_disciplined _ (by decide +kernel)

/-! ## A packet that comes late -/

/-- The generator after 65000, 65002 and 32234, which wait for 65001. -/
def late : NackGenerator := NackGenerator.run {} [65000, 65002, 32234]

theorem find?_late :
    late.nackMap.find? 65001 = some { seq := 65001, sentMs := 0, retry := 0 } := by
  decide +kernel

theorem note_packet_self (h : seq ∈ t.generator.nackMap.keys) (stays : Stays) :
    (note (.packet seq) t stays seq).received = true := by
  show (if _ then _ else _ : Stay).received = true
  rw [if_neg (fun hnew => hnew.1 h), if_pos rfl]

/-- The packet 65001 comes half a cycle behind 32234, and is asked for afterwards. -/
theorem late_not_disciplined (stays : Stays) :
    ¬Run.Along (Run.withGhost note listen) Disciplined [.packet 65001, .timer 1000]
      (stays, { generator := late }) := by
  intro h
  have htick := (h.2 (note (.packet 65001) { generator := late } stays,
    { generator := late.updateNacklist 65001 }) rfl).1
  have hlower : ¬ seqLowerThan 65001 late.lastSeq = true := by decide +kernel
  have hkept := find?_updateNacklist_of_not_lower hlower find?_late
  have hwaits := (htick.2 65001 (mem_lostSeqList.mpr ⟨_, hkept, by decide, by decide⟩)).2.1
  have hbefore : (65001 : UInt16) ∈ late.nackMap.keys :=
    OrderedMap.mem_keys_iff.mpr (by simp [find?_late])
  have hcame := note_packet_self (t := { generator := late }) hbefore stays
  exact Bool.noConfusion (hwaits.symm.trans hcame)

theorem not_disciplined :
    ¬Run.Along (Run.withGhost note listen) Disciplined
      [.packet 65000, .packet 65002, .packet 32234, .packet 65001, .timer 1000]
      (fun _ => {}, {}) := by
  intro h
  exact late_not_disciplined _ (((h.2 _ rfl).2 _ rfl).2 (_, { generator := late }) rfl)

end NackTimer

end MediaServer
