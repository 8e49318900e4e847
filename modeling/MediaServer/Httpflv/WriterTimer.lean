import Mathlib.Tactic.Common
import MediaServer.Httpflv.WriterEvents

/-!
# The timer of the writers

`on_check_alive` goes through a copy of the map of the handlers and deletes the writers that
have been silent.  `Checking` is the invariant of its loop, where the writers that are left
to check have one tick still to count, and `Checked` is what the loop leaves.

A writer leaves its stream before it is deleted (`Entries.leave`), so that no stream has a
pointer to it.
-/

namespace MediaServer

namespace HttpflvServer

open HttpflvServer.Heap MediaStreamManager

variable {V : Type} {ls lw : Nat → Nat} {h h' : Heap} {p : Nat} {v : Writer}
  {streams : Streams (Nat ⊕ V)}

/-- The heap without the entry of a writer. -/
def Heap.unlist (id : Bytes) (h : Heap) : Heap := { h with handleMap := h.handleMap.erase id }

theorem find?_unlist {id id' : Bytes} (hq : (h.unlist id).handleMap.find? id' = some p) :
    id' ≠ id ∧ h.handleMap.find? id' = some p := by
  by_cases hne : id' = id
  · rw [hne, Heap.unlist, OrderedMap.find?_erase_self] at hq
    cases hq
  · exact ⟨hne, (OrderedMap.find?_erase_of_ne hne).symm.trans hq⟩

theorem Heap.Sound.unlist (hs : Heap.Sound ls lw h) (id : Bytes) :
    Heap.Sound ls lw (h.unlist id) :=
  ⟨hs.waits, hs.responded, hs.opened, hs.answered,
    fun id' q hq => hs.handled id' q (find?_unlist hq).2,
    fun id' q u hq => hs.unfed id' q u (find?_unlist hq).2, hs.unheard, hs.freshSession,
    hs.freshResponse, hs.freshWriter⟩

/-- A writer that counts a check. -/
theorem Heap.Sound.check {lw' : Nat → Nat} (hs : Heap.Sound ls lw h) (hp : h.writers p = some v)
    (hlw : lw p = 1) (hp' : lw' p = 0) (hother : ∀ q, q ≠ p → lw' q = lw q) :
    Heap.Sound ls lw' (h.setWriter p { v with aliver := v.aliver.isAlive.2 }) := by
  refine ⟨hs.waits, hs.responded, hs.opened, hs.answered_update hp rfl, hs.handled_update hp rfl,
    ?_, hs.unheard, hs.freshSession, hs.freshResponse, fresh_update hs.freshWriter hp⟩
  intro id q u hid hq
  rcases update_eq_some hq with ⟨rfl, rfl⟩ | ⟨hqp, hq⟩
  · obtain ⟨hmax, hcount⟩ := hs.unfed id q v hid hp
    refine ⟨hmax, hcount.trans ?_⟩
    rw [hlw, hp']
    rfl
  · rw [hother q hqp]
    exact hs.unfed id q u hid hq

/-- A writer that has left its stream can go. -/
theorem Entries.leave (he : Entries h streams) (hp : h.writers p = some v)
    (hserved : Served h h') : Entries (h'.without p) (erasePlayer v.key v.writerId streams) := by
  intro k stream hk entry hentry q hq
  obtain ⟨stream₀, hstream₀, hin⟩ :=
    within_erasePlayer v.key v.writerId streams k stream hk entry hentry
  obtain ⟨u, hu, hkey, hid⟩ := he k stream₀ hstream₀ entry hin q hq
  have hqp : q ≠ p := by
    rintro rfl
    rw [hp, Option.some.injEq] at hu
    subst hu
    rw [← hkey] at hk
    obtain ⟨stream₁, -, rfl⟩ := erasePlayer_self hk
    have hne := (List.mem_filter.mp hentry).2
    rw [hid] at hne
    simp at hne
  obtain ⟨u', hu', hident⟩ := hserved.exists_writer' hu
  obtain ⟨hkey', hid', -⟩ := Writer.ident_eq hident
  exact ⟨u', (Function.update_of_ne hqp ..).trans hu', hkey'.trans hkey, hid'.trans hid⟩

/-- What `on_check_alive` leaves when the writers in `rest` have not been checked. -/
structure Checked (rest : List (Bytes × Nat)) (h h' : Heap) : Prop where
  kept : ∀ p v', h'.writers p = some v' → ∃ v, h.writers p = some v ∧ v.ident = v'.ident
  gone : ∀ p v, h.writers p = some v → h'.writers p = none →
    ∃ n, 6 ≤ n ∧ unfed p h'.log = some n
  handled : ∀ id p, h'.handleMap.find? id = some p ↔
    h.handleMap.find? id = some p ∧ h'.writers p ≠ none
  fed : ∀ id p v, h'.handleMap.find? id = some p → (id, p) ∉ rest → h'.writers p = some v →
    v.aliver.notAliveCnt ≤ 5
  nextWriter : h'.nextWriter = h.nextWriter
  nextSession : h.nextSession ≤ h'.nextSession
  closed : ∀ r d, h'.Open r d → h.Open r d
  log : h'.log = h.log ++ [.checked]

/-- What the deletion of the writer `p` leaves, whose entry was `id`. -/
structure Deleted (id : Bytes) (p : Nat) (h h' : Heap) : Prop where
  handleMap : h'.handleMap = h.handleMap.erase id
  back : ∀ q v', h'.writers q = some v' → q ≠ p ∧ ∃ v, h.writers q = some v ∧ v.ident = v'.ident
  forth : ∀ q, q ≠ p → h.writers q ≠ none → h'.writers q ≠ none
  nextWriter : h'.nextWriter = h.nextWriter
  nextSession : h.nextSession ≤ h'.nextSession
  closed : ∀ r d, h'.Open r d → h.Open r d
  log : h'.log = h.log

section Deleted

variable {id : Bytes} {v₁ : Writer} {h₀ : Heap} {rest : List (Bytes × Nat)}

theorem deleted_of_served (hserved : Served ((h.setWriter p v₁).unlist id) h')
    (hlog : h'.log = h.log) : Deleted id p h (h'.without p) where
  handleMap := hserved.handleMap
  back q v' hq := by
    obtain ⟨hqp, hq⟩ := update_none_eq_some hq
    obtain ⟨v, hv, hident⟩ := hserved.exists_writer hq
    exact ⟨hqp, v, (Function.update_of_ne hqp ..).symm.trans hv, hident⟩
  forth q hqp hq := by
    obtain ⟨v, hv⟩ := Option.ne_none_iff_exists'.mp hq
    have hv₁ : ((h.setWriter p v₁).unlist id).writers q = some v :=
      (Function.update_of_ne hqp ..).trans hv
    obtain ⟨v', hv', -⟩ := hserved.exists_writer' hv₁
    rw [show (h'.without p).writers q = some v' from (Function.update_of_ne hqp ..).trans hv']
    exact Option.some_ne_none _
  nextWriter := hserved.nextWriter
  nextSession := hserved.nextSession
  closed := hserved.closed
  log := hlog

theorem Deleted.find?_iff (hdel : Deleted id p h h') (hid : h.handleMap.find? id = some p)
    (honly : ∀ id', h.handleMap.find? id' = some p → id' = id) (id' : Bytes) (q : Nat) :
    h'.handleMap.find? id' = some q ↔ h.handleMap.find? id' = some q ∧ q ≠ p := by
  rw [hdel.handleMap]
  by_cases hne : id' = id
  · rw [hne, OrderedMap.find?_erase_self, hid, Option.some.injEq]
    exact ⟨(fun h => by cases h), fun h => absurd h.1.symm h.2⟩
  · rw [OrderedMap.find?_erase_of_ne hne]
    refine ⟨fun hq => ⟨hq, ?_⟩, And.left⟩
    rintro rfl
    exact hne (honly id' hq)

/-- A writer that has been silent for six checks can go. -/
theorem Checked.deleted (hc : Checked ((id, p) :: rest) h₀ h)
    (hs : Heap.Sound ls (lateIn ((id, p) :: rest)) h) (hs' : Heap.Sound ls (lateIn rest) h')
    (hdel : Deleted id p h h') (hid : h.handleMap.find? id = some p)
    (honly : ∀ id', h.handleMap.find? id' = some p → id' = id)
    (hlate : ∃ n, 6 ≤ n ∧ unfed p h.log = some n) : Checked rest h₀ h' where
  kept q v' hq := by
    obtain ⟨-, v, hv, hident⟩ := hdel.back q v' hq
    obtain ⟨v₀, hv₀, hident₀⟩ := hc.kept q v hv
    exact ⟨v₀, hv₀, hident₀.trans hident⟩
  gone q v₀ hq hnone := by
    rw [hdel.log]
    by_cases hqp : q = p
    · rw [hqp]
      exact hlate
    · by_cases hq₀ : h.writers q = none
      · exact hc.gone q v₀ hq hq₀
      · exact absurd hnone (hdel.forth q hqp hq₀)
  handled id' q := by
    rw [hdel.find?_iff hid honly, hc.handled]
    constructor
    · rintro ⟨⟨hid₀, hq⟩, hqp⟩
      exact ⟨hid₀, hdel.forth q hqp hq⟩
    · rintro ⟨hid₀, hq⟩
      obtain ⟨v', hv'⟩ := Option.ne_none_iff_exists'.mp hq
      obtain ⟨hqp, v, hv, -⟩ := hdel.back q v' hv'
      exact ⟨⟨hid₀, by simp [hv]⟩, hqp⟩
  fed id' q v' hid' hnot hq := by
    obtain ⟨hqp, v, hv, -⟩ := hdel.back q v' hq
    have hid₀ := ((hdel.find?_iff hid honly id' q).mp hid').1
    -- both heaps count the same checks of this writer
    have hcount := (hs'.unfed id' q v' hid' hq).2
    rw [hdel.log, (hs.unfed id' q v hid₀ hv).2, ← lateIn_of_ne hqp, Option.some.injEq] at hcount
    have hle := hc.fed id' q v hid₀ (by simp [hqp, hnot]) hv
    omega
  nextWriter := hdel.nextWriter.trans hc.nextWriter
  nextSession := hc.nextSession.trans hdel.nextSession
  closed r d hr := hc.closed r d (hdel.closed r d hr)
  log := hdel.log.trans hc.log

theorem served_check (hp : h.writers p = some v) :
    Served h (h.setWriter p { v with aliver := v.aliver.isAlive.2 }) :=
  { Served.refl h with writers := map_update hp rfl }

/-- A writer that is still alive stays. -/
theorem Checked.stays (hc : Checked ((id, p) :: rest) h₀ h) (hp : h.writers p = some v)
    (hle : v.aliver.notAliveCnt ≤ 4) :
    Checked rest h₀ (h.setWriter p { v with aliver := v.aliver.isAlive.2 }) where
  kept q v' hq := by
    rcases update_eq_some hq with ⟨rfl, rfl⟩ | ⟨-, hq⟩
    · exact hc.kept q v hp
    · exact hc.kept q v' hq
  gone q v₀ hq hnone := hc.gone q v₀ hq ((served_check hp).eq_none_iff.mp hnone)
  handled id' q := by
    rw [Ne, (served_check hp).eq_none_iff]
    exact hc.handled id' q
  fed id' q v' hid' hnot hq := by
    rcases update_eq_some hq with ⟨-, rfl⟩ | ⟨hqp, hq⟩
    · exact Nat.succ_le_succ hle
    · exact hc.fed id' q v' hid' (by simp [hqp, hnot]) hq
  nextWriter := hc.nextWriter
  nextSession := hc.nextSession
  closed := hc.closed
  log := hc.log

end Deleted

namespace World

variable {τ : Type} {others : AvWriterBase τ V} {w w₀ : World τ V}

/-- The invariant of the loop that began with `w₀`. -/
structure Checking (w₀ : World τ V) (rest : List (Bytes × Nat)) (w : World τ V) : Prop where
  sound : Heap.Sound (fun _ => 0) (lateIn rest) w.heap
  mapped : Mapped w.heap
  heard : ∀ c s, w.heap.sessions c = some s → s.aliver.notAliveCnt ≤ 5
  entries : Entries w.heap w.streams
  there : ∀ e ∈ rest, w.heap.handleMap.find? e.1 = some e.2
  nodup : (rest.map Prod.fst).Nodup
  checked : Checked rest w₀.heap w.heap

/-- A writer that is not alive is deleted. -/
theorem checkWriter_dead {id : Bytes} (hp : w.heap.writers p = some v)
    (halive : v.aliver.isAlive.1 = false) {h₁ : Heap}
    (hdelete : Heap.deleteWriter p
      ((w.heap.setWriter p { v with aliver := v.aliver.isAlive.2 }).unlist id) = .ok h₁) :
    checkWriter others w (id, p) =
      .ok { w with heap := h₁, streams := erasePlayer v.key v.writerId w.streams } := by
  let h₂ := (w.heap.setWriter p { v with aliver := v.aliver.isAlive.2 }).unlist id
  have hp₂ : h₂.writers p = some { v with aliver := v.aliver.isAlive.2 } := setWriter_self ..
  have hremove : removePlayer (players others) (.inl p) (h₂, w.others) w.streams =
      .ok (erasePlayer v.key v.writerId w.streams) := removePlayer_inl hp₂ _
  rw [checkWriter, deref_some hp, Run.ok_bind]
  dsimp only
  rw [halive, if_neg (by decide)]
  show (removePlayer (players others) (.inl p) (h₂, w.others) w.streams >>= fun streams =>
    Heap.deleteWriter p h₂ >>= fun h => .ok { w with heap := h, streams }) = _
  rw [hremove, hdelete]
  rfl

/-- A writer that is alive has only been counted. -/
theorem checkWriter_alive {id : Bytes} (hp : w.heap.writers p = some v)
    (halive : v.aliver.isAlive.1 = true) :
    checkWriter others w (id, p) =
      .ok { w with heap := w.heap.setWriter p { v with aliver := v.aliver.isAlive.2 } } := by
  rw [checkWriter, deref_some hp, Run.ok_bind]
  dsimp only
  rw [halive, if_pos rfl]
  rfl

section Turn

variable {id : Bytes} {rest : List (Bytes × Nat)}

/-- A writer has one entry. -/
theorem Checking.only (hk : Checking w₀ rest w) (hp : w.heap.writers p = some v) (id' : Bytes)
    (hid' : w.heap.handleMap.find? id' = some p) : id' = v.writerId := by
  obtain ⟨v', hp', hvid⟩ := hk.sound.handled id' p hid'
  rw [hp, Option.some.injEq] at hp'
  rw [← hvid, ← hp']

theorem Checking.counted (hk : Checking w₀ ((id, p) :: rest) w) (hp : w.heap.writers p = some v)
    (hnotin : p ∉ rest.map Prod.snd) :
    Heap.Sound (fun _ => 0) (lateIn rest)
      (w.heap.setWriter p { v with aliver := v.aliver.isAlive.2 }) :=
  hk.sound.check hp lateIn_self (lateIn_of_not_mem hnotin) fun _ hq => lateIn_of_ne hq

theorem Checking.alive (hk : Checking w₀ ((id, p) :: rest) w) (hp : w.heap.writers p = some v)
    (hnotin : p ∉ rest.map Prod.snd) (hle : v.aliver.notAliveCnt ≤ 4) :
    Checking w₀ rest
      { w with heap := w.heap.setWriter p { v with aliver := v.aliver.isAlive.2 } } where
  sound := hk.counted hp hnotin
  mapped := hk.mapped
  heard := hk.heard
  entries := hk.entries.quiet (served_check hp).toQuiet
  there e he := hk.there e (List.mem_cons_of_mem _ he)
  nodup := (List.nodup_cons.mp hk.nodup).2
  checked := hk.checked.stays hp hle

theorem Checking.dead (hk : Checking w₀ ((id, p) :: rest) w) (hp : w.heap.writers p = some v)
    (hvid : v.writerId = id) (hapart : ∀ e ∈ rest, e.1 ≠ id) (hnotin : p ∉ rest.map Prod.snd)
    (hlate : 5 ≤ v.aliver.notAliveCnt) :
    ∃ h₁, Heap.deleteWriter p
        ((w.heap.setWriter p { v with aliver := v.aliver.isAlive.2 }).unlist id) = .ok h₁ ∧
      Checking w₀ rest
        { w with heap := h₁, streams := erasePlayer v.key v.writerId w.streams } := by
  have hid : w.heap.handleMap.find? id = some p := hk.there (id, p) List.mem_cons_self
  have honly : ∀ id', w.heap.handleMap.find? id' = some p → id' = id := fun id' hid' =>
    (hk.only hp id' hid').trans hvid
  let h₁ := (w.heap.setWriter p { v with aliver := v.aliver.isAlive.2 }).unlist id
  have hs₁ : Heap.Sound (fun _ => 0) (lateIn rest) h₁ := (hk.counted hp hnotin).unlist id
  have hp₁ : h₁.writers p = some { v with aliver := v.aliver.isAlive.2 } := setWriter_self ..
  have hgone : ∀ id', h₁.handleMap.find? id' ≠ some p := by
    intro id' hid'
    obtain ⟨hne, hid'⟩ := find?_unlist hid'
    exact hne (honly id' hid')
  obtain ⟨h₂, hdelete, hs₂, hserved, hlog⟩ := deleteWriter_spec hs₁ hp₁ hgone
  have hdel : Deleted id p w.heap (h₂.without p) := deleted_of_served hserved hlog
  have hcounted := hk.entries.quiet (served_check hp).toQuiet
  have hentries := Entries.leave (h := h₁) hcounted hp₁ hserved
  have hmapped : Mapped h₂ := Mapped.served (h := h₁) hk.mapped hserved
  refine ⟨_, hdelete, hs₂, hmapped, ?_, hentries, fun e he => ?_,
    (List.nodup_cons.mp hk.nodup).2, ?_⟩
  · exact hserved.heard hs₁ (fun c s hc => (hs₂.unheard c s hc).2) hk.heard
  · show (h₂.without p).handleMap.find? e.1 = some e.2
    rw [hdel.handleMap, OrderedMap.find?_erase_of_ne (hapart e he)]
    exact hk.there e (List.mem_cons_of_mem _ he)
  · refine hk.checked.deleted hk.sound hs₂ hdel hid honly ⟨v.aliver.notAliveCnt + 1, by omega, ?_⟩
    rw [(hk.sound.unfed id p v hid hp).2, lateIn_self]

theorem Checking.next {e : Bytes × Nat} (hk : Checking w₀ (e :: rest) w) :
    ∃ w', checkWriter others w e = .ok w' ∧ Checking w₀ rest w' := by
  obtain ⟨id, p⟩ := e
  have hid : w.heap.handleMap.find? id = some p := hk.there (id, p) List.mem_cons_self
  obtain ⟨v, hp, hvid⟩ := hk.sound.handled id p hid
  obtain ⟨hapart, hnotin⟩ := rest_apart hk.nodup hk.there fun id' hid' =>
    (hk.only hp id' hid').trans hvid
  have hmax := (hk.sound.unfed id p v hid hp).1
  by_cases hle : v.aliver.notAliveCnt ≤ 4
  · exact ⟨_, checkWriter_alive hp ((SessionAliver.isAlive_iff hmax).mpr hle),
      hk.alive hp hnotin hle⟩
  · have hdead : v.aliver.isAlive.1 = false :=
      Bool.eq_false_iff.mpr fun halive => hle ((SessionAliver.isAlive_iff hmax).mp halive)
    obtain ⟨h₁, hdelete, hk'⟩ := hk.dead hp hvid hapart hnotin (by omega)
    exact ⟨_, checkWriter_dead hp hdead hdelete, hk'⟩

end Turn

/-- The loop begins with one tick to count for each writer of the map. -/
theorem Sound.checking (hw : Sound w) :
    Checking w w.heap.handleMap.entries { w with heap := w.heap.record .checked } where
  sound := by
    have hs := hw.settled.sound
    refine ⟨hs.waits, hs.responded, hs.opened, hs.answered, hs.handled, ?_, ?_, hs.freshSession,
      hs.freshResponse, hs.freshWriter⟩
    · intro id q v hid hq
      have hin : q ∈ w.heap.handleMap.entries.map Prod.snd :=
        List.mem_map.mpr ⟨_, OrderedMap.find?_eq_some.mp hid, rfl⟩
      obtain ⟨hmax, hcount⟩ := hs.unfed id q v hid hq
      refine ⟨hmax, ?_⟩
      show unfed q (w.heap.log ++ [.checked]) = _
      rw [unfed_checked, hcount, lateIn, if_pos hin]
      rfl
    · intro c s hc
      show _ ∧ unheard c (w.heap.log ++ [.checked]) = _
      rw [unheard_checked]
      exact hs.unheard c s hc
  mapped := hw.settled.mapped
  heard := hw.settled.heard
  entries := hw.entries
  there e he := OrderedMap.find?_eq_some.mpr he
  nodup := w.heap.handleMap.keys_nodup
  checked := by
    refine ⟨fun q v hq => ⟨v, hq, rfl⟩, ?_, ?_, ?_, rfl, Nat.le_refl _, fun _ _ hr => hr, rfl⟩
    · intro q v hq hnone
      exact absurd (hq.symm.trans hnone) (Option.some_ne_none _)
    · intro id q
      refine ⟨fun hid => ⟨hid, ?_⟩, And.left⟩
      obtain ⟨v, hq, -⟩ := hw.settled.sound.handled id q hid
      rw [show (w.heap.record .checked).writers q = some v from hq]
      exact Option.some_ne_none _
    · intro id q v hid hnot
      exact absurd (OrderedMap.find?_eq_some.mp hid) hnot

/-- The timer of the writers. -/
theorem onCheckAlive_spec (hw : Sound w) :
    ∃ w', onCheckAlive others w = .ok w' ∧ Sound w' ∧ Checked [] w.heap w'.heap := by
  obtain ⟨w', hloop, hk⟩ := @Run.exists_foldlM Fault _ _ (checkWriter others) (Checking w)
    (fun _ _ _ hk => hk.next) w.heap.handleMap.entries { w with heap := w.heap.record .checked }
    hw.checking
  have hlate : lateIn [] = fun _ => 0 := rfl
  exact ⟨w', hloop, ⟨⟨hlate ▸ hk.sound, hk.mapped, hk.heard⟩, hk.entries⟩, hk.checked⟩

end World

end HttpflvServer

end MediaServer
