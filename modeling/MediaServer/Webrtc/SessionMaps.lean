import Mathlib.Tactic.Common
import MediaServer.Webrtc.RoomService

/-!
# The maps of sessions and subscribers

What the operations of `RtcBaseSession` and `Subscribers` do to their maps, said once.
`Entry` is an entry of the map of a room.  `Proper` is what holds of every session that a
room keeps, and `Filled` and `Joined` are the two loops that make one: the ids in a new
session are those that were made for it.
-/

namespace MediaServer

namespace Subscribers

/-- The subscriber `sub` is in the map of the room. -/
def Entry (m : Subscribers) (pid sid : Bytes) (sub : RtcSubscriber) : Prop :=
  ∃ subs, m.find? pid = some subs ∧ subs.find? sid = some sub

variable {m m' : Subscribers} {pid sid p t : Bytes} {sub x : RtcSubscriber}

theorem entry_erase : Entry (m.erase pid) p t x ↔ Entry m p t x ∧ p ≠ pid := by
  by_cases hp : p = pid
  · simp [Entry, hp]
  · simp [Entry, hp, OrderedMap.find?_erase_of_ne hp]

theorem entry_onUnsubscribe :
    Entry (m.onUnsubscribe pid sid) p t x ↔ Entry m p t x ∧ ¬(p = pid ∧ t = sid) := by
  unfold onUnsubscribe
  split
  · rename_i hnone
    refine (and_iff_left_of_imp ?_).symm
    rintro ⟨subs, hsubs, -⟩ ⟨rfl, -⟩
    rw [hnone] at hsubs
    cases hsubs
  · rename_i subs hsubs
    split
    · rename_i hnone
      refine (and_iff_left_of_imp ?_).symm
      rintro ⟨subs', hsubs', hx⟩ ⟨rfl, rfl⟩
      rw [hsubs, Option.some.injEq] at hsubs'
      rw [← hsubs', hnone] at hx
      cases hx
    · by_cases hp : p = pid
      · subst hp
        simp only [Entry, OrderedMap.find?_assign_self, hsubs, Option.some.injEq, exists_eq_left',
          OrderedMap.find?_erase]
        split
        · rename_i ht
          simp [ht]
        · rename_i ht
          simp [ht]
      · simp [Entry, OrderedMap.find?_assign_of_ne hp, hp]

theorem find?_onUnsubscribe : (m.onUnsubscribe pid sid).find? p = none ↔ m.find? p = none := by
  unfold onUnsubscribe
  split
  · exact Iff.rfl
  · rename_i subs hsubs
    split
    · exact Iff.rfl
    · rw [OrderedMap.find?_assign]
      split
      · rename_i hp
        simp [hp, hsubs]
      · exact Iff.rfl

/-- The subscriber that is inserted, next to the others. -/
theorem entry_insertSubscriber (h : m.insertSubscriber pid sub = .ok m') :
    Entry m' p t x ↔ Entry m p t x ∨ p = pid ∧ t = sub.sid ∧ x = sub := by
  unfold insertSubscriber at h
  split at h
  · rename_i hnone
    cases h
    by_cases hp : p = pid
    · subst hp
      simp [Entry, hnone, OrderedMap.find?_assign, eq_comm]
    · simp [Entry, OrderedMap.find?_assign_of_ne hp, hp]
  · rename_i subs hsubs
    split at h
    · cases h
    · rename_i hnew
      cases h
      by_cases hp : p = pid
      · subst hp
        simp only [Entry, OrderedMap.find?_assign_self, hsubs, Option.some.injEq, exists_eq_left',
          true_and, OrderedMap.find?_assign]
        split
        · rename_i ht
          simp [ht, hnew, eq_comm]
        · rename_i ht
          simp [ht]
      · simp [Entry, OrderedMap.find?_assign_of_ne hp, hp]

theorem find?_insertSubscriber (h : m.insertSubscriber pid sub = .ok m') :
    m'.find? p = none ↔ m.find? p = none ∧ p ≠ pid := by
  unfold insertSubscriber at h
  split at h
  · cases h
    rw [OrderedMap.find?_assign]
    split <;> simp_all
  · split at h
    · cases h
    · cases h
      rw [OrderedMap.find?_assign]
      split <;> simp_all

theorem entry_unsubscribeAll (entries : List (Int × RtcSubscriber)) :
    Entry (entries.foldl (fun m e => onUnsubscribe m e.2.pid e.2.sid) m) p t x ↔
      Entry m p t x ∧ ∀ e ∈ entries, ¬(p = e.2.pid ∧ t = e.2.sid) := by
  induction entries generalizing m with
  | nil => simp
  | cons e entries ih =>
    rw [List.foldl_cons, ih, entry_onUnsubscribe, List.forall_mem_cons, and_assoc]

theorem find?_unsubscribeAll (entries : List (Int × RtcSubscriber)) :
    (entries.foldl (fun m e => onUnsubscribe m e.2.pid e.2.sid) m).find? p = none ↔
      m.find? p = none := by
  induction entries generalizing m with
  | nil => exact Iff.rfl
  | cons e entries ih => rw [List.foldl_cons, ih, find?_onUnsubscribe]

theorem entry_erasePublishers (infos : List PublisherInfo) :
    Entry (Room.erasePublishers m infos) p t x ↔
      Entry m p t x ∧ ∀ info ∈ infos, p ≠ info.pid := by
  induction infos generalizing m with
  | nil => simp [Room.erasePublishers]
  | cons info infos ih =>
    rw [Room.erasePublishers, List.foldl_cons, ← Room.erasePublishers, ih, entry_erase,
      List.forall_mem_cons, and_assoc]

theorem find?_erasePublishers (infos : List PublisherInfo) :
    (Room.erasePublishers m infos).find? p = none ↔
      m.find? p = none ∨ ∃ info ∈ infos, p = info.pid := by
  induction infos generalizing m with
  | nil => simp [Room.erasePublishers]
  | cons info infos ih =>
    rw [Room.erasePublishers, List.foldl_cons, ← Room.erasePublishers, ih, List.exists_mem_cons_iff]
    by_cases hp : p = info.pid
    · simp [hp]
    · simp [hp, OrderedMap.find?_erase_of_ne hp]

end Subscribers

namespace RtcBaseSession

/-- The ids in a session: its own and those of what it holds. -/
def names (s : RtcBaseSession) : List Bytes :=
  s.id :: (s.pid2publishers.keys ++ s.mid2subscribers.entries.map fun e => e.2.sid)

/-- What holds of every session that a room keeps. -/
structure Proper (kind : RtcDirection) (s : RtcBaseSession) : Prop where
  direction : s.direction = kind
  opened : s.closeSession = false
  known : ∀ mid p, s.mid2publishers.find? mid = some p →
    (∃ media ∈ s.medias, media.mid = mid) ∧ s.pid2publishers.find? p.pid = some p
  listed : ∀ ssrc p, s.ssrc2publishers.find? ssrc = some p → s.pid2publishers.find? p.pid = some p
  owner : ∀ mid sub, s.mid2subscribers.find? mid = some sub → sub.session = s.id

theorem id_mem_names (s : RtcBaseSession) : s.id ∈ s.names := List.mem_cons_self

theorem pid_mem_names {s : RtcBaseSession} {pid : Bytes} {p : RtcPublisher}
    (h : s.pid2publishers.find? pid = some p) : pid ∈ s.names :=
  List.mem_cons_of_mem _ (List.mem_append_left _
    (OrderedMap.mem_keys.mpr ⟨p, OrderedMap.find?_eq_some.mp h⟩))

theorem sid_mem_names {s : RtcBaseSession} {mid : Int} {sub : RtcSubscriber}
    (h : s.mid2subscribers.find? mid = some sub) : sub.sid ∈ s.names :=
  List.mem_cons_of_mem _ (List.mem_append_right _
    (List.mem_map.mpr ⟨(mid, sub), OrderedMap.find?_eq_some.mp h, rfl⟩))

/-! ## The end of a session -/

theorem removePublishers_mid2publishers (medias : List MediaRtcInfo) (s : RtcBaseSession)
    (mid : Int) :
    (medias.foldl removePublisher s).mid2publishers.find? mid =
      if ∃ media ∈ medias, media.mid = mid then none else s.mid2publishers.find? mid := by
  induction medias generalizing s with
  | nil => simp
  | cons media medias ih =>
    rw [List.foldl_cons, ih, removePublisher]
    by_cases hmid : media.mid = mid
    · simp [hmid]
    · simp [hmid, OrderedMap.find?_erase_of_ne (Ne.symm hmid)]

theorem removePublishers_kept (medias : List MediaRtcInfo) (s : RtcBaseSession) :
    (medias.foldl removePublisher s).direction = s.direction ∧
      (medias.foldl removePublisher s).closeSession = s.closeSession := by
  induction medias generalizing s with
  | nil => exact ⟨rfl, rfl⟩
  | cons media medias ih => exact ih _

/-- A publish session that is closed has no publishers, so that its destructor finds
nothing to tell the room. -/
theorem Proper.close_recv {s : RtcBaseSession} (h : s.Proper .recv) :
    s.close.mid2publishers.entries = [] ∧ s.close.direction = .recv ∧
      s.close.closeSession = true := by
  have hclose : s.close = s.medias.foldl removePublisher { s with closeSession := true } := by
    simp [close, h.opened, h.direction]
  rw [hclose]
  obtain ⟨hdirection, hclosed⟩ := removePublishers_kept s.medias { s with closeSession := true }
  refine ⟨OrderedMap.entries_eq_nil fun mid => ?_, hdirection.trans h.direction, hclosed⟩
  rw [removePublishers_mid2publishers]
  split
  · rfl
  · rename_i hmid
    cases hfind : s.mid2publishers.find? mid with
    | none => rfl
    | some p => exact absurd (h.known mid p hfind).1 hmid

theorem Proper.destruct_recv {s : RtcBaseSession} (h : s.Proper .recv) (m : Subscribers) :
    s.destruct m = m := by
  simp [destruct, h.direction, h.close_recv.1]

theorem Proper.destruct_close_recv {s : RtcBaseSession} (h : s.Proper .recv) (m : Subscribers) :
    s.close.destruct m = m := by
  obtain ⟨hnil, hdirection, hclosed⟩ := h.close_recv
  have hclose : s.close.close = s.close := by
    rw [close, if_pos hclosed]
  simp [destruct, hdirection, hclose, hnil]

theorem Proper.destruct_send {s : RtcBaseSession} (h : s.Proper .send) (m : Subscribers) :
    s.destruct m =
      s.mid2subscribers.entries.foldl (fun m e => m.onUnsubscribe e.2.pid e.2.sid) m := by
  simp [destruct, close, h.direction, h.opened]

/-- The destructor of a subscribe session takes its own subscribers out of the map. -/
theorem Proper.entry_destruct {s : RtcBaseSession} (h : s.Proper .send) {m : Subscribers}
    {p t : Bytes} {x : RtcSubscriber} :
    Subscribers.Entry (s.destruct m) p t x ↔ Subscribers.Entry m p t x ∧
      ∀ mid sub, s.mid2subscribers.find? mid = some sub → ¬(p = sub.pid ∧ t = sub.sid) := by
  rw [h.destruct_send, Subscribers.entry_unsubscribeAll]
  refine and_congr_right fun _ => ⟨fun hall mid sub hsub => ?_, fun hall e he => ?_⟩
  · exact hall (mid, sub) (OrderedMap.find?_eq_some.mp hsub)
  · exact hall e.1 e.2 (OrderedMap.find?_eq_some.mpr he)

theorem Proper.find?_destruct {s : RtcBaseSession} (h : s.Proper .send) {m : Subscribers}
    {p : Bytes} : (s.destruct m).find? p = none ↔ m.find? p = none := by
  rw [h.destruct_send]
  exact Subscribers.find?_unsubscribeAll _

/-! ## A session for an offer -/

/-- The ids in the session were made from the `start`-th on. -/
def FreshFrom (uuid : Nat → Bytes) (start made : Nat) (s : RtcBaseSession) : Prop :=
  ∀ name ∈ s.names, ∃ n, start ≤ n ∧ n < made ∧ name = uuid n

theorem FreshFrom.mono {uuid : Nat → Bytes} {start made made' : Nat} {s s' : RtcBaseSession}
    (h : FreshFrom uuid start made s) (hmade : made < made') (hstart : start ≤ made)
    (hnames : ∀ name ∈ s'.names, name ∈ s.names ∨ name = uuid made) :
    FreshFrom uuid start made' s' := by
  intro name hname
  rcases hnames name hname with hold | rfl
  · obtain ⟨n, hn, hlt, heq⟩ := h name hold
    exact ⟨n, hn, by omega, heq⟩
  · exact ⟨made, hstart, hmade, rfl⟩

/-- An id that has not been made yet is not in the session. -/
theorem FreshFrom.not_mem {uuid : Nat → Bytes} {start made : Nat} {s : RtcBaseSession}
    (hinj : ∀ m n, uuid m = uuid n → m = n) (h : FreshFrom uuid start made s) :
    uuid made ∉ s.names := by
  intro hmem
  obtain ⟨n, -, hlt, heq⟩ := h _ hmem
  have := hinj made n heq
  omega

/-- A session that is being made. -/
structure Filled (uuid : Nat → Bytes) (start : Nat) (kind : RtcDirection) (s : RtcBaseSession)
    (made : Nat) : Prop where
  proper : s.Proper kind
  fresh : FreshFrom uuid start made s
  started : start ≤ made

variable {uuid : Nat → Bytes} {start : Nat}

theorem filled_new (uid : Bytes) (kind : RtcDirection) (medias : List MediaRtcInfo) :
    Filled uuid start kind { id := uuid start, uid, direction := kind, medias } (start + 1) := by
  refine ⟨⟨rfl, rfl, ?_, ?_, ?_⟩, ?_, Nat.le_succ start⟩
  · intro mid p h
    cases h
  · intro ssrc p h
    cases h
  · intro mid sub h
    cases h
  · intro name hname
    have hid : name = uuid start := by simpa [names, OrderedMap.keys] using hname
    exact ⟨start, Nat.le_refl start, Nat.lt_succ_self start, hid⟩

theorem assignAll_find? {p q : RtcPublisher} {infos : List SsrcInfo}
    {m : OrderedMap Nat RtcPublisher} {ssrc : Nat}
    (h : (infos.foldl (fun m info => m.assign info.ssrc p) m).find? ssrc = some q) :
    q = p ∨ m.find? ssrc = some q := by
  induction infos generalizing m with
  | nil => exact .inr h
  | cons info infos ih =>
    rcases ih h with heq | hrest
    · exact .inl heq
    · rw [OrderedMap.find?_assign] at hrest
      split at hrest
      · exact .inl (Option.some.inj hrest).symm
      · exact .inr hrest

theorem Proper.addPublisher {s : RtcBaseSession} {p : RtcPublisher} (h : s.Proper .recv)
    (hnew : p.pid ∉ s.names) (hmedia : p.mediaInfo ∈ s.medias) :
    (s.addPublisher p).Proper .recv := by
  -- the publishers that were there keep their entry, because the id is new
  have hkept : ∀ q, s.pid2publishers.find? q.pid = some q →
      (s.addPublisher p).pid2publishers.find? q.pid = some q := by
    intro q hq
    have hne : q.pid ≠ p.pid := fun heq => hnew (heq ▸ pid_mem_names hq)
    simp only [RtcBaseSession.addPublisher, OrderedMap.find?_assign_of_ne hne, hq]
  have hself : (s.addPublisher p).pid2publishers.find? p.pid = some p := by
    simp only [RtcBaseSession.addPublisher, OrderedMap.find?_assign_self]
  refine ⟨h.direction, h.opened, ?_, ?_, h.owner⟩
  · intro mid q hq
    have hcases : q = p ∧ mid = p.mediaInfo.mid ∨ s.mid2publishers.find? mid = some q := by
      simp only [RtcBaseSession.addPublisher] at hq
      split at hq
      · rw [OrderedMap.find?_assign] at hq
        split at hq
        · rename_i hmid
          exact .inl ⟨(Option.some.inj hq).symm, hmid⟩
        · exact .inr hq
      · exact .inr hq
    rcases hcases with ⟨rfl, rfl⟩ | hold
    · exact ⟨⟨_, hmedia, rfl⟩, hself⟩
    · exact ⟨(h.known mid q hold).1, hkept q (h.known mid q hold).2⟩
  · intro ssrc q hq
    rcases assignAll_find? hq with rfl | hold
    · exact hself
    · exact hkept q (h.listed ssrc q hold)

theorem names_addPublisher {s : RtcBaseSession} {p : RtcPublisher} {name : Bytes}
    (h : name ∈ (s.addPublisher p).names) : name ∈ s.names ∨ name = p.pid := by
  simp only [names, addPublisher, List.mem_cons, List.mem_append, OrderedMap.mem_keys,
    OrderedMap.mem_assign, Prod.mk.injEq] at h ⊢
  rcases h with h | ⟨v, ⟨h, -⟩ | ⟨h, -⟩⟩ | h
  · exact .inl (.inl h)
  · exact .inr h
  · exact .inl (.inr (.inl ⟨v, h⟩))
  · exact .inl (.inr (.inr h))

theorem createPublisher_filled (hinj : ∀ m n, uuid m = uuid n → m = n) {media : MediaRtcInfo}
    {st st' : Filling} (h : Filled uuid start .recv st.session st.made)
    (hmedia : media ∈ st.session.medias) (hcreate : createPublisher uuid media st = .ok st') :
    Filled uuid start .recv st'.session st'.made ∧ st'.session.id = st.session.id ∧
      st'.session.medias = st.session.medias := by
  unfold createPublisher at hcreate
  split at hcreate
  · cases hcreate
    exact ⟨h, rfl, rfl⟩
  · split at hcreate
    · cases hcreate
    · cases hcreate
      refine ⟨⟨h.proper.addPublisher (h.fresh.not_mem hinj) hmedia, ?_, ?_⟩, rfl, rfl⟩
      · exact h.fresh.mono (Nat.lt_succ_self _) h.started fun name hname =>
          names_addPublisher hname
      · exact Nat.le_succ_of_le h.started

/-- The session that the loop over the sections leaves, wherever it ends. -/
theorem createPublishers_filled (hinj : ∀ m n, uuid m = uuid n → m = n)
    {medias : List MediaRtcInfo} {st : Filling} (h : Filled uuid start .recv st.session st.made)
    (hmedias : medias ⊆ st.session.medias) :
    Filled uuid start .recv (createPublishers uuid medias st).1.session
        (createPublishers uuid medias st).1.made ∧
      (createPublishers uuid medias st).1.session.id = st.session.id := by
  induction medias generalizing st with
  | nil => exact ⟨h, rfl⟩
  | cons media medias ih =>
    unfold createPublishers
    split
    · exact ⟨h, rfl⟩
    · rename_i st' hcreate
      obtain ⟨hfilled, hid, hsame⟩ :=
        createPublisher_filled hinj h (hmedias List.mem_cons_self) hcreate
      obtain ⟨hrest, hid'⟩ := ih hfilled (hsame ▸ fun x hx => hmedias (List.mem_cons_of_mem _ hx))
      exact ⟨hrest, hid'.trans hid⟩

/-! ## A session for subscribers -/

theorem createSubscriber_cases {s s' : RtcBaseSession} {sid remoteUid : Bytes}
    {media : MediaRtcInfo} {sub : RtcSubscriber}
    (h : s.createSubscriber sid remoteUid media = .ok (s', sub)) :
    s.mid2subscribers.find? media.mid = none ∧ sub.sid = sid ∧ sub.pid = media.publisherId ∧
      sub.session = s.id ∧
      s' = { s with mid2subscribers := s.mid2subscribers.assign media.mid sub } := by
  unfold createSubscriber at h
  split at h
  · cases h
  · rename_i hnone
    split at h
    · cases h
    · cases h
      exact ⟨hnone, rfl, rfl, rfl, rfl⟩

theorem Filled.createSubscriber {s s' : RtcBaseSession} {made : Nat} {remoteUid : Bytes}
    {media : MediaRtcInfo} {sub : RtcSubscriber} (h : Filled uuid start .send s made)
    (hcreate : s.createSubscriber (uuid made) remoteUid media = .ok (s', sub)) :
    Filled uuid start .send s' (made + 1) := by
  obtain ⟨-, hsid, -, hsession, rfl⟩ := createSubscriber_cases hcreate
  refine ⟨⟨h.proper.direction, h.proper.opened, h.proper.known, h.proper.listed, ?_⟩, ?_,
    Nat.le_succ_of_le h.started⟩
  · intro mid x hx
    simp only [OrderedMap.find?_assign] at hx
    split at hx
    · exact Option.some.inj hx ▸ hsession
    · exact h.proper.owner mid x hx
  · refine h.fresh.mono (Nat.lt_succ_self made) h.started fun name hname => ?_
    simp only [names, List.mem_cons, List.mem_append, List.mem_map, Prod.exists,
      OrderedMap.mem_assign, Prod.mk.injEq] at hname ⊢
    rcases hname with hid | hpid | ⟨mid, x, ⟨-, rfl⟩ | ⟨hold, -⟩, rfl⟩
    · exact .inl (.inl hid)
    · exact .inl (.inr (.inl hpid))
    · exact .inr hsid
    · exact .inl (.inr (.inr ⟨mid, x, hold, rfl⟩))

end RtcBaseSession

namespace Room

open RtcBaseSession

variable {libs : RoomLibs} {start : Nat} {m : Subscribers}

/-- A subscribe session that is being filled: what it has added to the map of the room. -/
structure Joined (libs : RoomLibs) (start : Nat) (m : Subscribers) (pids : List Bytes)
    (st : Subscribing) : Prop where
  filled : Filled libs.uuid start .send st.session st.made
  entries : ∀ p t x, Subscribers.Entry st.subscribers p t x →
    Subscribers.Entry m p t x ∨
      x.pid = p ∧ x.sid = t ∧ ∃ mid, st.session.mid2subscribers.find? mid = some x
  keys : ∀ p, st.subscribers.find? p ≠ none → m.find? p ≠ none ∨ p ∈ pids
  kept : ∀ p t x, Subscribers.Entry m p t x → Subscribers.Entry st.subscribers p t x

/-- A subscriber that the session has stays in it. -/
theorem find?_of_createSubscriber {s s' : RtcBaseSession} {sid remoteUid : Bytes}
    {media : MediaRtcInfo} {sub x : RtcSubscriber} {mid : Int}
    (hcreate : s.createSubscriber sid remoteUid media = .ok (s', sub))
    (hx : s.mid2subscribers.find? mid = some x) : s'.mid2subscribers.find? mid = some x := by
  obtain ⟨hnone, -, -, -, rfl⟩ := createSubscriber_cases hcreate
  have hne : mid ≠ media.mid := by
    rintro rfl
    rw [hnone] at hx
    cases hx
  rw [OrderedMap.find?_assign_of_ne hne, hx]

theorem createSubscribers_joined {remoteUid : Bytes} {pids : List Bytes}
    {medias : List MediaRtcInfo} {st : Subscribing} (h : Joined libs start m pids st)
    (hpids : ∀ media ∈ medias, media.publisherId ∈ pids) :
    Joined libs start m pids (createSubscribers libs remoteUid medias st).1 ∧
      (createSubscribers libs remoteUid medias st).1.session.id = st.session.id := by
  induction medias generalizing st with
  | nil => exact ⟨h, rfl⟩
  | cons media medias ih =>
    unfold createSubscribers
    split
    · exact ⟨h, rfl⟩
    · rename_i s' sub hcreate
      have hfilled := h.filled.createSubscriber hcreate
      have hstays : ∀ {mid x}, st.session.mid2subscribers.find? mid = some x →
          s'.mid2subscribers.find? mid = some x := find?_of_createSubscriber hcreate
      obtain ⟨-, -, hpid, -, hs'⟩ := createSubscriber_cases hcreate
      have hid : s'.id = st.session.id := by rw [hs']
      split
      · refine ⟨⟨hfilled, ?_, h.keys, h.kept⟩, hid⟩
        intro p t x hx
        rcases h.entries p t x hx with hold | ⟨hp, ht, mid, hmid⟩
        · exact .inl hold
        · exact .inr ⟨hp, ht, mid, hstays hmid⟩
      · rename_i subscribers hinsert
        have hjoined : Joined libs start m pids ⟨s', subscribers, st.made + 1⟩ := by
          refine ⟨hfilled, ?_, ?_, ?_⟩
          · intro p t x hx
            rcases (Subscribers.entry_insertSubscriber hinsert).mp hx with hx | ⟨rfl, rfl, rfl⟩
            · rcases h.entries p t x hx with hold | ⟨hp, ht, mid, hmid⟩
              · exact .inl hold
              · exact .inr ⟨hp, ht, mid, hstays hmid⟩
            · refine .inr ⟨hpid, rfl, media.mid, ?_⟩
              rw [hs']
              exact OrderedMap.find?_assign_self
          · intro p hp
            rw [ne_eq, Subscribers.find?_insertSubscriber hinsert, not_and_or, not_not] at hp
            rcases hp with hp | rfl
            · exact h.keys p hp
            · exact .inr (hpids media List.mem_cons_self)
          · intro p t x hx
            exact (Subscribers.entry_insertSubscriber hinsert).mpr (.inl (h.kept p t x hx))
        obtain ⟨hrest, hid'⟩ := ih hjoined fun x hx => hpids x (List.mem_cons_of_mem _ hx)
        exact ⟨hrest, hid'.trans hid⟩

end Room

end MediaServer
