import MediaServer.Webrtc.RoomSteps

/-!
# What holds in every room

`Held` says that a session is in one of the two maps of a user.  `Named` is about the ids:
every session that is held is `Proper`, and an id belongs to one session.  `Attached` is
about the subscribers of the room: each is in a subscribe session that is held.

Each is kept by every `Effect`, so that it holds in every room that a run reaches.
`no_dangling_subscriber` is what `Attached` says about the users.
-/

namespace MediaServer

namespace Room

open RtcBaseSession

/-- The session is held by the user. -/
def Held (r : Room) (kind : RtcDirection) (uid : Bytes) (s : RtcBaseSession) : Prop :=
  ∃ m, r.member uid = some m ∧ (m.sessions kind).find? s.id = some s

section Held

variable {r r' : Room} {uid uid' : Bytes} {m : Member} {kind kind' : RtcDirection}
  {s s' : RtcBaseSession} {k : Bytes}

/-- A new session, next to those that were there. -/
theorem held_add (hm : r.member uid = some m)
    (h : r'.member = Function.update r.member uid (some (m.add kind s)))
    (hnew : (m.sessions kind).find? s.id = none) :
    Held r' kind' uid' s' ↔ Held r kind' uid' s' ∨ kind' = kind ∧ uid' = uid ∧ s' = s := by
  unfold Held
  rw [h]
  by_cases huid : uid' = uid
  · subst huid
    simp only [Function.update_self, Option.some.injEq, exists_eq_left', hm, Member.add, true_and]
    by_cases hkind : kind' = kind
    · subst hkind
      rw [Function.update_self, OrderedMap.find?_assign]
      split
      · rename_i hid
        simp only [Option.some.injEq, hid, hnew, reduceCtorEq, false_or, true_and, eq_comm]
      · rename_i hid
        have hne : s' ≠ s := fun heq => hid (heq ▸ rfl)
        simp only [hne, and_false, or_false]
    · rw [Function.update_of_ne hkind]
      simp only [hkind, false_and, or_false]
  · simp only [Function.update_of_ne huid, huid, false_and, and_false, or_false]

/-- One session less. -/
theorem held_remove (hm : r.member uid = some m)
    (h : r'.member = Function.update r.member uid (some (m.remove kind k))) :
    Held r' kind' uid' s' ↔ Held r kind' uid' s' ∧ ¬(kind' = kind ∧ uid' = uid ∧ s'.id = k) := by
  unfold Held
  rw [h]
  by_cases huid : uid' = uid
  · subst huid
    simp only [Function.update_self, Option.some.injEq, exists_eq_left', hm, Member.remove,
      true_and]
    by_cases hkind : kind' = kind
    · subst hkind
      rw [Function.update_self, OrderedMap.find?_erase]
      split
      · rename_i hid
        simp only [hid, reduceCtorEq, true_and, not_true_eq_false, and_false]
      · rename_i hid
        simp only [hid, and_false, not_false_eq_true, and_true]
    · rw [Function.update_of_ne hkind]
      simp only [hkind, false_and, not_false_eq_true, and_true]
  · simp only [Function.update_of_ne huid, huid, false_and, and_false, not_false_eq_true, and_true]

/-- A user less. -/
theorem held_close (h : r'.member = Function.update r.member uid none) :
    Held r' kind' uid' s' ↔ Held r kind' uid' s' ∧ uid' ≠ uid := by
  unfold Held
  rw [h]
  by_cases huid : uid' = uid
  · subst huid
    simp
  · simp [huid]

/-- A user more, without sessions. -/
theorem held_join (hnew : r.member uid = none) (hempty : ∀ kind, m.sessions kind = .empty)
    (h : r'.member = Function.update r.member uid (some m)) :
    Held r' kind' uid' s' ↔ Held r kind' uid' s' := by
  unfold Held
  rw [h]
  by_cases huid : uid' = uid
  · subst huid
    simp [hnew, hempty]
  · simp [huid]

theorem held_of_member (h : r'.member = r.member) : Held r' kind uid s ↔ Held r kind uid s := by
  rw [Held, Held, h]

end Held

/-! ## The ids -/

/-- Every session that is held is as it was made, under its own id, and an id belongs to
one session. -/
structure Named (libs : RoomLibs) (r : Room) : Prop where
  keyed : ∀ uid m kind k s, r.member uid = some m → (m.sessions kind).find? k = some s → k = s.id
  proper : ∀ kind uid s, Held r kind uid s → s.Proper kind
  made : ∀ kind uid s, Held r kind uid s → ∀ name ∈ s.names, ∃ n < r.made, name = libs.uuid n
  unique : ∀ kind uid s kind' uid' s' name, Held r kind uid s → Held r kind' uid' s' →
    name ∈ s.names → name ∈ s'.names → kind = kind' ∧ uid = uid' ∧ s = s'

section Named

variable {libs : RoomLibs} {r r' : Room}

theorem Named.held {uid k : Bytes} {m : Member} {kind : RtcDirection} {s : RtcBaseSession}
    (h : Named libs r) (hm : r.member uid = some m) (hs : (m.sessions kind).find? k = some s) :
    Held r kind uid s ∧ k = s.id := by
  have hk := h.keyed uid m kind k s hm hs
  exact ⟨⟨m, hm, hk ▸ hs⟩, hk⟩

/-- A publish session that a user holds. -/
theorem Named.held_publish {uid k : Bytes} {user : UserInfo} {s : RtcBaseSession}
    (h : Named libs r) (huser : r.users.find? uid = some user)
    (hs : user.publishSessions.find? k = some s) : Held r .recv uid s ∧ k = s.id :=
  h.held (member_of_find? huser) hs

/-- A subscribe session that a user holds. -/
theorem Named.held_subscribe {uid k : Bytes} {user : UserInfo} {s : RtcBaseSession}
    (h : Named libs r) (huser : r.users.find? uid = some user)
    (hs : user.subscribeSessions.find? k = some s) : Held r .send uid s ∧ k = s.id :=
  h.held (member_of_find? huser) hs

/-- Sessions can go. -/
theorem Named.shrink (h : Named libs r) (hmade : r.made ≤ r'.made)
    (hsub : ∀ uid m' kind k s, r'.member uid = some m' → (m'.sessions kind).find? k = some s →
      ∃ m, r.member uid = some m ∧ (m.sessions kind).find? k = some s) : Named libs r' := by
  have hheld : ∀ {kind uid s}, Held r' kind uid s → Held r kind uid s := by
    rintro kind uid s ⟨m', hm', hs⟩
    exact hsub uid m' kind s.id s hm' hs
  refine ⟨?_, fun kind uid s hs => h.proper kind uid s (hheld hs), ?_, ?_⟩
  · intro uid m' kind k s hm' hs
    obtain ⟨m, hm, hs⟩ := hsub uid m' kind k s hm' hs
    exact h.keyed uid m kind k s hm hs
  · intro kind uid s hs name hname
    obtain ⟨n, hn, heq⟩ := h.made kind uid s (hheld hs) name hname
    exact ⟨n, Nat.lt_of_lt_of_le hn hmade, heq⟩
  · intro kind uid s kind' uid' s' name hs hs' hname hname'
    exact h.unique kind uid s kind' uid' s' name (hheld hs) (hheld hs') hname hname'

/-- An id of a new session is not in a session that is held. -/
theorem Named.disjoint {kind kind' : RtcDirection} {uid : Bytes} {s s' : RtcBaseSession}
    {made : Nat} {name : Bytes} (h : Named libs r) (hs : Held r kind uid s)
    (hfilled : Filled libs.uuid r.made kind' s' made) (hname : name ∈ s.names)
    (hname' : name ∈ s'.names) : False := by
  obtain ⟨n, hn, heq⟩ := h.made kind uid s hs name hname
  obtain ⟨n', hn', -, heq'⟩ := hfilled.fresh name hname'
  have hsame := libs.uuidInjective n n' (heq.symm.trans heq')
  omega

theorem Named.find?_filled {kind kind' : RtcDirection} {uid : Bytes} {m : Member}
    {s : RtcBaseSession} {made : Nat} (h : Named libs r) (hm : r.member uid = some m)
    (hfilled : Filled libs.uuid r.made kind' s made) : (m.sessions kind).find? s.id = none := by
  cases hfind : (m.sessions kind).find? s.id with
  | none => rfl
  | some t =>
    obtain ⟨hheld, hid⟩ := h.held hm hfind
    exact (h.disjoint hheld hfilled (hid ▸ id_mem_names t) (id_mem_names s)).elim

/-- A session can come, with ids that were made for it. -/
theorem Named.add {uid : Bytes} {m : Member} {kind : RtcDirection} {s : RtcBaseSession}
    (h : Named libs r) (hm : r.member uid = some m)
    (hfilled : Filled libs.uuid r.made kind s r'.made)
    (hmember : r'.member = Function.update r.member uid (some (m.add kind s))) :
    Named libs r' := by
  have hheld : ∀ kind' uid' s', Held r' kind' uid' s' ↔
      Held r kind' uid' s' ∨ kind' = kind ∧ uid' = uid ∧ s' = s := fun _ _ _ =>
    held_add hm hmember (h.find?_filled hm hfilled)
  refine ⟨?_, ?_, ?_, ?_⟩
  · intro uid' m' kind' k t hm' ht
    rw [hmember] at hm'
    by_cases huid : uid' = uid
    · subst huid
      rw [Function.update_self, Option.some.injEq] at hm'
      subst hm'
      by_cases hkind : kind' = kind
      · subst hkind
        simp only [Member.add, Function.update_self, OrderedMap.find?_assign] at ht
        split at ht
        · rename_i hk
          rw [hk, ← Option.some.inj ht]
        · exact h.keyed uid' m kind' k t hm ht
      · simp only [Member.add, Function.update_of_ne hkind] at ht
        exact h.keyed uid' m kind' k t hm ht
    · rw [Function.update_of_ne huid] at hm'
      exact h.keyed uid' m' kind' k t hm' ht
  · intro kind' uid' t ht
    rcases (hheld kind' uid' t).mp ht with ht | ⟨rfl, -, rfl⟩
    · exact h.proper kind' uid' t ht
    · exact hfilled.proper
  · intro kind' uid' t ht name hname
    rcases (hheld kind' uid' t).mp ht with ht | ⟨rfl, -, rfl⟩
    · obtain ⟨n, hn, heq⟩ := h.made kind' uid' t ht name hname
      exact ⟨n, Nat.lt_of_lt_of_le hn hfilled.started, heq⟩
    · obtain ⟨n, -, hn, heq⟩ := hfilled.fresh name hname
      exact ⟨n, hn, heq⟩
  · intro k₁ u₁ s₁ k₂ u₂ s₂ name h₁ h₂ hname₁ hname₂
    rcases (hheld k₁ u₁ s₁).mp h₁ with h₁ | ⟨rfl, rfl, rfl⟩
    · rcases (hheld k₂ u₂ s₂).mp h₂ with h₂ | ⟨rfl, rfl, rfl⟩
      · exact h.unique k₁ u₁ s₁ k₂ u₂ s₂ name h₁ h₂ hname₁ hname₂
      · exact (h.disjoint h₁ hfilled hname₁ hname₂).elim
    · rcases (hheld k₂ u₂ s₂).mp h₂ with h₂ | ⟨rfl, rfl, rfl⟩
      · exact (h.disjoint h₂ hfilled hname₂ hname₁).elim
      · exact ⟨rfl, rfl, rfl⟩

/-- What is left of the sessions when one of them goes. -/
theorem find?_of_remove {uid uid' k k' : Bytes} {m m' : Member} {kind kind' : RtcDirection}
    {s : RtcBaseSession} (hm : r.member uid = some m)
    (hmember : r'.member = Function.update r.member uid (some (m.remove kind k)))
    (hm' : r'.member uid' = some m') (hs : (m'.sessions kind').find? k' = some s) :
    ∃ m₀, r.member uid' = some m₀ ∧ (m₀.sessions kind').find? k' = some s := by
  rw [hmember] at hm'
  by_cases huid : uid' = uid
  · subst huid
    rw [Function.update_self, Option.some.injEq] at hm'
    subst hm'
    refine ⟨m, hm, ?_⟩
    by_cases hkind : kind' = kind
    · subst hkind
      simp only [Member.remove, Function.update_self, OrderedMap.find?_erase] at hs
      split at hs
      · cases hs
      · exact hs
    · simp only [Member.remove, Function.update_of_ne hkind] at hs
      exact hs
  · rw [Function.update_of_ne huid] at hm'
    exact ⟨m', hm', hs⟩

theorem Named.effect {a : Option Action} (h : Named libs r) (heffect : Effect libs r a r') :
    Named libs r' := by
  cases heffect with
  | refused => exact h
  | join uid feedback hnew =>
    refine h.shrink (Nat.le_refl _) ?_
    intro uid' m' kind k s hm' hs
    rw [member_setUser] at hm'
    by_cases huid : uid' = uid
    · subst huid
      rw [Function.update_self, Option.some.injEq] at hm'
      subst hm'
      cases kind <;> cases hs
    · rw [Function.update_of_ne huid] at hm'
      exact ⟨m', hm', hs⟩
  | publishFails uid user sdp _ hunseen =>
    refine h.shrink hunseen.made ?_
    intro uid' m' kind k s hm' hs
    exact ⟨m', hunseen.member ▸ hm', hs⟩
  | publish uid user sdp s _ huser hfilled hmember =>
    exact h.add (member_of_find? huser) hfilled hmember
  | unpublish uid user pcid s _ huser hs hmember hsubscribers hannounced hmade =>
    refine h.shrink (Nat.le_of_eq hmade.symm) ?_
    intro uid' m' kind k t hm' ht
    exact find?_of_remove (member_of_find? huser) hmember hm' ht
  | subscribeFails sub _ hunseen =>
    refine h.shrink hunseen.made ?_
    intro uid' m' kind k s hm' hs
    exact ⟨m', hunseen.member ▸ hm', hs⟩
  | subscribe sub info support medias st _ huser hoffer hbind hjoined hmember hsubscribers
      hannounced hmade =>
    exact h.add (member_of_find? huser) (hmade ▸ hjoined.filled) hmember
  | unsubscribe uid user pcid s publishers _ huser hs hmember hsubscribers hannounced hmade =>
    refine h.shrink (Nat.le_of_eq hmade.symm) ?_
    intro uid' m' kind k t hm' ht
    exact find?_of_remove (member_of_find? huser) hmember hm' ht
  | close uid user huser =>
    refine h.shrink (Nat.le_refl _) ?_
    intro uid' m' kind k s hm' hs
    rw [member_removeUser] at hm'
    by_cases huid : uid' = uid
    · subst huid
      rw [Function.update_self] at hm'
      cases hm'
    · rw [Function.update_of_ne huid] at hm'
      exact ⟨m', hm', hs⟩

end Named

/-! ## The destructor of a user -/

section Destruct

variable {m : Subscribers} {p t : Bytes} {x : RtcSubscriber}

theorem entry_destructAll {sessions : List (Bytes × RtcBaseSession)}
    (hproper : ∀ e ∈ sessions, e.2.Proper .send) :
    Subscribers.Entry (sessions.foldl (fun m e => e.2.destruct m) m) p t x ↔
      Subscribers.Entry m p t x ∧ ∀ e ∈ sessions, ∀ mid sub,
        e.2.mid2subscribers.find? mid = some sub → ¬(p = sub.pid ∧ t = sub.sid) := by
  induction sessions generalizing m with
  | nil => simp
  | cons e sessions ih =>
    rw [List.forall_mem_cons] at hproper
    rw [List.foldl_cons, ih hproper.2, hproper.1.entry_destruct, List.forall_mem_cons, and_assoc]

theorem find?_destructAll {sessions : List (Bytes × RtcBaseSession)}
    (hproper : ∀ e ∈ sessions, e.2.Proper .send) :
    (sessions.foldl (fun m e => e.2.destruct m) m).find? p = none ↔ m.find? p = none := by
  induction sessions generalizing m with
  | nil => exact Iff.rfl
  | cons e sessions ih =>
    rw [List.forall_mem_cons] at hproper
    rw [List.foldl_cons, ih hproper.2, hproper.1.find?_destruct]

theorem destructClosed {sessions : List (Bytes × RtcBaseSession)}
    (hproper : ∀ e ∈ sessions, e.2.Proper .recv) :
    (sessions.map fun e => e.2.close).foldl (fun m s => s.destruct m) m = m := by
  induction sessions with
  | nil => rfl
  | cons e sessions ih =>
    rw [List.forall_mem_cons] at hproper
    rw [List.map_cons, List.foldl_cons, hproper.1.destruct_close_recv, ih hproper.2]

variable {libs : RoomLibs} {r : Room} {uid : Bytes} {user : UserInfo}

/-- The publish sessions of a user that leaves tell the room nothing. -/
theorem Named.destruct_eq (h : Named libs r) (huser : r.users.find? uid = some user) :
    user.destruct m = user.subscribeSessions.entries.foldl (fun m e => e.2.destruct m) m := by
  unfold UserInfo.destruct
  exact destructClosed fun e he =>
    h.proper _ _ _ (h.held_publish huser (OrderedMap.find?_eq_some.mpr he)).1

theorem Named.proper_subscribe (h : Named libs r) (huser : r.users.find? uid = some user) :
    ∀ e ∈ user.subscribeSessions.entries, e.2.Proper .send := fun _ he =>
  h.proper _ _ _ (h.held_subscribe huser (OrderedMap.find?_eq_some.mpr he)).1

/-- A user that leaves takes its subscribers with it. -/
theorem Named.entry_destruct (h : Named libs r) (huser : r.users.find? uid = some user) :
    Subscribers.Entry (user.destruct m) p t x ↔ Subscribers.Entry m p t x ∧
      ∀ s, Held r .send uid s → ∀ mid sub, s.mid2subscribers.find? mid = some sub →
        ¬(p = sub.pid ∧ t = sub.sid) := by
  rw [h.destruct_eq huser, entry_destructAll (h.proper_subscribe huser)]
  refine and_congr_right fun _ => ⟨fun hall s hs => ?_, fun hall e he => ?_⟩
  · obtain ⟨m', hm', hfind⟩ := hs
    rw [member_of_find? huser, Option.some.injEq] at hm'
    subst hm'
    exact hall (s.id, s) (OrderedMap.find?_eq_some.mp hfind)
  · exact hall e.2 (h.held_subscribe huser (OrderedMap.find?_eq_some.mpr he)).1

theorem Named.find?_destruct (h : Named libs r) (huser : r.users.find? uid = some user) :
    (user.destruct m).find? p = none ↔ m.find? p = none := by
  rw [h.destruct_eq huser, find?_destructAll (h.proper_subscribe huser)]

end Destruct

/-! ## The subscribers -/

/-- A subscriber of the room is in a subscribe session that is held. -/
def Attached (r : Room) : Prop :=
  ∀ pid sid sub, Subscribers.Entry r.pid2subscribers pid sid sub →
    sub.pid = pid ∧ sub.sid = sid ∧ ∃ uid s mid, Held r .send uid s ∧ s.id = sub.session ∧
      s.mid2subscribers.find? mid = some sub

section Attached

variable {libs : RoomLibs} {r r' : Room}

/-- Subscribers can go, and with them the sessions that have lost all of theirs. -/
theorem Attached.shrink (h : Attached r)
    (hsub : ∀ pid sid sub, Subscribers.Entry r'.pid2subscribers pid sid sub →
      Subscribers.Entry r.pid2subscribers pid sid sub ∧
        ∀ uid s mid, Held r .send uid s → s.mid2subscribers.find? mid = some sub →
          sub.pid = pid → sub.sid = sid → Held r' .send uid s) : Attached r' := by
  intro pid sid sub hentry
  obtain ⟨hold, hkept⟩ := hsub pid sid sub hentry
  obtain ⟨hpid, hsid, uid, s, mid, hheld, hid, hfind⟩ := h pid sid sub hold
  exact ⟨hpid, hsid, uid, s, mid, hkept uid s mid hheld hfind hpid hsid, hid, hfind⟩

theorem Attached.effect {a : Option Action} (hnamed : Named libs r) (h : Attached r)
    (heffect : Effect libs r a r') : Attached r' := by
  cases heffect with
  | refused => exact h
  | join uid feedback hnew =>
    refine h.shrink fun pid sid sub hentry => ⟨hentry, fun uid' s mid hs _ _ _ => ?_⟩
    have hnone : r.member uid = none := by rw [member, hnew, Option.map_none]
    refine (held_join hnone ?_ (member_setUser r uid _)).mpr hs
    intro kind
    cases kind <;> rfl
  | publishFails uid user sdp _ hunseen =>
    refine h.shrink fun pid sid sub hentry => ⟨hunseen.subscribers ▸ hentry, ?_⟩
    intro uid' s mid hs _ _ _
    exact (held_of_member hunseen.member).mpr hs
  | publish uid user sdp s _ huser hfilled hmember hsubscribers =>
    refine h.shrink fun pid sid sub hentry => ⟨hsubscribers ▸ hentry, ?_⟩
    intro uid' t mid ht _ _ _
    have hm := member_of_find? huser
    exact (held_add hm hmember (hnamed.find?_filled hm hfilled)).mpr (.inl ht)
  | unpublish uid user pcid s _ huser hs hmember hsubscribers =>
    refine h.shrink fun pid sid sub hentry => ⟨?_, fun uid' t mid ht _ _ _ => ?_⟩
    · rw [hsubscribers, Subscribers.entry_erasePublishers] at hentry
      have hproper := hnamed.proper _ _ _ (hnamed.held_publish huser hs).1
      rw [hproper.destruct_recv] at hentry
      exact hentry.1
    · refine (held_remove (member_of_find? huser) hmember).mpr ⟨ht, fun hsame => ?_⟩
      cases hsame.1
  | subscribeFails sub _ hunseen =>
    refine h.shrink fun pid sid sub hentry => ⟨hunseen.subscribers ▸ hentry, ?_⟩
    intro uid' s mid hs _ _ _
    exact (held_of_member hunseen.member).mpr hs
  | subscribe sub info support medias st _ huser hoffer hbind hjoined hmember hsubscribers
      hannounced hmade =>
    have hm := member_of_find? huser
    have hheld : ∀ uid' t, Held r' .send uid' t ↔ Held r .send uid' t ∨
        RtcDirection.send = .send ∧ uid' = sub.uid ∧ t = st.session := fun _ _ =>
      held_add hm hmember (hnamed.find?_filled hm hjoined.filled)
    intro pid sid x hentry
    rw [hsubscribers] at hentry
    rcases hjoined.entries pid sid x hentry with hold | ⟨hpid, hsid, mid, hmid⟩
    · obtain ⟨hpid, hsid, uid', t, mid, ht, hid, hfind⟩ := h pid sid x hold
      exact ⟨hpid, hsid, uid', t, mid, (hheld uid' t).mpr (.inl ht), hid, hfind⟩
    · refine ⟨hpid, hsid, sub.uid, st.session, mid, ?_, ?_, hmid⟩
      · exact (hheld _ _).mpr (.inr ⟨rfl, rfl, rfl⟩)
      · exact (hjoined.filled.proper.owner mid x hmid).symm
  | unsubscribe uid user pcid s publishers _ huser hs hmember hsubscribers =>
    obtain ⟨hheld, hid⟩ := hnamed.held_subscribe huser hs
    have hproper := hnamed.proper _ _ _ hheld
    refine h.shrink fun pid sid sub hentry => ?_
    rw [hsubscribers, Subscribers.entry_erasePublishers, hproper.entry_destruct] at hentry
    refine ⟨hentry.1.1, fun uid' t mid ht hfind hpid hsid => ?_⟩
    -- the session that is erased has lost its subscribers
    refine (held_remove (member_of_find? huser) hmember).mpr ⟨ht, ?_⟩
    rintro ⟨-, -, htid⟩
    have hname : pcid ∈ s.names := hid ▸ id_mem_names s
    obtain ⟨-, -, rfl⟩ := hnamed.unique _ _ _ _ _ _ pcid ht hheld (htid ▸ id_mem_names t) hname
    exact hentry.1.2 mid sub hfind ⟨hpid.symm, hsid.symm⟩
  | close uid user huser =>
    refine h.shrink fun pid sid sub hentry => ?_
    have hentry' := (hnamed.entry_destruct huser).mp hentry
    refine ⟨hentry'.1, fun uid' t mid ht hfind hpid hsid => ?_⟩
    refine (held_close (member_removeUser r uid user)).mpr ⟨ht, ?_⟩
    rintro rfl
    exact hentry'.2 t ht mid sub hfind ⟨hpid.symm, hsid.symm⟩

end Attached

/-! ## Runs -/

section Runs

variable {libs : RoomLibs} {roomId : Bytes} {events : List Event} {r : Room}

theorem not_held_init {kind : RtcDirection} {uid : Bytes} {s : RtcBaseSession} :
    ¬Held { roomId } kind uid s := by
  rintro ⟨m, hm, -⟩
  cases hm

theorem named_init : Named libs { roomId } := by
  refine ⟨fun uid m kind k s hm => ?_, fun _ _ _ h => (not_held_init h).elim,
    fun _ _ _ h => (not_held_init h).elim, fun _ _ _ _ _ _ _ h => (not_held_init h).elim⟩
  cases hm

theorem attached_init : Attached { roomId } := by
  rintro pid sid sub ⟨subs, hsubs, -⟩
  cases hsubs

theorem run_attached (hrun : Run.run (step libs) events { roomId } = .ok r) :
    Named libs r ∧ Attached r := by
  refine @Run.run_preserves Room Fault Event (step libs) (fun r => Named libs r ∧ Attached r) ?_
    events _ r ⟨named_init, attached_init⟩ hrun
  intro e s s' h hstep
  have heffect := step_effect hstep
  exact ⟨h.1.effect heffect, h.2.effect h.1 heffect⟩

/-- The sessions that get the packets of a publisher are those of its subscribers. -/
theorem mem_onRtppacketPublisher2room {pid session : Bytes}
    (h : session ∈ r.onRtppacketPublisher2room pid) :
    ∃ sid sub, Subscribers.Entry r.pid2subscribers pid sid sub ∧ sub.session = session := by
  unfold onRtppacketPublisher2room at h
  split at h
  · cases h
  · rename_i subs hsubs
    obtain ⟨⟨sid, sub⟩, he, rfl⟩ := List.mem_map.mp h
    exact ⟨sid, sub, ⟨subs, hsubs, OrderedMap.find?_eq_some.mpr he⟩, rfl⟩

/-- A subscriber of the room belongs to a session that its user holds, and a packet is
forwarded only to such sessions. -/
theorem no_dangling_subscriber (libs : RoomLibs) (roomId : Bytes) (events : List Event) (r : Room)
    (hrun : Run.run (step libs) events { roomId } = .ok r) :
    (∀ pid sid sub, Subscribers.Entry r.pid2subscribers pid sid sub →
      ∃ uid user s mid, r.users.find? uid = some user ∧
        user.subscribeSessions.find? sub.session = some s ∧
        s.mid2subscribers.find? mid = some sub) ∧
    ∀ pid, ∀ session ∈ r.onRtppacketPublisher2room pid,
      ∃ uid user s, r.users.find? uid = some user ∧
        user.subscribeSessions.find? session = some s := by
  obtain ⟨-, hattached⟩ := run_attached hrun
  have hentry : ∀ pid sid sub, Subscribers.Entry r.pid2subscribers pid sid sub →
      ∃ uid user s mid, r.users.find? uid = some user ∧
        user.subscribeSessions.find? sub.session = some s ∧
        s.mid2subscribers.find? mid = some sub := by
    intro pid sid sub h
    obtain ⟨-, -, uid, s, mid, ⟨m, hm, hs⟩, hid, hfind⟩ := hattached pid sid sub h
    obtain ⟨user, huser, rfl⟩ := exists_of_member hm
    exact ⟨uid, user, s, mid, huser, hid ▸ hs, hfind⟩
  refine ⟨hentry, fun pid session hsession => ?_⟩
  obtain ⟨sid, sub, h, rfl⟩ := mem_onRtppacketPublisher2room hsession
  obtain ⟨uid, user, s, mid, huser, hs, -⟩ := hentry pid sid sub h
  exact ⟨uid, user, s, huser, hs⟩

end Runs

/-! ## A room with a publisher and a subscriber -/

/-- An offer of one audio stream, line by line. -/
def sampleSdp : Bytes :=
  ["v=0", "m=audio 9 RTP 111", "c=IN IP4 0.0.0.0", "a=rtcp:9 IN IP4 0.0.0.0", "a=ice-ufrag:u",
    "a=ice-pwd:p", "a=ice-options:o", "a=fingerprint:sha-256 AA", "a=setup:actpass", "a=mid:0",
    "a=extmap:4 urn:x", "a=sendonly", "a=rtcp-mux", "a=rtpmap:111 opus/48000",
    "a=fmtp:111 minptime=10;useinbandfec=1", "a=ssrc:7 cname:x"].flatMap
    fun line => ascii line ++ [13, 10]

/-- A JSON object from its keys and values. -/
def object (fields : List (String × Json)) : Json := .obj (fields.map fun e => (ascii e.1, e.2))

/-- A JSON string. -/
def textJson (text : String) : Json := .str (ascii text)

/-- What the SDP library reads from the media section of the offer. -/
def sampleMedia : Json := object [
  ("connection", object [("ip", textJson "0.0.0.0"), ("version", .num 4)]),
  ("direction", textJson "sendonly"),
  ("ext", .arr [object [("uri", textJson "urn:x"), ("value", .num 4)]]),
  ("fingerprint", object [("hash", textJson "AA"), ("type", textJson "sha-256")]),
  ("fmtp", .arr [object [("config", textJson "minptime=10;useinbandfec=1"),
    ("payload", .num 111)]]),
  ("iceOptions", textJson "o"), ("icePwd", textJson "p"), ("iceUfrag", textJson "u"),
  ("mid", textJson "0"), ("payloads", textJson "111"), ("port", .num 9),
  ("protocol", textJson "RTP"),
  ("rtcp", object [("address", textJson "0.0.0.0"), ("ipVer", .num 4), ("netType", textJson "IN"),
    ("port", .num 9)]),
  ("rtcpMux", textJson "rtcp-mux"),
  ("rtp", .arr [object [("codec", textJson "opus"), ("payload", .num 111), ("rate", .num 48000)]]),
  ("setup", textJson "actpass"),
  ("ssrcs", .arr [object [("attribute", textJson "cname"), ("id", .num 7),
    ("value", textJson "x")]]),
  ("type", textJson "audio")]

/-- Libraries that know the offer. -/
def sampleLibs : RoomLibs where
  sdpParse text :=
    if text = sampleSdp then some (object [("media", .arr [sampleMedia]), ("version", .num 0)])
    else none
  dumps _ := true
  rtcMediaInfo2Sdp _ := some (ascii "v=0")
  getLocalFingerPrint type := if type = ascii "sha-256" then some (ascii "BB") else none
  iceOf _ := (ascii "pwd", ascii "ufrag")
  dtlsMade _ := true
  candidateIp := ascii "127.0.0.1"
  candidatePort := 8000
  uuid n := List.replicate n 102 ++ ascii "0123456789abcdef"
  uuidInjective m n h := by
    simpa using congrArg List.length h

/-- The data of a request to join. -/
def joinData (uid : String) : Json :=
  object [("roomId", textJson "room"), ("uid", textJson uid)]

/-- `uid` joins. -/
def joinOf (uid : String) (feedback : Connection) : Event :=
  .request (ascii "1") (ascii "join") (joinData uid) feedback

/-- `uid` publishes with the sample offer. -/
def publishOf (uid : String) (feedback : Connection) : Event :=
  .request (ascii "2") (ascii "publish")
    (object [("sdp", .str sampleSdp), ("uid", textJson uid)]) feedback

/-- The list by which a request names a publisher. -/
def publisherList (pid : Nat) : Json := .arr [object [("mid", .num 0),
  ("pid", .str (sampleLibs.uuid pid)), ("ssrc", .num 7), ("type", textJson "audio")]]

/-- The data of a request to subscribe to `pid`, which `remoteUid` publishes. -/
def subscribeData (uid remoteUid : String) (pcid pid : Nat) : Json :=
  object [("publishers", publisherList pid), ("remotePcId", .str (sampleLibs.uuid pcid)),
    ("remoteUid", textJson remoteUid), ("sdp", .str sampleSdp), ("uid", textJson uid)]

/-- `uid` subscribes to `pid`, which `remoteUid` publishes. -/
def subscribeOf (uid remoteUid : String) (pcid pid : Nat) (feedback : Connection) : Event :=
  .request (ascii "3") (ascii "subscribe") (subscribeData uid remoteUid pcid pid) feedback

/-- `a` publishes, and `b` subscribes to that. -/
def sampleEvents : List Event :=
  [joinOf "a" 1, joinOf "b" 2, publishOf "a" 1, subscribeOf "b" "a" 0 1 2]

/-- The packets of `a` go to the session of `b`, and `b` holds it. -/
theorem no_dangling_subscriber_forwarded :
    ∃ r, Run.run (step sampleLibs) sampleEvents { roomId := ascii "room" } = .ok r ∧
      sampleLibs.uuid 2 ∈ r.onRtppacketPublisher2room (sampleLibs.uuid 1) ∧
      ∃ uid user s, r.users.find? uid = some user ∧
        user.subscribeSessions.find? (sampleLibs.uuid 2) = some s := by
  obtain ⟨r, hrun, hforward⟩ := Run.exists_of_map_toOption
    (x := Run.run (step sampleLibs) sampleEvents { roomId := ascii "room" })
    (f := fun r => r.onRtppacketPublisher2room (sampleLibs.uuid 1)) (b := [sampleLibs.uuid 2])
    (by decide +kernel)
  have hmem : sampleLibs.uuid 2 ∈ r.onRtppacketPublisher2room (sampleLibs.uuid 1) := by
    rw [hforward]
    exact List.mem_singleton_self _
  have hheld := (no_dangling_subscriber sampleLibs (ascii "room") sampleEvents r hrun).2
  exact ⟨r, hrun, hmem, hheld _ _ hmem⟩

end Room

end MediaServer
