import MediaServer.Webrtc.LivePublishers

/-!
# What a new user is told

The users that are in the room when a session publishes are told by
`notify_publisher_to_others`, with the id of that session.  A user that joins later is told by
`notify_others_publisher_to_me`: one message for each other user, with the publishers of all
its sessions and the id of only one of them.

`Announced` ties what was told to what is held: the publishers that the sessions list are
those that were announced and are still there.  `late_joiner_iff` compares this with what the
new user hears.
-/

namespace MediaServer

/-- The publishers that a message announces. -/
def ProtooMessage.told : ProtooMessage → List Announcement
  | .notification "publish" data =>
    match data.textAt "uid", data.textAt "pcid", data.itemsAt "publishers" with
    | some uid, some pcid, some items =>
      (items.filterMap fun item => item.textAt "pid").map fun pid => (uid, pcid, pid)
    | _, _, _ => []
  | _ => []

/-- The publishers that are announced over a connection. -/
def heard (c : Connection) (sent : List (Connection × ProtooMessage)) : List Announcement :=
  (sent.filter fun m => m.1 = c).flatMap fun m => m.2.told

namespace Room

open RtcBaseSession

/-! ## What was announced -/

/-- What was told of the publishers that are held. -/
structure Announced (libs : RoomLibs) (r : Room) : Prop where
  told : ∀ uid s, Held r .recv uid s → ∀ info ∈ s.getPublishsInformation,
    (uid, s.id, info.pid) ∈ r.announced
  held : ∀ uid pcid pid, (uid, pcid, pid) ∈ r.announced → Published r pid →
    ∃ s, Held r .recv uid s ∧ s.id = pcid ∧ ∃ info ∈ s.getPublishsInformation, info.pid = pid
  made : ∀ uid pcid pid, (uid, pcid, pid) ∈ r.announced → ∃ n < r.made, pid = libs.uuid n

section Announced

variable {libs : RoomLibs} {r r' : Room}

/-- A publisher that a session lists is one that it holds. -/
theorem find?_of_listed {s : RtcBaseSession} (h : s.Proper .recv) {info : PublisherInfo}
    (hinfo : info ∈ s.getPublishsInformation) : ∃ p, s.pid2publishers.find? info.pid = some p := by
  unfold getPublishsInformation at hinfo
  obtain ⟨e, he, rfl⟩ := List.mem_map.mp hinfo
  have hentry := (List.mem_filter.mp he).1
  exact ⟨e.2, h.listed e.1 e.2 (OrderedMap.find?_eq_some.mpr hentry)⟩

/-- Publish sessions can go. -/
theorem Announced.shrink (h : Announced libs r) (hnamed : Named libs r) (hnamed' : Named libs r')
    (hannounced : r'.announced = r.announced) (hmade : r.made ≤ r'.made)
    (hheld : ∀ uid s, Held r' .recv uid s → Held r .recv uid s) : Announced libs r' := by
  refine ⟨fun uid s hs info hinfo => ?_, fun uid pcid pid ht hpid => ?_, fun uid pcid pid ht => ?_⟩
  · rw [hannounced]
    exact h.told uid s (hheld uid s hs) info hinfo
  · rw [hannounced] at ht
    obtain ⟨uid', s', p, hs', hp⟩ := (published_iff hnamed').mp hpid
    have hpid' : Published r pid := (published_iff hnamed).mpr ⟨uid', s', p, hheld uid' s' hs', hp⟩
    obtain ⟨s, hs, hid, info, hinfo, rfl⟩ := h.held uid pcid pid ht hpid'
    -- the session that holds the publisher now is the one that announced it
    obtain ⟨q, hq⟩ := find?_of_listed (hnamed.proper _ _ _ hs) hinfo
    obtain ⟨-, rfl, rfl⟩ := hnamed.unique _ _ _ _ _ _ info.pid hs (hheld uid' s' hs')
      (pid_mem_names hq) (pid_mem_names hp)
    exact ⟨s, hs', hid, info, hinfo, rfl⟩
  · rw [hannounced] at ht
    obtain ⟨n, hn, heq⟩ := h.made uid pcid pid ht
    exact ⟨n, Nat.lt_of_lt_of_le hn hmade, heq⟩

/-- A session can come, when it is announced. -/
theorem Announced.add (h : Announced libs r) (hnamed : Named libs r) (hnamed' : Named libs r')
    {uid : Bytes} {m : Member} {s : RtcBaseSession} (hm : r.member uid = some m)
    (hfilled : Filled libs.uuid r.made .recv s r'.made)
    (hmember : r'.member = Function.update r.member uid (some (m.add .recv s)))
    (hannounced : r'.announced = r.announced ++ announcements uid s.id s.getPublishsInformation) :
    Announced libs r' := by
  have hheld : ∀ uid' s', Held r' .recv uid' s' ↔
      Held r .recv uid' s' ∨ RtcDirection.recv = .recv ∧ uid' = uid ∧ s' = s := fun _ _ =>
    held_add hm hmember (hnamed.find?_filled hm hfilled)
  have hnew : Held r' .recv uid s := (hheld uid s).mpr (.inr ⟨rfl, rfl, rfl⟩)
  have hmem : ∀ t, t ∈ r'.announced ↔ t ∈ r.announced ∨
      ∃ info ∈ s.getPublishsInformation, (uid, s.id, info.pid) = t := by
    intro t
    rw [hannounced, List.mem_append, announcements, List.mem_map]
  refine ⟨fun uid' s' hs' info hinfo => ?_, fun uid' pcid pid ht hpid => ?_,
    fun uid' pcid pid ht => ?_⟩
  · rw [hmem]
    rcases (hheld uid' s').mp hs' with hold | ⟨-, rfl, rfl⟩
    · exact .inl (h.told uid' s' hold info hinfo)
    · exact .inr ⟨info, hinfo, rfl⟩
  · rcases (hmem _).mp ht with hold | ⟨info, hinfo, heq⟩
    · obtain ⟨uid'', s'', p, hs'', hp⟩ := (published_iff hnamed').mp hpid
      rcases (hheld uid'' s'').mp hs'' with hs'' | ⟨-, rfl, rfl⟩
      · obtain ⟨t, ht', hrest⟩ :=
          h.held uid' pcid pid hold ((published_iff hnamed).mpr ⟨uid'', s'', p, hs'', hp⟩)
        exact ⟨t, (hheld uid' t).mpr (.inl ht'), hrest⟩
      · -- the id was made before the session
        obtain ⟨n, hn, heq⟩ := h.made uid' pcid pid hold
        obtain ⟨n', hn', -, heq'⟩ := hfilled.fresh pid (pid_mem_names hp)
        have hsame := libs.uuidInjective n n' (heq.symm.trans heq')
        omega
    · cases heq
      exact ⟨s, hnew, rfl, info, hinfo, rfl⟩
  · rcases (hmem _).mp ht with hold | ⟨info, hinfo, heq⟩
    · obtain ⟨n, hn, heq⟩ := h.made uid' pcid pid hold
      exact ⟨n, Nat.lt_of_lt_of_le hn hfilled.started, heq⟩
    · cases heq
      obtain ⟨p, hp⟩ := find?_of_listed hfilled.proper hinfo
      obtain ⟨n, -, hn, heq⟩ := hfilled.fresh _ (pid_mem_names hp)
      exact ⟨n, hn, heq⟩

theorem Announced.effect {a : Option Action} (h : Announced libs r) (hnamed : Named libs r)
    (hnamed' : Named libs r') (heffect : Effect libs r a r') : Announced libs r' := by
  cases heffect with
  | refused => exact h
  | join uid feedback hnew =>
    refine h.shrink hnamed hnamed' rfl (Nat.le_refl _) fun uid' s hs => ?_
    have hnone : r.member uid = none := by rw [member, hnew, Option.map_none]
    refine (held_join hnone ?_ (member_setUser r uid _)).mp hs
    intro kind
    cases kind <;> rfl
  | publishFails uid user sdp _ hunseen =>
    exact h.shrink hnamed hnamed' hunseen.announced hunseen.made fun uid' s hs =>
      (held_of_member hunseen.member).mp hs
  | publish uid user sdp s _ huser hfilled hmember hsubscribers hannounced =>
    exact h.add hnamed hnamed' (member_of_find? huser) hfilled hmember hannounced
  | unpublish uid user pcid s _ huser hs hmember hsubscribers hannounced hmade =>
    exact h.shrink hnamed hnamed' hannounced hmade.ge fun uid' s' hs' =>
      ((held_remove (member_of_find? huser) hmember).mp hs').1
  | subscribeFails sub _ hunseen =>
    exact h.shrink hnamed hnamed' hunseen.announced hunseen.made fun uid' s hs =>
      (held_of_member hunseen.member).mp hs
  | subscribe sub info support medias st _ huser hoffer hbind hjoined hmember hsubscribers
      hannounced hmade =>
    have hm := member_of_find? huser
    refine h.shrink hnamed hnamed' hannounced (hmade ▸ hjoined.filled.started) fun uid' s hs => ?_
    rcases (held_add hm hmember (hnamed.find?_filled hm hjoined.filled)).mp hs with hs | ⟨hkind, -⟩
    · exact hs
    · cases hkind
  | unsubscribe uid user pcid s publishers _ huser hs hmember hsubscribers hannounced hmade =>
    exact h.shrink hnamed hnamed' hannounced hmade.ge fun uid' s' hs' =>
      ((held_remove (member_of_find? huser) hmember).mp hs').1
  | close uid user huser =>
    exact h.shrink hnamed hnamed' rfl (Nat.le_refl _) fun uid' s hs =>
      ((held_close (member_removeUser r uid user)).mp hs).1

theorem announced_init {roomId : Bytes} : Announced libs { roomId } := by
  refine ⟨fun uid s hs => (not_held_init hs).elim, fun uid pcid pid ht => ?_,
    fun uid pcid pid ht => ?_⟩
  · cases ht
  · cases ht

theorem run_announced {roomId : Bytes} {events : List Event}
    (hrun : Run.run (step libs) events { roomId } = .ok r) : Named libs r ∧ Announced libs r := by
  refine @Run.run_preserves Room Fault Event (step libs) (fun r => Named libs r ∧ Announced libs r)
    ?_ events _ r ⟨named_init, announced_init⟩ hrun
  intro e s s' h hstep
  have heffect := step_effect hstep
  exact ⟨h.1.effect heffect, h.2.effect h.1 (h.1.effect heffect) heffect⟩

end Announced

/-! ## What is heard -/

section Heard

variable {libs : RoomLibs} {r : Room} {uid : Bytes} {user : UserInfo}

theorem told_publishJson (uid pcid : Bytes) (infos : List PublisherInfo) :
    (ProtooMessage.notification "publish" (publishJson uid pcid infos)).told =
      announcements uid pcid infos := by
  have hpid : (fun item : Json => item.textAt "pid") ∘ publisherJson =
      fun info => some info.pid := by
    funext info
    rfl
  have hfields : (publishJson uid pcid infos).textAt "uid" = some uid ∧
      (publishJson uid pcid infos).textAt "pcid" = some pcid ∧
      (publishJson uid pcid infos).itemsAt "publishers" = some (infos.map publisherJson) :=
    ⟨rfl, rfl, rfl⟩
  simp only [ProtooMessage.told, hfields, List.filterMap_map, hpid, announcements]
  simp

/-- The session whose id stands for all: it is one that lists something. -/
theorem publishersOf_spec (entries : List (Bytes × RtcBaseSession))
    (acc : List PublisherInfo × Bytes) :
    let result := entries.foldl (fun acc e =>
      match e.2.getPublishsInformation with
      | [] => acc
      | infos => (acc.1 ++ infos, e.2.id)) acc
    result.1 = acc.1 ++ entries.flatMap (fun e => e.2.getPublishsInformation) ∧
      ((∃ e ∈ entries, e.2.getPublishsInformation ≠ [] ∧ e.2.id = result.2) ∨
        (∀ e ∈ entries, e.2.getPublishsInformation = []) ∧ result.2 = acc.2) := by
  induction entries generalizing acc with
  | nil => simp
  | cons e entries ih =>
    simp only [List.foldl_cons, List.flatMap_cons, List.exists_mem_cons_iff, List.forall_mem_cons]
    rcases hinfos : e.2.getPublishsInformation with - | ⟨info, infos⟩
    · simpa [hinfos] using ih acc
    · obtain ⟨hlist, hid⟩ := ih (acc.1 ++ info :: infos, e.2.id)
      refine ⟨by rw [hlist, List.append_assoc], .inl ?_⟩
      rcases hid with hlater | ⟨-, hlast⟩
      · exact .inr hlater
      · exact .inl ⟨by simp, hlast.symm⟩

theorem mem_publishersOf {info : PublisherInfo} :
    info ∈ (publishersOf user).1 ↔
      ∃ k s, user.publishSessions.find? k = some s ∧ info ∈ s.getPublishsInformation := by
  have hspec : (publishersOf user).1 =
      [] ++ user.publishSessions.entries.flatMap fun e => e.2.getPublishsInformation :=
    (publishersOf_spec user.publishSessions.entries ([], [])).1
  rw [hspec, List.nil_append, List.mem_flatMap]
  constructor
  · rintro ⟨e, he, hinfo⟩
    exact ⟨e.1, e.2, OrderedMap.find?_eq_some.mpr he, hinfo⟩
  · rintro ⟨k, s, hs, hinfo⟩
    exact ⟨(k, s), OrderedMap.find?_eq_some.mp hs, hinfo⟩

theorem publishersOf_pcid {info : PublisherInfo} (h : info ∈ (publishersOf user).1) :
    ∃ k s, user.publishSessions.find? k = some s ∧ s.getPublishsInformation ≠ [] ∧
      s.id = (publishersOf user).2 := by
  obtain ⟨k, s, hs, hinfo⟩ := mem_publishersOf.mp h
  rcases (publishersOf_spec user.publishSessions.entries ([], [])).2 with
    ⟨e, he, hlists, hid⟩ | ⟨hnone, -⟩
  · exact ⟨e.1, e.2, OrderedMap.find?_eq_some.mpr he, hlists, hid⟩
  · rw [hnone (k, s) (OrderedMap.find?_eq_some.mp hs)] at hinfo
    cases hinfo

theorem heard_append (c : Connection) (sent sent' : List (Connection × ProtooMessage)) :
    heard c (sent ++ sent') = heard c sent ++ heard c sent' := by
  simp [heard]

/-- Nothing is announced by the other messages of a join request. -/
theorem heard_eq_nil {c : Connection} {sent : List (Connection × ProtooMessage)}
    (h : ∀ m ∈ sent, m.2.told = []) : heard c sent = [] := by
  rw [heard, List.flatMap_eq_nil_iff]
  intro m hm
  exact h m (List.mem_filter.mp hm).1

theorem mem_heard_others {me : Connection} {t : Announcement} :
    t ∈ heard me (r.notifyOthersPublisherToMe uid me) ↔
      ∃ user, t.1 ≠ uid ∧ r.users.find? t.1 = some user ∧ t.2.1 = (publishersOf user).2 ∧
        ∃ info ∈ (publishersOf user).1, info.pid = t.2.2 := by
  simp only [heard, notifyOthersPublisherToMe, List.mem_flatMap, List.mem_filter,
    List.mem_filterMap]
  constructor
  · rintro ⟨m, ⟨⟨e, ⟨he, hne⟩, hm⟩, -⟩, ht⟩
    split at hm
    · cases hm
    · rename_i infos pcid _ hpublishers
      cases hm
      rw [told_publishJson] at ht
      obtain ⟨info, hinfo, rfl⟩ := List.mem_map.mp ht
      exact ⟨e.2, by simpa using hne, OrderedMap.find?_eq_some.mpr he, by rw [hpublishers],
        info, by rw [hpublishers]; exact hinfo, rfl⟩
  · rintro ⟨user, hne, huser, hpcid, info, hinfo, hpid⟩
    have hother : decide ((t.1, user).1 ≠ uid) = true := by simpa using hne
    refine ⟨(me, .notification "publish" (publishJson t.1 (publishersOf user).2
      (publishersOf user).1)),
      ⟨⟨(t.1, user), ⟨OrderedMap.find?_eq_some.mp huser, hother⟩, ?_⟩, by simp⟩, ?_⟩
    · split
      · rename_i hpublishers
        rw [hpublishers] at hinfo
        cases hinfo
      · rename_i hpublishers
        rw [hpublishers]
    · rw [told_publishJson]
      refine List.mem_map.mpr ⟨info, hinfo, ?_⟩
      rw [hpid, ← hpcid]

/-- What a user hears that joins. -/
theorem mem_heard_join {id : Bytes} {data : Json} {feedback : Connection} {t : Announcement}
    (hjoin : r.checkJoin data = .ok uid) :
    t ∈ heard feedback (handleJoin id data feedback r).sent ↔
      ∃ user, r.users.find? t.1 = some user ∧ t.2.1 = (publishersOf user).2 ∧
        ∃ info ∈ (publishersOf user).1, info.pid = t.2.2 := by
  have hnew := (checkJoin_ok hjoin).2.2
  simp only [handleJoin, hjoin, heard_append]
  rw [heard_eq_nil, heard_eq_nil, List.nil_append, List.nil_append, mem_heard_others]
  · refine exists_congr fun user => ?_
    by_cases huid : t.1 = uid
    · simp [huid, hnew]
    · simp [huid, setUser, OrderedMap.find?_assign_of_ne huid]
  · intro m hm
    rw [List.mem_singleton.mp hm]
    rfl
  · intro m hm
    obtain ⟨user, -, rfl⟩ := List.mem_map.mp hm
    rfl

end Heard

/-- Of the publish sessions of a user only one lists publishers. -/
def OnePublishing (user : UserInfo) : Prop :=
  ∀ e ∈ user.publishSessions.entries, ∀ e' ∈ user.publishSessions.entries,
    e.2.getPublishsInformation ≠ [] → e'.2.getPublishsInformation ≠ [] → e.1 = e'.1

instance decidableOnePublishing (user : UserInfo) : Decidable (OnePublishing user) :=
  inferInstanceAs (Decidable (∀ e ∈ user.publishSessions.entries,
    ∀ e' ∈ user.publishSessions.entries,
      e.2.getPublishsInformation ≠ [] → e'.2.getPublishsInformation ≠ [] → e.1 = e'.1))

/-- The session of the user holds the publisher. -/
def Owns (r : Room) (t : Announcement) : Prop :=
  ∃ user s p, r.users.find? t.1 = some user ∧ user.publishSessions.find? t.2.1 = some s ∧
    s.pid2publishers.find? t.2.2 = some p

/-- **Late joiners see what early joiners saw**, if and only if each user has at most one
session that lists publishers. -/
theorem late_joiner_iff (libs : RoomLibs) (roomId : Bytes) (events : List Event) (r : Room)
    (hrun : Run.run (step libs) events { roomId } = .ok r) (id uid : Bytes) (data : Json)
    (feedback : Connection) (hjoin : r.checkJoin data = .ok uid) :
    ({t | t ∈ heard feedback (handleJoin id data feedback r).sent} =
        {t | t ∈ r.announced ∧ Published r t.2.2} ∧
      ∀ t ∈ heard feedback (handleJoin id data feedback r).sent, Owns r t) ↔
      ∀ e ∈ r.users.entries, OnePublishing e.2 := by
  obtain ⟨hnamed, hannounced⟩ := run_announced hrun
  have hmem := fun t => @mem_heard_join r uid id data feedback t hjoin
  constructor
  · rintro ⟨hsame, -⟩ ⟨uid', user⟩ hentry
    have huser := OrderedMap.find?_eq_some.mpr hentry
    -- the id in the message is that of every session that lists something
    have hid : ∀ k s, user.publishSessions.find? k = some s → s.getPublishsInformation ≠ [] →
        k = (publishersOf user).2 := by
      intro k s hs hlists
      obtain ⟨hheld, hk⟩ := hnamed.held_publish huser hs
      obtain ⟨info, hinfo⟩ := List.exists_mem_of_ne_nil _ hlists
      obtain ⟨p, hp⟩ := find?_of_listed (hnamed.proper _ _ _ hheld) hinfo
      have htold : (uid', s.id, info.pid) ∈
          {t | t ∈ heard feedback (handleJoin id data feedback r).sent} := by
        rw [hsame]
        exact ⟨hannounced.told uid' s hheld info hinfo, uid', user, k, s, p, huser, hs, hp⟩
      obtain ⟨user', huser', hpcid, -⟩ := (hmem _).mp htold
      rw [huser, Option.some.injEq] at huser'
      rw [hk, huser', ← hpcid]
    intro e he e' he' hlists hlists'
    rw [hid e.1 e.2 (OrderedMap.find?_eq_some.mpr he) hlists,
      hid e'.1 e'.2 (OrderedMap.find?_eq_some.mpr he') hlists']
  · intro hall
    have hone : ∀ uid user k s k' s', r.users.find? uid = some user →
        user.publishSessions.find? k = some s → user.publishSessions.find? k' = some s' →
        s.getPublishsInformation ≠ [] → s'.getPublishsInformation ≠ [] → k = k' :=
      fun uid user k s k' s' huser hs hs' => hall (uid, user) (OrderedMap.find?_eq_some.mp huser)
        (k, s) (OrderedMap.find?_eq_some.mp hs) (k', s') (OrderedMap.find?_eq_some.mp hs')
    have hheard : ∀ t, t ∈ heard feedback (handleJoin id data feedback r).sent →
        t ∈ r.announced ∧ Owns r t := by
      rintro ⟨uid', pcid, pid⟩ ht
      obtain ⟨user, huser, hpcid, info, hinfo, hpid⟩ := (hmem _).mp ht
      obtain ⟨k, s, hs, hinfo'⟩ := mem_publishersOf.mp hinfo
      obtain ⟨k', s', hs', hlists', hid'⟩ := publishersOf_pcid hinfo
      have hk := hone uid' user k s k' s' huser hs hs' (List.ne_nil_of_mem hinfo') hlists'
      obtain ⟨hheld, hid⟩ := hnamed.held_publish huser hs
      obtain ⟨hheld', hid''⟩ := hnamed.held_publish huser hs'
      obtain ⟨p, hp⟩ := find?_of_listed (hnamed.proper _ _ _ hheld) hinfo'
      simp only at hpcid hpid
      subst hpid
      have hsession : pcid = s.id := by rw [hpcid, ← hid', ← hid'', ← hk, hid]
      subst hsession
      exact ⟨hannounced.told uid' s hheld info hinfo', user, s, p, huser, hid ▸ hs, hp⟩
    refine ⟨Set.ext fun t => ⟨fun ht => ?_, fun ht => ?_⟩, fun t ht => (hheard t ht).2⟩
    · obtain ⟨htold, user, s, p, huser, hs, hp⟩ := hheard t ht
      exact ⟨htold, t.1, user, t.2.1, s, p, huser, hs, hp⟩
    · obtain ⟨uid', pcid, pid⟩ := t
      obtain ⟨s, ⟨m, hm, hs⟩, rfl, info, hinfo, rfl⟩ := hannounced.held uid' pcid pid ht.1 ht.2
      obtain ⟨user, huser, rfl⟩ := exists_of_member hm
      have hlisted : info ∈ (publishersOf user).1 := mem_publishersOf.mpr ⟨s.id, s, hs, hinfo⟩
      obtain ⟨k', s', hs', hlists', hid'⟩ := publishersOf_pcid hlisted
      have hk := hone uid' user s.id s k' s' huser hs hs' (List.ne_nil_of_mem hinfo) hlists'
      have hid'' := (hnamed.held_publish huser hs').2
      exact (hmem _).mpr ⟨user, huser, by rw [← hid', ← hid'', ← hk], info, hlisted, rfl⟩

/-- The publisher of the first offer of `a`. -/
def firstOfA : Announcement := (ascii "a", sampleLibs.uuid 0, sampleLibs.uuid 1)

/-- `b` is told of the one session of `a`. -/
theorem late_joiner_one_session :
    ∃ r, Run.run (step sampleLibs) [joinOf "a" 1, publishOf "a" 1] { roomId := ascii "room" } =
        .ok r ∧ firstOfA ∈ heard 2 (handleJoin (ascii "1") (joinData "b") 2 r).sent ∧
      {t | t ∈ heard 2 (handleJoin (ascii "1") (joinData "b") 2 r).sent} =
        {t | t ∈ r.announced ∧ Published r t.2.2} := by
  obtain ⟨r, hrun, hr⟩ := Run.exists_of_map_toOption (x := Run.run (step sampleLibs)
      [joinOf "a" 1, publishOf "a" 1] { roomId := ascii "room" })
    (f := fun r => ((r.checkJoin (joinData "b")).toOption,
      decide (firstOfA ∈ heard 2 (handleJoin (ascii "1") (joinData "b") 2 r).sent),
      decide (∀ e ∈ r.users.entries, OnePublishing e.2)))
    (b := (some (ascii "b"), true, true)) (by decide +kernel)
  simp only [Prod.mk.injEq, decide_eq_true_eq] at hr
  obtain ⟨hjoin, hheard, hone⟩ := hr
  exact ⟨r, hrun, hheard, ((late_joiner_iff sampleLibs (ascii "room") _ r hrun (ascii "1")
    (ascii "b") (joinData "b") 2 (Run.eq_ok_of_toOption hjoin)).mpr hone).1⟩

/-- `a` has published twice.  `b` is told of both publishers with the id of one session. -/
theorem not_late_joiner_two_sessions :
    ¬∀ (events : List Event) (r : Room),
      Run.run (step sampleLibs) events { roomId := ascii "room" } = .ok r →
      ∀ id uid data feedback, r.checkJoin data = .ok uid →
        {t | t ∈ heard feedback (handleJoin id data feedback r).sent} =
          {t | t ∈ r.announced ∧ Published r t.2.2} := by
  intro h
  obtain ⟨r, hrun, hr⟩ := Run.exists_of_map_toOption (x := Run.run (step sampleLibs)
      [joinOf "a" 1, publishOf "a" 1, publishOf "a" 1] { roomId := ascii "room" })
    (f := fun r => ((r.checkJoin (joinData "b")).toOption,
      decide (firstOfA ∈ heard 2 (handleJoin (ascii "1") (joinData "b") 2 r).sent),
      decide (firstOfA ∈ r.announced),
      (((r.users.find? firstOfA.1).bind fun user => user.publishSessions.find? firstOfA.2.1).bind
        fun s => s.pid2publishers.find? firstOfA.2.2).isSome))
    (b := (some (ascii "b"), false, true, true)) (by decide +kernel)
  simp only [Prod.mk.injEq, decide_eq_true_eq, decide_eq_false_iff_not] at hr
  obtain ⟨hjoin, hheard, hannounced, hheld⟩ := hr
  have hpublished : Published r firstOfA.2.2 := by
    obtain ⟨p, hp⟩ := Option.isSome_iff_exists.mp hheld
    obtain ⟨s, hs, hp⟩ := Option.bind_eq_some_iff.mp hp
    obtain ⟨user, huser, hs⟩ := Option.bind_eq_some_iff.mp hs
    exact ⟨firstOfA.1, user, firstOfA.2.1, s, p, huser, hs, hp⟩
  have hsame := h _ r hrun (ascii "1") (ascii "b") (joinData "b") 2 (Run.eq_ok_of_toOption hjoin)
  have hmem : firstOfA ∈ {t | t ∈ r.announced ∧ Published r t.2.2} := ⟨hannounced, hpublished⟩
  rw [← hsame] at hmem
  exact hheard hmem

end Room

end MediaServer
