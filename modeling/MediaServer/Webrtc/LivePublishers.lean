import MediaServer.Lib.RelatedLists
import MediaServer.Webrtc.RoomInvariant

/-!
# Subscriptions and live publishers

The keys of `pid2subscribers_` should be publishers that someone holds.  Publishers go in
two ways.  `handle_unpublish` erases the keys of the publishers that the session lists, and
a publisher is not listed when its RTP stream is not among the lines of its section.  A user
that leaves erases no key at all: `close_session` empties the maps of the session before the
destructor that would tell the room.

`subscriptions_live_iff` says that these are the only ways: every key is a live publisher in
every state of a run if and only if no step of it removes a publisher whose key stays.
-/

namespace MediaServer

namespace Room

open RtcBaseSession

/-- The publisher is held by a publish session of a user. -/
def Published (r : Room) (pid : Bytes) : Prop :=
  ∃ uid user k s p, r.users.find? uid = some user ∧ user.publishSessions.find? k = some s ∧
    s.pid2publishers.find? pid = some p

/-- Every key of `pid2subscribers_` is a publisher that is held. -/
def KeysPublished (r : Room) : Prop :=
  ∀ pid ∈ r.pid2subscribers.keys, Published r pid

/-- Every media section of a subscribe request has a publisher in its list that exists. -/
def NamesPublishers (libs : RoomLibs) : Option Action → Prop
  | some (.subscribe sub) => ∀ offer ∈ offerOf libs sub, ∀ media ∈ offer.2.medias,
      ∃ info ∈ sub.publishers,
        info.mediaType = media.mediaType ∧ (sub.remoteSession.getPublisher info.mid).isSome
  | _ => True

/-- A publisher that is removed has no key, or its session lists it while it unpublishes. -/
def Clears (a : Option Action) (r : Room) : Prop :=
  match a with
  | some (.unpublish _ _ _ s) => ∀ pid ∈ s.pid2publishers.keys, pid ∈ r.pid2subscribers.keys →
      ∃ info ∈ s.getPublishsInformation, info.pid = pid
  | some (.close _ user) => ∀ e ∈ user.publishSessions.entries, ∀ pid ∈ e.2.pid2publishers.keys,
      pid ∉ r.pid2subscribers.keys
  | _ => True

instance decidableNamesPublishers (libs : RoomLibs) :
    (a : Option Action) → Decidable (NamesPublishers libs a)
  | none => .isTrue trivial
  | some (.join _ _) => .isTrue trivial
  | some (.publish _ _ _) => .isTrue trivial
  | some (.unpublish _ _ _ _) => .isTrue trivial
  | some (.unsubscribe _ _ _ _ _) => .isTrue trivial
  | some (.close _ _) => .isTrue trivial
  | some (.subscribe sub) => inferInstanceAs (Decidable (∀ offer ∈ offerOf libs sub,
      ∀ media ∈ offer.2.medias, ∃ info ∈ sub.publishers,
        info.mediaType = media.mediaType ∧ (sub.remoteSession.getPublisher info.mid).isSome))

instance decidableClears (r : Room) : (a : Option Action) → Decidable (Clears a r)
  | none => .isTrue trivial
  | some (.join _ _) => .isTrue trivial
  | some (.publish _ _ _) => .isTrue trivial
  | some (.subscribe _) => .isTrue trivial
  | some (.unsubscribe _ _ _ _ _) => .isTrue trivial
  | some (.unpublish _ _ _ s) => inferInstanceAs (Decidable (∀ pid ∈ s.pid2publishers.keys,
      pid ∈ r.pid2subscribers.keys → ∃ info ∈ s.getPublishsInformation, info.pid = pid))
  | some (.close _ user) => inferInstanceAs (Decidable (∀ e ∈ user.publishSessions.entries,
      ∀ pid ∈ e.2.pid2publishers.keys, pid ∉ r.pid2subscribers.keys))

variable {libs : RoomLibs} {r r' : Room}

theorem published_iff (h : Named libs r) {pid : Bytes} :
    Published r pid ↔ ∃ uid s p, Held r .recv uid s ∧ s.pid2publishers.find? pid = some p := by
  constructor
  · rintro ⟨uid, user, k, s, p, huser, hs, hp⟩
    exact ⟨uid, s, p, (h.held_publish huser hs).1, hp⟩
  · rintro ⟨uid, s, p, ⟨m, hm, hs⟩, hp⟩
    obtain ⟨user, huser, rfl⟩ := exists_of_member hm
    exact ⟨uid, user, s.id, s, p, huser, hs, hp⟩

/-- The keys that were there are still published. -/
theorem KeysPublished.mono (h : KeysPublished r) (hnamed : Named libs r) (hnamed' : Named libs r')
    (hkeys : ∀ pid ∈ r'.pid2subscribers.keys, pid ∈ r.pid2subscribers.keys)
    (hheld : ∀ uid s, Held r .recv uid s → Held r' .recv uid s) : KeysPublished r' := by
  intro pid hpid
  obtain ⟨uid, s, p, hs, hp⟩ := (published_iff hnamed).mp (h pid (hkeys pid hpid))
  exact (published_iff hnamed').mpr ⟨uid, s, p, hheld uid s hs, hp⟩

/-- A section that is bound has the name of a publisher of the remote session. -/
theorem bindMedia_publisherId {remote : RtcBaseSession} {publishers : List PublisherInfo}
    {media media' : MediaRtcInfo} (hbind : bindMedia remote publishers media = some media')
    (hnamed : ∃ info ∈ publishers, info.mediaType = media.mediaType) :
    ∃ mid p, remote.mid2publishers.find? mid = some p ∧ media'.publisherId = p.pid := by
  rcases bindMedia_cases hbind with ⟨hnone, -⟩ | ⟨info, p, -, hp, rfl⟩
  · obtain ⟨info, hinfo, htype⟩ := hnamed
    exact absurd (List.find?_eq_none.mp hnone info hinfo) (by simp [htype])
  · exact ⟨info.mid, p, hp, rfl⟩

/-- A session that unpublishes. -/
theorem keysPublished_unpublish_iff {uid pcid : Bytes} {user : UserInfo} {s : RtcBaseSession}
    (hnamed : Named libs r) (hnamed' : Named libs r') (h : KeysPublished r)
    (huser : r.users.find? uid = some user) (hs : user.publishSessions.find? pcid = some s)
    (hmember : r'.member = Function.update r.member uid (some (user.member.remove .recv pcid)))
    (hsubscribers : r'.pid2subscribers =
      erasePublishers (s.destruct r.pid2subscribers) s.getPublishsInformation) :
    KeysPublished r' ↔ Clears (some (.unpublish uid user pcid s)) r := by
  obtain ⟨hheld, hid⟩ := hnamed.held_publish huser hs
  have hremoved : ∀ uid' t, Held r' .recv uid' t ↔
      Held r .recv uid' t ∧ ¬(RtcDirection.recv = .recv ∧ uid' = uid ∧ t.id = pcid) := fun _ _ =>
    held_remove (member_of_find? huser) hmember
  have hkeys : ∀ pid, pid ∈ r'.pid2subscribers.keys ↔ pid ∈ r.pid2subscribers.keys ∧
      ∀ info ∈ s.getPublishsInformation, pid ≠ info.pid := by
    intro pid
    rw [OrderedMap.mem_keys_iff, OrderedMap.mem_keys_iff, hsubscribers, ne_eq,
      Subscribers.find?_erasePublishers, (hnamed.proper _ _ _ hheld).destruct_recv]
    simp
  constructor
  · intro h' pid hpid hkey
    obtain ⟨p, hp⟩ := Option.ne_none_iff_exists'.mp (OrderedMap.mem_keys_iff.mp hpid)
    by_contra hnot
    have hunlisted : ∀ info ∈ s.getPublishsInformation, pid ≠ info.pid := fun info hinfo heq =>
      hnot ⟨info, hinfo, heq.symm⟩
    obtain ⟨uid', t, p', ht, hp'⟩ :=
      (published_iff hnamed').mp (h' pid ((hkeys pid).mpr ⟨hkey, hunlisted⟩))
    obtain ⟨ht, hother⟩ := (hremoved uid' t).mp ht
    obtain ⟨-, rfl, rfl⟩ := hnamed.unique _ _ _ _ _ _ pid ht hheld (pid_mem_names hp')
      (pid_mem_names hp)
    exact hother ⟨rfl, rfl, hid.symm⟩
  · intro hclears pid hpid
    obtain ⟨hkey, hunlisted⟩ := (hkeys pid).mp hpid
    obtain ⟨uid', t, p, ht, hp⟩ := (published_iff hnamed).mp (h pid hkey)
    refine (published_iff hnamed').mpr ⟨uid', t, p, (hremoved uid' t).mpr ⟨ht, ?_⟩, hp⟩
    rintro ⟨-, -, htid⟩
    have hname : pcid ∈ s.names := hid ▸ id_mem_names s
    obtain ⟨-, -, rfl⟩ := hnamed.unique _ _ _ _ _ _ pcid ht hheld (htid ▸ id_mem_names t) hname
    have hpid : pid ∈ t.pid2publishers.keys :=
      OrderedMap.mem_keys.mpr ⟨p, OrderedMap.find?_eq_some.mp hp⟩
    obtain ⟨info, hinfo, heq⟩ := hclears pid hpid hkey
    exact hunlisted info hinfo heq.symm

/-- A user that leaves. -/
theorem keysPublished_close_iff {uid : Bytes} {user : UserInfo} (hnamed : Named libs r)
    (hnamed' : Named libs (r.removeUser uid user)) (h : KeysPublished r)
    (huser : r.users.find? uid = some user) :
    KeysPublished (r.removeUser uid user) ↔ Clears (some (.close uid user)) r := by
  have hremoved : ∀ uid' t, Held (r.removeUser uid user) .recv uid' t ↔
      Held r .recv uid' t ∧ uid' ≠ uid := fun _ _ => held_close (member_removeUser r uid user)
  have hkeys : ∀ pid, pid ∈ (r.removeUser uid user).pid2subscribers.keys ↔
      pid ∈ r.pid2subscribers.keys := by
    intro pid
    rw [OrderedMap.mem_keys_iff, OrderedMap.mem_keys_iff]
    exact not_congr (hnamed.find?_destruct huser)
  constructor
  · rintro h' ⟨k, s⟩ hs pid hpid hkey
    obtain ⟨p, hp⟩ := Option.ne_none_iff_exists'.mp (OrderedMap.mem_keys_iff.mp hpid)
    rw [← OrderedMap.find?_eq_some] at hs
    obtain ⟨uid', t, p', ht, hp'⟩ := (published_iff hnamed').mp (h' pid ((hkeys pid).mpr hkey))
    obtain ⟨ht, hother⟩ := (hremoved uid' t).mp ht
    obtain ⟨-, hsame, -⟩ := hnamed.unique _ _ _ _ _ _ pid ht (hnamed.held_publish huser hs).1
      (pid_mem_names hp') (pid_mem_names hp)
    exact hother hsame
  · intro hclears pid hpid
    obtain ⟨uid', t, p, ht, hp⟩ := (published_iff hnamed).mp (h pid ((hkeys pid).mp hpid))
    refine (published_iff hnamed').mpr ⟨uid', t, p, (hremoved uid' t).mpr ⟨ht, ?_⟩, hp⟩
    rintro rfl
    obtain ⟨m, hm, hfind⟩ := ht
    rw [member_of_find? huser, Option.some.injEq] at hm
    subst hm
    exact hclears (t.id, t) (OrderedMap.find?_eq_some.mp hfind) pid
      (OrderedMap.mem_keys.mpr ⟨p, OrderedMap.find?_eq_some.mp hp⟩) ((hkeys pid).mp hpid)

/-- New subscribers of publishers that the remote session holds. -/
theorem keysPublished_subscribe {sub : Subscription} {uid : Bytes} {info support : RtcMediaInfo}
    {medias : List MediaRtcInfo} {st : Subscribing} (hnamed : Named libs r)
    (hnamed' : Named libs r') (h : KeysPublished r) (hremote : Held r .recv uid sub.remoteSession)
    (hamb : NamesPublishers libs (some (.subscribe sub)))
    (hoffer : offerOf libs sub = some (info, support))
    (hbind : support.medias.mapM (bindMedia sub.remoteSession sub.publishers) = some medias)
    (hjoined : Joined libs r.made r.pid2subscribers (medias.map MediaRtcInfo.publisherId) st)
    (hheld : ∀ uid t, Held r .recv uid t → Held r' .recv uid t)
    (hsubscribers : r'.pid2subscribers = st.subscribers) : KeysPublished r' := by
  intro pid hpid
  rw [hsubscribers, OrderedMap.mem_keys_iff] at hpid
  rcases hjoined.keys pid hpid with hold | hnew
  · obtain ⟨uid', t, p, ht, hp⟩ :=
      (published_iff hnamed).mp (h pid (OrderedMap.mem_keys_iff.mpr hold))
    exact (published_iff hnamed').mpr ⟨uid', t, p, hheld uid' t ht, hp⟩
  · obtain ⟨media', hmedia', rfl⟩ := List.mem_map.mp hnew
    obtain ⟨media, hmedia, hmap⟩ :=
      RelatedLists.exists_of_mem_forall₂ (RelatedLists.forall₂_of_mapM hbind) hmedia'
    obtain ⟨named, hmem, htype, -⟩ := hamb (info, support) hoffer media hmedia
    obtain ⟨mid, p, hp, hpid'⟩ := bindMedia_publisherId hmap ⟨named, hmem, htype⟩
    have hknown := ((hnamed.proper _ _ _ hremote).known mid p hp).2
    exact (published_iff hnamed').mpr ⟨uid, sub.remoteSession, p, hheld _ _ hremote,
      hpid' ▸ hknown⟩

/-- An effect keeps the keys published exactly when it clears those it has to. -/
theorem keysPublished_effect_iff {a : Option Action} (hnamed : Named libs r)
    (hremote : ∀ sub, a = some (.subscribe sub) → ∃ uid, Held r .recv uid sub.remoteSession)
    (hamb : NamesPublishers libs a) (h : KeysPublished r) (heffect : Effect libs r a r') :
    KeysPublished r' ↔ Clears a r := by
  have hnamed' := hnamed.effect heffect
  cases heffect with
  | refused => exact iff_of_true h trivial
  | join uid feedback hnew =>
    refine iff_of_true (h.mono hnamed hnamed' (fun _ hpid => hpid) fun uid' s hs => ?_)
      trivial
    have hnone : r.member uid = none := by rw [member, hnew, Option.map_none]
    refine (held_join hnone ?_ (member_setUser r uid _)).mpr hs
    intro kind
    cases kind <;> rfl
  | publishFails uid user sdp _ hunseen =>
    refine iff_of_true (h.mono hnamed hnamed' ?_ fun uid' s hs => ?_) trivial
    · rw [hunseen.subscribers]
      exact fun _ hpid => hpid
    · exact (held_of_member hunseen.member).mpr hs
  | publish uid user sdp s _ huser hfilled hmember hsubscribers =>
    refine iff_of_true (h.mono hnamed hnamed' ?_ fun uid' t ht => ?_) trivial
    · rw [hsubscribers]
      exact fun _ hpid => hpid
    · have hm := member_of_find? huser
      exact (held_add hm hmember (hnamed.find?_filled hm hfilled)).mpr (.inl ht)
  | unpublish uid user pcid s _ huser hs hmember hsubscribers =>
    exact keysPublished_unpublish_iff hnamed hnamed' h huser hs hmember hsubscribers
  | subscribeFails sub _ hunseen =>
    refine iff_of_true (h.mono hnamed hnamed' ?_ fun uid' s hs => ?_) trivial
    · rw [hunseen.subscribers]
      exact fun _ hpid => hpid
    · exact (held_of_member hunseen.member).mpr hs
  | subscribe sub info support medias st _ huser hoffer hbind hjoined hmember hsubscribers =>
    refine iff_of_true ?_ trivial
    obtain ⟨uid, hheld⟩ := hremote sub rfl
    refine keysPublished_subscribe hnamed hnamed' h hheld hamb hoffer hbind hjoined ?_ hsubscribers
    intro uid' t ht
    have hm := member_of_find? huser
    exact (held_add hm hmember (hnamed.find?_filled hm hjoined.filled)).mpr (.inl ht)
  | unsubscribe uid user pcid s publishers _ huser hs hmember hsubscribers =>
    refine iff_of_true (h.mono hnamed hnamed' ?_ fun uid' t ht => ?_)
      trivial
    · intro pid hpid
      rw [OrderedMap.mem_keys_iff] at hpid ⊢
      refine fun hnone => hpid ?_
      rw [hsubscribers, Subscribers.find?_erasePublishers,
        (hnamed.proper _ _ _ (hnamed.held_subscribe huser hs).1).find?_destruct]
      exact .inl hnone
    · refine (held_remove (member_of_find? huser) hmember).mpr ⟨ht, fun hsame => ?_⟩
      cases hsame.1
  | close uid user huser => exact keysPublished_close_iff hnamed hnamed' h huser

/-- The session that a subscribe request names is held by its user. -/
theorem remoteSession_held {e : Event} {sub : Subscription} (hnamed : Named libs r)
    (h : action e r = some (.subscribe sub)) : ∃ uid, Held r .recv uid sub.remoteSession := by
  obtain ⟨data, hcheck⟩ := exists_of_action_subscribe h
  obtain ⟨-, -, remoteUser, k, hremote, hs⟩ := checkSubscribe_ok hcheck
  exact ⟨sub.remoteUid, (hnamed.held_publish hremote hs).1⟩

/-- **Subscriptions refer to live publishers** in every state of a run, if and only if no
step of it removes a publisher and leaves its key. -/
theorem subscriptions_live_iff (libs : RoomLibs) (roomId : Bytes) (events : List Event) (r : Room)
    (hnames : Run.Along (step libs) (fun e r => NamesPublishers libs (action e r)) events
      { roomId })
    (hrun : Run.run (step libs) events { roomId } = .ok r) :
    (∀ pre r', pre <+: events → Run.run (step libs) pre { roomId } = .ok r' → KeysPublished r') ↔
      Run.Along (step libs) (fun e r => Clears (action e r) r) events { roomId } := by
  refine @Run.forall_prefix_iff_along_of Room Fault Event (step libs) _ _ (Named libs)
    KeysPublished ?_ ?_ events { roomId } r named_init ?_ hnames hrun
  · intro e s s' hnamed _ hstep
    exact hnamed.effect (step_effect hstep)
  · intro e s s' hnamed hamb h hstep
    exact keysPublished_effect_iff hnamed (fun sub ha => remoteSession_held hnamed ha) hamb h
      (step_effect hstep)
  · intro pid hpid
    cases hpid

/-- The data of a request that ends the subscription to these publishers. -/
def unsubscribeData (uid : String) (pcid : Nat) (publishers : Json) : Json :=
  object [("pcid", .str (sampleLibs.uuid pcid)), ("publishers", publishers), ("uid", textJson uid)]

/-- That request, of `uid`, for the publisher `pid`. -/
def unsubscribeOf (uid : String) (pcid pid : Nat) (feedback : Connection) : Event :=
  .request (ascii "4") (ascii "unsubscribe") (unsubscribeData uid pcid (publisherList pid))
    feedback

/-- `uid` leaves the room. -/
def closeOf (uid : String) : Event :=
  .notification (ascii "close") (joinData uid)

/-- The publisher has a subscriber, and it leaves when that has unsubscribed. -/
theorem subscriptions_live_unsubscribed :
    ∃ r r', Run.run (step sampleLibs) sampleEvents { roomId := ascii "room" } = .ok r ∧
      Run.run (step sampleLibs) (sampleEvents ++ [unsubscribeOf "b" 2 1 2, closeOf "a"])
        { roomId := ascii "room" } = .ok r' ∧
      sampleLibs.uuid 1 ∈ r.pid2subscribers.keys ∧ KeysPublished r ∧ KeysPublished r' := by
  -- one evaluation, so that the runs are gone through once
  have heval : (Run.run (step sampleLibs) sampleEvents { roomId := ascii "room" }).toOption.map
        (fun r => decide (sampleLibs.uuid 1 ∈ r.pid2subscribers.keys)) = some true ∧
      (Run.run (step sampleLibs) (sampleEvents ++ [unsubscribeOf "b" 2 1 2, closeOf "a"])
        { roomId := ascii "room" }).toOption.map (fun r => r.users.size) = some 1 ∧
      Run.Along (step sampleLibs) (fun e r => NamesPublishers sampleLibs (action e r))
        (sampleEvents ++ [unsubscribeOf "b" 2 1 2, closeOf "a"]) { roomId := ascii "room" } ∧
      Run.Along (step sampleLibs) (fun e r => Clears (action e r) r)
        (sampleEvents ++ [unsubscribeOf "b" 2 1 2, closeOf "a"]) { roomId := ascii "room" } := by
    decide +kernel
  obtain ⟨hkeys, husers, hnames, hclears⟩ := heval
  obtain ⟨r, hrun, hkey⟩ := Run.exists_of_map_toOption hkeys
  obtain ⟨r', hrun', -⟩ := Run.exists_of_map_toOption husers
  have hlive := (subscriptions_live_iff sampleLibs (ascii "room") _ r' hnames hrun').mpr hclears
  exact ⟨r, r', hrun, hrun', of_decide_eq_true hkey, hlive _ r (List.prefix_append _ _) hrun,
    hlive _ r' List.prefix_rfl hrun'⟩

/-- The publisher leaves while it has a subscriber: its key stays. -/
theorem not_subscriptions_live_closed :
    ¬∀ pre r', pre <+: sampleEvents ++ [closeOf "a"] →
      Run.run (step sampleLibs) pre { roomId := ascii "room" } = .ok r' → KeysPublished r' := by
  intro h
  obtain ⟨r, hrun, hr⟩ := Run.exists_of_map_toOption (x := Run.run (step sampleLibs)
    (sampleEvents ++ [closeOf "a"]) { roomId := ascii "room" })
    (f := fun r => (decide (sampleLibs.uuid 1 ∈ r.pid2subscribers.keys),
      r.users.entries.map fun e => e.2.publishSessions.size)) (b := (true, [0]))
    (by decide +kernel)
  rw [Prod.mk.injEq, decide_eq_true_eq] at hr
  obtain ⟨uid, user, k, s, p, huser, hs, -⟩ := h _ r List.prefix_rfl hrun _ hr.1
  have hsize : user.publishSessions.size = 0 := by
    have hmem : user.publishSessions.size ∈ r.users.entries.map fun e => e.2.publishSessions.size :=
      List.mem_map.mpr ⟨(uid, user), OrderedMap.find?_eq_some.mp huser, rfl⟩
    rw [hr.2, List.mem_singleton] at hmem
    exact hmem
  have hentry := OrderedMap.find?_eq_some.mp hs
  rw [List.eq_nil_of_length_eq_zero hsize] at hentry
  cases hentry

end Room

end MediaServer
