import MediaServer.Webrtc.LivePublishers

/-!
# What a request leaves alone

An unsubscribe request should end the subscriptions of the session it names and no others.
`handle_unsubscribe` erases that session, whose destructor does exactly this.  The loop
behind it erases all subscribers of the publishers in the list of the request, whoever they
belong to.  `unsubscribe_frame_iff` says for which requests the loop does no harm.
-/

namespace MediaServer

namespace Room

open RtcBaseSession

/-! ## Unsubscribe -/

/-- The subscriber is in the subscribe session `pcid` of the user. -/
def BelongsTo (r : Room) (sub : RtcSubscriber) (uid pcid : Bytes) : Prop :=
  ∃ user s mid, r.users.find? uid = some user ∧ user.subscribeSessions.find? pcid = some s ∧
    s.mid2subscribers.find? mid = some sub

/-- The publishers in the list have no subscribers but those of the session. -/
def NamesOwn (r : Room) (pcid : Bytes) (publishers : List PublisherInfo) : Prop :=
  ∀ info ∈ publishers, ∀ sid sub, Subscribers.Entry r.pid2subscribers info.pid sid sub →
    sub.session = pcid

section Unsubscribe

variable {libs : RoomLibs} {r : Room} {uid pcid : Bytes} {user : UserInfo} {s : RtcBaseSession}

theorem Attached.belongsTo (h : Attached r) {pid sid : Bytes} {sub : RtcSubscriber}
    (hentry : Subscribers.Entry r.pid2subscribers pid sid sub) :
    ∃ uid, BelongsTo r sub uid sub.session := by
  obtain ⟨-, -, uid, s, mid, ⟨m, hm, hs⟩, hid, hfind⟩ := h pid sid sub hentry
  obtain ⟨user, huser, rfl⟩ := exists_of_member hm
  exact ⟨uid, user, s, mid, huser, hid ▸ hs, hfind⟩

/-- A subscriber that belongs to a session is one of its own. -/
theorem Named.belongsTo (h : Named libs r) {sub : RtcSubscriber} (hsub : BelongsTo r sub uid pcid) :
    sub.session = pcid ∧ ∃ s mid, Held r .send uid s ∧ s.id = pcid ∧
      s.mid2subscribers.find? mid = some sub := by
  obtain ⟨user, s, mid, huser, hs, hfind⟩ := hsub
  obtain ⟨hheld, hid⟩ := h.held_subscribe huser hs
  have howner := (h.proper _ _ _ hheld).owner mid sub hfind
  exact ⟨howner.trans hid.symm, s, mid, hheld, hid.symm, hfind⟩

/-- The subscribers that are left behind an unsubscribe request. -/
theorem entry_unsubscribe (h : Named libs r) (huser : r.users.find? uid = some user)
    (hs : user.subscribeSessions.find? pcid = some s) {publishers : List PublisherInfo}
    {p t : Bytes} {x : RtcSubscriber} :
    Subscribers.Entry (erasePublishers (s.destruct r.pid2subscribers) publishers) p t x ↔
      (Subscribers.Entry r.pid2subscribers p t x ∧
        ∀ mid sub, s.mid2subscribers.find? mid = some sub → ¬(p = sub.pid ∧ t = sub.sid)) ∧
      ∀ info ∈ publishers, p ≠ info.pid := by
  have hproper := h.proper _ _ _ (h.held_subscribe huser hs).1
  rw [Subscribers.entry_erasePublishers, hproper.entry_destruct]

/-- What the other sessions keep of their subscribers. -/
theorem frame_unsubscribe_iff (h : Named libs r) (hattached : Attached r)
    (huser : r.users.find? uid = some user) (hs : user.subscribeSessions.find? pcid = some s)
    {publishers : List PublisherInfo} :
    (∀ pid sid sub uid' pcid', Subscribers.Entry r.pid2subscribers pid sid sub →
      BelongsTo r sub uid' pcid' → ¬(uid' = uid ∧ pcid' = pcid) →
        Subscribers.Entry (erasePublishers (s.destruct r.pid2subscribers) publishers) pid sid sub) ↔
      NamesOwn r pcid publishers := by
  obtain ⟨hheld, hid⟩ := h.held_subscribe huser hs
  constructor
  · intro hframe info hinfo sid sub hentry
    obtain ⟨uid', hbelongs⟩ := hattached.belongsTo hentry
    by_contra hother
    have hkept := hframe info.pid sid sub uid' sub.session hentry hbelongs fun hsame =>
      hother hsame.2
    exact ((entry_unsubscribe h huser hs).mp hkept).2 info hinfo rfl
  · intro hown pid sid sub uid' pcid' hentry hbelongs hother
    obtain ⟨howner, s', mid', hheld', hid', hfind'⟩ := h.belongsTo hbelongs
    -- a name that the two sessions share makes them one
    have hne : ∀ name, name ∈ s'.names → name ∉ s.names := by
      intro name hname' hname
      obtain ⟨-, rfl, rfl⟩ := h.unique _ _ _ _ _ _ name hheld' hheld hname' hname
      exact hother ⟨rfl, by rw [hid, hid']⟩
    refine (entry_unsubscribe h huser hs).mpr ⟨⟨hentry, ?_⟩, ?_⟩
    · rintro mid x hx ⟨-, hsid⟩
      have hsid' := (hattached pid sid sub hentry).2.1
      refine hne sub.sid (sid_mem_names hfind') ?_
      rw [hsid', hsid]
      exact sid_mem_names hx
    · rintro info hinfo rfl
      have hsession := hown info hinfo sid sub hentry
      refine hne pcid ?_ (hid ▸ id_mem_names s)
      rw [← hsession, howner, ← hid']
      exact id_mem_names s'

end Unsubscribe

/-- **Unsubscribe touches only the caller**: the subscribers of other users and of the other
sessions of the caller stay, if and only if the request is refused or the publishers in its
list have no other subscribers than those of the session it names. -/
theorem unsubscribe_frame_iff (libs : RoomLibs) (roomId : Bytes) (events : List Event) (r : Room)
    (hrun : Run.run (step libs) events { roomId } = .ok r) (id : Bytes) (data : Json)
    (feedback : Connection) :
    (∀ pid sid sub uid pcid, Subscribers.Entry r.pid2subscribers pid sid sub →
      BelongsTo r sub uid pcid → ¬(uid = getUidByJson data ∧ data.textAt "pcid" = some pcid) →
        Subscribers.Entry (handleUnsubscribe id data feedback r).room.pid2subscribers pid sid
          sub) ↔
      ∀ uid user pcid s, r.checkUnsubscribe data = .ok (uid, user, pcid, s) →
        NamesOwn r pcid (namedPublishers data) := by
  obtain ⟨hnamed, hattached⟩ := run_attached hrun
  rcases hcheck : r.checkUnsubscribe data with refusal | ⟨uid, user, pcid, s⟩
  · have hroom : (handleUnsubscribe id data feedback r).room = r := by
      rw [handleUnsubscribe, hcheck, refuse_room]
    rw [hroom]
    refine ⟨fun _ _ _ _ _ h => ?_, fun _ _ _ _ _ _ hentry _ _ => hentry⟩
    cases h
  · obtain ⟨huid, huser, hpcid, hs⟩ := checkUnsubscribe_ok hcheck
    rw [handleUnsubscribe_room hcheck, huid, hpcid]
    have hiff := @frame_unsubscribe_iff libs r uid pcid user s hnamed hattached huser hs
      (namedPublishers data)
    constructor
    · intro hframe uid' user' pcid' s' heq
      cases heq
      refine hiff.mp fun pid sid sub uid' pcid' hentry hbelongs hother => ?_
      exact hframe pid sid sub uid' pcid' hentry hbelongs fun hsame =>
        hother ⟨hsame.1, (Option.some.inj hsame.2).symm⟩
    · intro hown pid sid sub uid' pcid' hentry hbelongs hother
      exact hiff.mpr (hown uid user pcid s rfl) pid sid sub uid' pcid' hentry hbelongs fun hsame =>
        hother ⟨hsame.1, by rw [hsame.2]⟩

/-- `b` and `c` subscribe to what `a` publishes. -/
def sharedEvents : List Event := sampleEvents ++ [joinOf "c" 3, subscribeOf "c" "a" 0 1 3]

/-- The session of a subscriber in the map of the room. -/
def sessionOf (m : Subscribers) (pid sid : Bytes) : Option Bytes :=
  ((m.find? pid).bind fun subs => subs.find? sid).map RtcSubscriber.session

theorem exists_of_sessionOf {m : Subscribers} {pid sid session : Bytes}
    (h : sessionOf m pid sid = some session) :
    ∃ sub, Subscribers.Entry m pid sid sub ∧ sub.session = session := by
  simp only [sessionOf, Option.map_eq_some_iff, Option.bind_eq_some_iff] at h
  obtain ⟨sub, ⟨subs, hsubs, hsub⟩, hsession⟩ := h
  exact ⟨sub, ⟨subs, hsubs, hsub⟩, hsession⟩

/-- `c` keeps its subscriber when the list in the request of `b` is empty. -/
theorem unsubscribe_frame_empty :
    ∃ r sub, Run.run (step sampleLibs) sharedEvents { roomId := ascii "room" } = .ok r ∧
      Subscribers.Entry r.pid2subscribers (sampleLibs.uuid 1) (sampleLibs.uuid 5) sub ∧
      Subscribers.Entry (handleUnsubscribe (ascii "4") (unsubscribeData "b" 2 (.arr [])) 2
        r).room.pid2subscribers (sampleLibs.uuid 1) (sampleLibs.uuid 5) sub := by
  obtain ⟨r, hrun, hr⟩ := Run.exists_of_map_toOption
    (x := Run.run (step sampleLibs) sharedEvents { roomId := ascii "room" })
    (f := fun r => sessionOf r.pid2subscribers (sampleLibs.uuid 1) (sampleLibs.uuid 5))
    (b := some (sampleLibs.uuid 4)) (by decide +kernel)
  obtain ⟨sub, hentry, hsession⟩ := exists_of_sessionOf hr
  obtain ⟨uid, hbelongs⟩ := (run_attached hrun).2.belongsTo hentry
  have hframe := (unsubscribe_frame_iff sampleLibs (ascii "room") sharedEvents r hrun (ascii "4")
    (unsubscribeData "b" 2 (.arr [])) 2).mpr ?_
  · refine ⟨r, sub, hrun, hentry, hframe _ _ sub uid sub.session hentry hbelongs ?_⟩
    rw [hsession]
    exact fun hsame => absurd hsame.2 (by decide +kernel)
  · intro uid user pcid s _ info hinfo
    have hnil : namedPublishers (unsubscribeData "b" 2 (.arr [])) = [] := by decide +kernel
    rw [hnil] at hinfo
    cases hinfo

/-- `c` loses its subscriber when `b` names the publisher. -/
theorem not_unsubscribe_frame_shared :
    ¬∀ (events : List Event) (r : Room),
      Run.run (step sampleLibs) events { roomId := ascii "room" } = .ok r →
      ∀ id data feedback pid sid sub uid pcid, Subscribers.Entry r.pid2subscribers pid sid sub →
        BelongsTo r sub uid pcid → ¬(uid = getUidByJson data ∧ data.textAt "pcid" = some pcid) →
          Subscribers.Entry (handleUnsubscribe id data feedback r).room.pid2subscribers pid sid
            sub := by
  intro h
  obtain ⟨r, hrun, hr⟩ := Run.exists_of_map_toOption
    (x := Run.run (step sampleLibs) sharedEvents { roomId := ascii "room" })
    (f := fun r => (sessionOf r.pid2subscribers (sampleLibs.uuid 1) (sampleLibs.uuid 5),
      (handleUnsubscribe (ascii "4") (unsubscribeData "b" 2 (publisherList 1)) 2
        r).room.pid2subscribers.find? (sampleLibs.uuid 1)))
    (b := (some (sampleLibs.uuid 4), none)) (by decide +kernel)
  rw [Prod.mk.injEq] at hr
  obtain ⟨sub, hentry, hsession⟩ := exists_of_sessionOf hr.1
  obtain ⟨uid, hbelongs⟩ := (run_attached hrun).2.belongsTo hentry
  obtain ⟨subs, hsubs, -⟩ := h sharedEvents r hrun (ascii "4")
    (unsubscribeData "b" 2 (publisherList 1)) 2 _ _ sub uid sub.session hentry hbelongs (by
      rw [hsession]
      exact fun hsame => absurd hsame.2 (by decide +kernel))
  rw [hr.2] at hsubs
  cases hsubs

end Room

end MediaServer
