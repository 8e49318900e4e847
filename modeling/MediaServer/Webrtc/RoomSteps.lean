import Mathlib.Logic.Function.Basic
import MediaServer.Webrtc.SessionMaps

/-!
# What an event does to a room

`action` says what an event gets to, if its checks let it through: this depends on the
event and on the room before it.  `Effect` says what the room is afterwards, and
`step_effect` that every step has such an effect.  The invariants are proved from
`Effect`, and nothing behind this module looks into a handler again.

The offer that a user has sent last is of no interest to the other users.  `Member` is the
part of a user that is.
-/

namespace MediaServer

/-- A user without its last offer. -/
structure Member where
  feedback : Connection
  sessions : RtcDirection → OrderedMap Bytes RtcBaseSession

namespace Member

/-- The user holds one more session. -/
def add (m : Member) (kind : RtcDirection) (s : RtcBaseSession) : Member :=
  { m with sessions := Function.update m.sessions kind ((m.sessions kind).assign s.id s) }

/-- The user holds one session less. -/
def remove (m : Member) (kind : RtcDirection) (k : Bytes) : Member :=
  { m with sessions := Function.update m.sessions kind ((m.sessions kind).erase k) }

end Member

/-- The sessions of a user in one direction. -/
def UserInfo.sessions (user : UserInfo) : RtcDirection → OrderedMap Bytes RtcBaseSession
  | .recv => user.publishSessions
  | .send => user.subscribeSessions

/-- A user as the abstract room sees it. -/
def UserInfo.member (user : UserInfo) : Member := ⟨user.feedback, user.sessions⟩

theorem UserInfo.member_addPublish (user : UserInfo) (s : RtcBaseSession) :
    UserInfo.member { user with publishSessions := user.publishSessions.assign s.id s } =
      user.member.add .recv s := by
  simp only [UserInfo.member, Member.add, Member.mk.injEq, true_and]
  funext kind
  cases kind <;> rfl

theorem UserInfo.member_addSubscribe (user : UserInfo) (s : RtcBaseSession) :
    UserInfo.member { user with subscribeSessions := user.subscribeSessions.assign s.id s } =
      user.member.add .send s := by
  simp only [UserInfo.member, Member.add, Member.mk.injEq, true_and]
  funext kind
  cases kind <;> rfl

theorem UserInfo.member_removePublish (user : UserInfo) (k : Bytes) :
    UserInfo.member { user with publishSessions := user.publishSessions.erase k } =
      user.member.remove .recv k := by
  simp only [UserInfo.member, Member.remove, Member.mk.injEq, true_and]
  funext kind
  cases kind <;> rfl

theorem UserInfo.member_removeSubscribe (user : UserInfo) (k : Bytes) :
    UserInfo.member { user with subscribeSessions := user.subscribeSessions.erase k } =
      user.member.remove .send k := by
  simp only [UserInfo.member, Member.remove, Member.mk.injEq, true_and]
  funext kind
  cases kind <;> rfl

namespace Room

open RtcBaseSession

/-! ## What is checked -/

section Checks

variable {r : Room} {data : Json} {uid : Bytes} {user : UserInfo}

theorem orElse_ok {α : Type} {value : Option α} {refusal : Refusal} {a : α} :
    orElse value refusal = .ok a ↔ value = some a := by
  unfold orElse
  split <;> simp

theorem avoids_orElse {α : Type} {value : Option α} {refusal refusal' : Refusal}
    (h : refusal ≠ refusal') : Run.Avoids refusal' (orElse value refusal) := by
  unfold orElse
  split
  · exact Run.avoids_ok _ _
  · exact Run.avoids_of_ne h

theorem checkUser_ok {missing unknown : String}
    (h : r.checkUser data missing unknown = .ok (uid, user)) :
    getUidByJson data = uid ∧ uid ≠ [] ∧ r.users.find? uid = some user := by
  unfold checkUser at h
  simp only at h
  split at h
  · cases h
  · rename_i hne
    obtain ⟨u, hu, hpair⟩ := Run.exists_of_bind_ok h
    cases hpair
    exact ⟨rfl, hne, orElse_ok.mp hu⟩

theorem checkJoin_ok (h : r.checkJoin data = .ok uid) :
    getUidByJson data = uid ∧ uid ≠ [] ∧ r.users.find? uid = none := by
  unfold checkJoin at h
  simp only at h
  split at h
  · cases h
  · rename_i hne
    split at h
    · cases h
    · rename_i hnew
      obtain ⟨roomIdJson, -, h⟩ := Run.exists_of_bind_ok h
      obtain ⟨roomId, -, h⟩ := Run.exists_of_bind_ok h
      split at h
      · cases h
      · cases h
        exact ⟨rfl, hne, by simpa using hnew⟩

/-- A join request that is refused is rejected. -/
theorem checkJoin_avoids {refusal : Refusal} (h : ∀ errCode err, .reject errCode err ≠ refusal) :
    Run.Avoids refusal (r.checkJoin data) := by
  unfold checkJoin
  refine Run.avoids_ite (Run.avoids_of_ne (h _ _)) ?_
  refine Run.avoids_ite (Run.avoids_of_ne (h _ _)) ?_
  refine (avoids_orElse (h _ _)).bind fun roomIdJson _ => ?_
  refine (avoids_orElse (h _ _)).bind fun roomId _ => ?_
  refine Run.avoids_ite (Run.avoids_of_ne (h _ _)) ?_
  exact Run.avoids_ok _ _

theorem checkPublish_ok {sdp : Bytes} (h : r.checkPublish data = .ok (uid, user, sdp)) :
    getUidByJson data = uid ∧ r.users.find? uid = some user := by
  unfold checkPublish at h
  obtain ⟨⟨uid', user'⟩, huser, h⟩ := Run.exists_of_bind_ok h
  obtain ⟨sdpJson, -, h⟩ := Run.exists_of_bind_ok h
  obtain ⟨sdp', -, h⟩ := Run.exists_of_bind_ok h
  cases h
  obtain ⟨huid, -, hfind⟩ := checkUser_ok huser
  exact ⟨huid, hfind⟩

theorem checkUnpublish_ok {pcid : Bytes} {s : RtcBaseSession}
    (h : r.checkUnpublish data = .ok (uid, user, pcid, s)) :
    getUidByJson data = uid ∧ r.users.find? uid = some user ∧ data.textAt "pcid" = some pcid ∧
      user.publishSessions.find? pcid = some s := by
  unfold checkUnpublish at h
  obtain ⟨⟨uid', user'⟩, huser, h⟩ := Run.exists_of_bind_ok h
  obtain ⟨pcid', hpcid, h⟩ := Run.exists_of_bind_ok h
  obtain ⟨s', hs, h⟩ := Run.exists_of_bind_ok h
  cases h
  obtain ⟨huid, -, hfind⟩ := checkUser_ok huser
  exact ⟨huid, hfind, orElse_ok.mp hpcid, orElse_ok.mp hs⟩

theorem checkSubscribe_ok {sub : Subscription} (h : r.checkSubscribe data = .ok sub) :
    getUidByJson data = sub.uid ∧ r.users.find? sub.uid = some sub.user ∧
      ∃ remoteUser k, r.users.find? sub.remoteUid = some remoteUser ∧
        remoteUser.publishSessions.find? k = some sub.remoteSession := by
  unfold checkSubscribe at h
  obtain ⟨⟨uid, user⟩, huser, h⟩ := Run.exists_of_bind_ok h
  obtain ⟨remoteUid, -, h⟩ := Run.exists_of_bind_ok h
  obtain ⟨remoteUser, hremote, h⟩ := Run.exists_of_bind_ok h
  obtain ⟨remotePcId, -, h⟩ := Run.exists_of_bind_ok h
  obtain ⟨remoteSession, hsession, h⟩ := Run.exists_of_bind_ok h
  obtain ⟨publishers, -, h⟩ := Run.exists_of_bind_ok h
  obtain ⟨sdpJson, -, h⟩ := Run.exists_of_bind_ok h
  obtain ⟨sdp, -, h⟩ := Run.exists_of_bind_ok h
  cases h
  obtain ⟨huid, -, hfind⟩ := checkUser_ok huser
  exact ⟨huid, hfind, remoteUser, remotePcId, orElse_ok.mp hremote, orElse_ok.mp hsession⟩

theorem checkUnsubscribe_ok {pcid : Bytes} {s : RtcBaseSession}
    (h : r.checkUnsubscribe data = .ok (uid, user, pcid, s)) :
    getUidByJson data = uid ∧ r.users.find? uid = some user ∧ data.textAt "pcid" = some pcid ∧
      user.subscribeSessions.find? pcid = some s := by
  unfold checkUnsubscribe at h
  obtain ⟨⟨uid', user'⟩, huser, h⟩ := Run.exists_of_bind_ok h
  obtain ⟨pcid', hpcid, h⟩ := Run.exists_of_bind_ok h
  obtain ⟨s', hs, h⟩ := Run.exists_of_bind_ok h
  cases h
  obtain ⟨huid, -, hfind⟩ := checkUser_ok huser
  exact ⟨huid, hfind, orElse_ok.mp hpcid, orElse_ok.mp hs⟩

theorem checkClose_ok (h : r.checkClose data = .ok (uid, user)) :
    data.textAt "uid" = some uid ∧ r.users.find? uid = some user := by
  unfold checkClose at h
  obtain ⟨uid', huid, h⟩ := Run.exists_of_bind_ok h
  obtain ⟨roomId, -, h⟩ := Run.exists_of_bind_ok h
  obtain ⟨user', huser, h⟩ := Run.exists_of_bind_ok h
  cases h
  exact ⟨orElse_ok.mp huid, orElse_ok.mp huser⟩

end Checks

/-! ## What an event gets to -/

/-- What an event asks for when its checks have passed. -/
inductive Action where
  | join (uid : Bytes) (feedback : Connection)
  | publish (uid : Bytes) (user : UserInfo) (sdp : Bytes)
  | unpublish (uid : Bytes) (user : UserInfo) (pcid : Bytes) (session : RtcBaseSession)
  | subscribe (sub : Subscription)
  /-- The list is empty when the request has none. -/
  | unsubscribe (uid : Bytes) (user : UserInfo) (pcid : Bytes) (session : RtcBaseSession)
      (publishers : List PublisherInfo)
  | close (uid : Bytes) (user : UserInfo)

/-- The publishers that an unsubscribe request names. -/
def namedPublishers (data : Json) : List PublisherInfo :=
  match data.find "publishers" with
  | none => []
  | some publishers => getPublishersInfoByJson publishers

/-- What the event gets to, or `none` if a check ends it. -/
def action (e : Event) (r : Room) : Option Action :=
  match e with
  | .request _ method data feedback =>
    if method = ascii "join" then
      (r.checkJoin data).toOption.map fun uid => .join uid feedback
    else if method = ascii "publish" then
      (r.checkPublish data).toOption.map fun t => .publish t.1 t.2.1 t.2.2
    else if method = ascii "unpublish" then
      (r.checkUnpublish data).toOption.map fun t => .unpublish t.1 t.2.1 t.2.2.1 t.2.2.2
    else if method = ascii "subscribe" then (r.checkSubscribe data).toOption.map .subscribe
    else if method = ascii "unsubscribe" then
      (r.checkUnsubscribe data).toOption.map fun t =>
        .unsubscribe t.1 t.2.1 t.2.2.1 t.2.2.2 (namedPublishers data)
    else none
  | .notification method data =>
    if method = ascii "close" then (r.checkClose data).toOption.map fun t => .close t.1 t.2
    else none

/-- A request that gets to subscribe has passed its check. -/
theorem exists_of_action_subscribe {e : Event} {r : Room} {sub : Subscription}
    (h : action e r = some (.subscribe sub)) : ∃ data, r.checkSubscribe data = .ok sub := by
  cases e with
  | request id method data feedback =>
    unfold action at h
    simp only at h
    split_ifs at h
    all_goals obtain ⟨_, hcheck, heq⟩ := Run.exists_of_map_toOption h
    all_goals cases heq
    exact ⟨data, hcheck⟩
  | notification method data =>
    unfold action at h
    simp only at h
    split_ifs at h
    obtain ⟨_, -, heq⟩ := Run.exists_of_map_toOption h
    cases heq

/-- What the server supports of the offer in a subscribe request. -/
def offerOf (libs : RoomLibs) (sub : Subscription) : Option (RtcMediaInfo × RtcMediaInfo) :=
  ((libs.sdpParse sub.sdp).filter libs.dumps).bind fun infoJson => (readOffer sub.user infoJson).2

/-- What a section of a subscribe request takes from the publisher that is found for it. -/
theorem bindMedia_cases {remote : RtcBaseSession} {publishers : List PublisherInfo}
    {media bound : MediaRtcInfo} (h : bindMedia remote publishers media = some bound) :
    (publishers.find? (fun info => info.mediaType = media.mediaType) = none ∧ bound = media) ∨
    ∃ info p, publishers.find? (fun info => info.mediaType = media.mediaType) = some info ∧
      remote.getPublisher info.mid = some p ∧
      bound = { media with
        ssrcInfos := p.mediaInfo.ssrcInfos, ssrcGroups := p.mediaInfo.ssrcGroups
        msid := p.mediaInfo.msid, publisherId := p.pid } := by
  unfold bindMedia at h
  split at h
  · rename_i hnone
    cases h
    exact .inl ⟨hnone, rfl⟩
  · rename_i info hinfo
    split at h
    · cases h
    · rename_i p hp
      cases h
      exact .inr ⟨info, p, hinfo, hp, rfl⟩

/-! ## What the room is afterwards -/

/-- The member with an id. -/
def member (r : Room) (uid : Bytes) : Option Member := (r.users.find? uid).map UserInfo.member

theorem member_of_find? {r : Room} {uid : Bytes} {user : UserInfo}
    (h : r.users.find? uid = some user) : r.member uid = some user.member := by
  rw [member, h, Option.map_some]

theorem exists_of_member {r : Room} {uid : Bytes} {m : Member} (h : r.member uid = some m) :
    ∃ user, r.users.find? uid = some user ∧ user.member = m := by
  simpa [member] using h

/-- The members behind a change of one user. -/
theorem member_setUser (r : Room) (uid : Bytes) (user : UserInfo) :
    (r.setUser uid user).member = Function.update r.member uid (some user.member) := by
  funext q
  by_cases hq : q = uid
  · subst hq
    simp [member, setUser]
  · simp [member, setUser, Function.update_of_ne hq, OrderedMap.find?_assign_of_ne hq]

theorem member_removeUser (r : Room) (uid : Bytes) (user : UserInfo) :
    (r.removeUser uid user).member = Function.update r.member uid none := by
  funext q
  by_cases hq : q = uid
  · subst hq
    simp [member, removeUser]
  · simp [member, removeUser, Function.update_of_ne hq, OrderedMap.find?_erase_of_ne hq]

/-- A change of a user that leaves its sessions. -/
theorem member_setUser_of_eq {r : Room} {uid : Bytes} {user user' : UserInfo}
    (h : r.users.find? uid = some user) (hsame : user'.member = user.member) :
    (r.setUser uid user').member = r.member := by
  rw [member_setUser, hsame, ← member_of_find? h, Function.update_eq_self]

/-- Nothing happened that the other users could see. -/
structure Unseen (r r' : Room) : Prop where
  member : r'.member = r.member
  subscribers : r'.pid2subscribers = r.pid2subscribers
  announced : r'.announced = r.announced
  made : r.made ≤ r'.made

/-- What the room can be after an action, or after none. -/
inductive Effect (libs : RoomLibs) (r : Room) : Option Action → Room → Prop where
  | refused : Effect libs r none r
  | join (uid : Bytes) (feedback : Connection) (hnew : r.users.find? uid = none) :
      Effect libs r (some (.join uid feedback))
        (r.setUser uid { uid, roomId := r.roomId, feedback })
  | publishFails (uid : Bytes) (user : UserInfo) (sdp : Bytes) (r' : Room) (h : Unseen r r') :
      Effect libs r (some (.publish uid user sdp)) r'
  | publish (uid : Bytes) (user : UserInfo) (sdp : Bytes) (s : RtcBaseSession) (r' : Room)
      (huser : r.users.find? uid = some user)
      (hfilled : Filled libs.uuid r.made .recv s r'.made)
      (hmember : r'.member = Function.update r.member uid (some (user.member.add .recv s)))
      (hsubscribers : r'.pid2subscribers = r.pid2subscribers)
      (hannounced : r'.announced =
        r.announced ++ announcements uid s.id s.getPublishsInformation) :
      Effect libs r (some (.publish uid user sdp)) r'
  | unpublish (uid : Bytes) (user : UserInfo) (pcid : Bytes) (s : RtcBaseSession) (r' : Room)
      (huser : r.users.find? uid = some user) (hs : user.publishSessions.find? pcid = some s)
      (hmember : r'.member = Function.update r.member uid (some (user.member.remove .recv pcid)))
      (hsubscribers : r'.pid2subscribers =
        erasePublishers (s.destruct r.pid2subscribers) s.getPublishsInformation)
      (hannounced : r'.announced = r.announced) (hmade : r'.made = r.made) :
      Effect libs r (some (.unpublish uid user pcid s)) r'
  | subscribeFails (sub : Subscription) (r' : Room) (h : Unseen r r') :
      Effect libs r (some (.subscribe sub)) r'
  | subscribe (sub : Subscription) (info support : RtcMediaInfo) (medias : List MediaRtcInfo)
      (st : Subscribing) (r' : Room) (huser : r.users.find? sub.uid = some sub.user)
      (hoffer : offerOf libs sub = some (info, support))
      (hbind : support.medias.mapM (bindMedia sub.remoteSession sub.publishers) = some medias)
      (hjoined : Joined libs r.made r.pid2subscribers (medias.map MediaRtcInfo.publisherId) st)
      (hmember : r'.member =
        Function.update r.member sub.uid (some (sub.user.member.add .send st.session)))
      (hsubscribers : r'.pid2subscribers = st.subscribers)
      (hannounced : r'.announced = r.announced) (hmade : r'.made = st.made) :
      Effect libs r (some (.subscribe sub)) r'
  | unsubscribe (uid : Bytes) (user : UserInfo) (pcid : Bytes) (s : RtcBaseSession)
      (publishers : List PublisherInfo) (r' : Room) (huser : r.users.find? uid = some user)
      (hs : user.subscribeSessions.find? pcid = some s)
      (hmember : r'.member = Function.update r.member uid (some (user.member.remove .send pcid)))
      (hsubscribers : r'.pid2subscribers =
        erasePublishers (s.destruct r.pid2subscribers) publishers)
      (hannounced : r'.announced = r.announced) (hmade : r'.made = r.made) :
      Effect libs r (some (.unsubscribe uid user pcid s publishers)) r'
  | close (uid : Bytes) (user : UserInfo) (huser : r.users.find? uid = some user) :
      Effect libs r (some (.close uid user)) (r.removeUser uid user)

/-! ## The handlers -/

section Handlers

variable {libs : RoomLibs} {r : Room} {data : Json} {id : Bytes} {feedback : Connection}

theorem refuse_room (refusal : Refusal) : (r.refuse id feedback refusal).room = r := by
  cases refusal <;> rfl

/-- A check that ends the handler. -/
theorem effect_refuse {α : Type} {check : Except Refusal α} {f : α → Action} {refusal : Refusal}
    (hcheck : check = .error refusal) :
    Effect libs r (check.toOption.map f) (r.refuse id feedback refusal).room := by
  rw [hcheck, refuse_room]
  exact .refused

theorem readOffer_member (user : UserInfo) (infoJson : Json) :
    (readOffer user infoJson).1.member = user.member := by
  unfold readOffer
  simp only
  split <;> rfl

theorem handleJoin_effect :
    Effect libs r ((r.checkJoin data).toOption.map fun uid => .join uid feedback)
      (handleJoin id data feedback r).room := by
  unfold handleJoin
  split
  · rename_i refusal hcheck
    exact effect_refuse hcheck
  · rename_i uid hcheck
    rw [hcheck]
    exact .join uid feedback (checkJoin_ok hcheck).2.2

theorem openPublish_filled (libs : RoomLibs) (r : Room) (uid : Bytes) (support : RtcMediaInfo) :
    Filled libs.uuid r.made .recv (r.openPublish libs uid support).1.session
      (r.openPublish libs uid support).1.made := by
  unfold openPublish
  refine (createPublishers_filled libs.uuidInjective ?_ ?_).1
  · exact filled_new uid .recv support.medias
  · exact List.Subset.refl _

/-- What comes of an offer, in the room with the user that sent it. -/
theorem publishOffer_effect {uid sdp : Bytes} {user user' : UserInfo} {info support : RtcMediaInfo}
    (huser : r.users.find? uid = some user) (hsame : user'.member = user.member) :
    Effect libs r (some (.publish uid user sdp))
      (publishOffer libs id uid user' feedback info support (r.setUser uid user')).room := by
  have hmember := member_setUser_of_eq huser hsame
  have hfilled := openPublish_filled libs (r.setUser uid user') uid support
  unfold publishOffer
  split
  · exact .publishFails uid user sdp _ ⟨hmember, rfl, rfl, Nat.le_succ r.made⟩
  · split
    · rename_i st e hopen
      rw [hopen] at hfilled
      refine .publishFails uid user sdp _ ⟨hmember, ?_, rfl, ?_⟩
      · exact hfilled.proper.destruct_recv _
      · exact hfilled.started
    · rename_i st hopen
      rw [hopen] at hfilled
      split
      · refine .publishFails uid user sdp _ ⟨hmember, ?_, rfl, ?_⟩
        · exact hfilled.proper.destruct_recv _
        · exact hfilled.started
      · refine .publish uid user sdp st.session _ huser hfilled ?_ rfl rfl
        have hset := member_setUser (r.setUser uid user') uid
          { user' with publishSessions := user'.publishSessions.assign st.session.id st.session }
        rw [hmember, UserInfo.member_addPublish, hsame] at hset
        exact hset

theorem handlePublish_effect :
    Effect libs r ((r.checkPublish data).toOption.map fun t => .publish t.1 t.2.1 t.2.2)
      (handlePublish libs id data feedback r).room := by
  unfold handlePublish
  split
  · rename_i refusal hcheck
    exact effect_refuse hcheck
  · rename_i uid user sdp hcheck
    rw [hcheck]
    have huser := (checkPublish_ok hcheck).2
    split
    · exact .publishFails uid user sdp r ⟨rfl, rfl, rfl, Nat.le_refl _⟩
    · rename_i infoJson hparse
      have hsame := readOffer_member user infoJson
      split
      · rename_i user' hread
        rw [hread] at hsame
        exact .publishFails uid user sdp _
          ⟨member_setUser_of_eq huser hsame, rfl, rfl, Nat.le_refl _⟩
      · rename_i user' info support hread
        rw [hread] at hsame
        exact publishOffer_effect huser hsame

theorem handleUnpublish_effect :
    Effect libs r
      ((r.checkUnpublish data).toOption.map fun t => .unpublish t.1 t.2.1 t.2.2.1 t.2.2.2)
      (handleUnpublish id data feedback r).room := by
  unfold handleUnpublish
  split
  · rename_i refusal hcheck
    exact effect_refuse hcheck
  · rename_i uid user pcid s hcheck
    rw [hcheck]
    obtain ⟨-, huser, -, hs⟩ := checkUnpublish_ok hcheck
    refine .unpublish uid user pcid s _ huser hs ?_ rfl rfl rfl
    have hset := member_setUser r uid
      { user with publishSessions := user.publishSessions.erase pcid }
    rw [UserInfo.member_removePublish] at hset
    exact hset

theorem openSubscribe_joined (libs : RoomLibs) (r : Room) (uid remoteUid : Bytes)
    (medias : List MediaRtcInfo) :
    Joined libs r.made r.pid2subscribers (medias.map MediaRtcInfo.publisherId)
      (r.openSubscribe libs uid remoteUid medias).1 := by
  refine (createSubscribers_joined ?_ fun media hmedia => List.mem_map_of_mem hmedia).1
  refine ⟨filled_new uid .send medias, fun p t x hx => .inl hx, fun p hp => .inl hp,
    fun p t x hx => hx⟩

theorem subscribeMedias_effect {sub : Subscription} {user : UserInfo} {info support : RtcMediaInfo}
    {medias : List MediaRtcInfo} (huser : r.users.find? sub.uid = some sub.user)
    (hsame : user.member = sub.user.member) (hoffer : offerOf libs sub = some (info, support))
    (hbind : support.medias.mapM (bindMedia sub.remoteSession sub.publishers) = some medias) :
    Effect libs r (some (.subscribe sub))
      (subscribeMedias libs id sub.uid sub.remoteUid user feedback info { support with medias }
        (r.setUser sub.uid user)).room := by
  have hmember := member_setUser_of_eq huser hsame
  have hjoined := openSubscribe_joined libs (r.setUser sub.uid user) sub.uid sub.remoteUid
    medias
  unfold subscribeMedias
  split
  · exact .subscribeFails sub _ ⟨hmember, rfl, rfl, Nat.le_succ r.made⟩
  · simp only
    generalize (r.setUser sub.uid user).openSubscribe libs sub.uid sub.remoteUid medias =
      opened at hjoined ⊢
    -- the session is held by the user, however the loop and the answer end
    have heffect : ∀ r', r'.member = Function.update r.member sub.uid
          (some (sub.user.member.add .send opened.1.session)) →
        r'.pid2subscribers = opened.1.subscribers → r'.announced = r.announced →
        r'.made = opened.1.made → Effect libs r (some (.subscribe sub)) r' :=
      fun r' h₁ h₂ h₃ h₄ =>
        .subscribe sub info support medias _ r' huser hoffer hbind hjoined h₁ h₂ h₃ h₄
    have hset := member_setUser (r.setUser sub.uid user) sub.uid
      { user with
        subscribeSessions := user.subscribeSessions.assign opened.1.session.id opened.1.session }
    rw [hmember, UserInfo.member_addSubscribe, hsame] at hset
    split
    · exact heffect _ hset rfl rfl rfl
    · split
      · exact heffect _ hset rfl rfl rfl
      · exact heffect _ hset rfl rfl rfl

theorem handleSubscribe_effect :
    Effect libs r ((r.checkSubscribe data).toOption.map .subscribe)
      (handleSubscribe libs id data feedback r).room := by
  unfold handleSubscribe
  split
  · rename_i refusal hcheck
    exact effect_refuse hcheck
  · rename_i sub hcheck
    rw [hcheck]
    have huser := (checkSubscribe_ok hcheck).2.1
    split
    · exact .subscribeFails sub r ⟨rfl, rfl, rfl, Nat.le_refl _⟩
    · rename_i infoJson hparse
      have hsame := readOffer_member sub.user infoJson
      split
      · rename_i user' hread
        rw [hread] at hsame
        exact .subscribeFails sub _ ⟨member_setUser_of_eq huser hsame, rfl, rfl, Nat.le_refl _⟩
      · rename_i user' info support hread
        rw [hread] at hsame
        simp only
        split
        · rw [refuse_room]
          exact .subscribeFails sub _ ⟨member_setUser_of_eq huser hsame, rfl, rfl, Nat.le_refl _⟩
        · rename_i medias hbind
          refine subscribeMedias_effect huser hsame ?_ hbind
          rw [offerOf, hparse, Option.bind_some, hread]

/-- What an unsubscribe request leaves, whether it has a list of publishers or not. -/
theorem handleUnsubscribe_room {uid pcid : Bytes} {user : UserInfo} {s : RtcBaseSession}
    (hcheck : r.checkUnsubscribe data = .ok (uid, user, pcid, s)) :
    (handleUnsubscribe id data feedback r).room =
      { r.setUser uid { user with subscribeSessions := user.subscribeSessions.erase pcid } with
        pid2subscribers :=
          erasePublishers (s.destruct r.pid2subscribers) (namedPublishers data) } := by
  unfold handleUnsubscribe namedPublishers
  simp only [hcheck]
  cases data.find "publishers" with
  | none => exact refuse_room _
  | some publishers => rfl

theorem handleUnsubscribe_effect :
    Effect libs r
      ((r.checkUnsubscribe data).toOption.map fun t =>
        .unsubscribe t.1 t.2.1 t.2.2.1 t.2.2.2 (namedPublishers data))
      (handleUnsubscribe id data feedback r).room := by
  rcases hcheck : r.checkUnsubscribe data with refusal | ⟨uid, user, pcid, s⟩
  · rw [handleUnsubscribe, hcheck, refuse_room]
    exact .refused
  · obtain ⟨-, huser, -, hs⟩ := checkUnsubscribe_ok hcheck
    rw [handleUnsubscribe_room hcheck]
    refine .unsubscribe uid user pcid s _ _ huser hs ?_ rfl rfl rfl
    have hset := member_setUser r uid
      { user with subscribeSessions := user.subscribeSessions.erase pcid }
    rw [UserInfo.member_removeSubscribe] at hset
    exact hset

theorem onRequest_effect {method : Bytes} :
    Effect libs r (action (.request id method data feedback) r)
      (onRequest libs id method data feedback r).room := by
  unfold onRequest action
  simp only
  split_ifs
  · exact handleJoin_effect
  · exact handlePublish_effect
  · exact handleUnpublish_effect
  · exact handleSubscribe_effect
  · exact handleUnsubscribe_effect
  · exact .refused

theorem onNotification_effect {method : Bytes} :
    Effect libs r (action (.notification method data) r) (onNotification method data r).room := by
  unfold onNotification action
  simp only
  split_ifs
  · split
    · rename_i refusal hcheck
      rw [hcheck]
      exact .refused
    · rename_i uid user hcheck
      rw [hcheck]
      exact .close uid user (checkClose_ok hcheck).2
  · exact .refused

theorem handle_effect (e : Event) : Effect libs r (action e r) (handle libs e r).room := by
  cases e with
  | request id method data feedback => exact onRequest_effect
  | notification method data => exact onNotification_effect

theorem step_eq {e : Event} {r' : Room} (h : step libs e r = .ok r') :
    r' = (handle libs e r).room := by
  unfold step at h
  split at h
  · cases h
  · cases h
    rfl

/-- What a step does to the room. -/
theorem step_effect {e : Event} {r' : Room} (h : step libs e r = .ok r') :
    Effect libs r (action e r) r' := by
  rw [step_eq h]
  exact handle_effect e

end Handlers

end Room

end MediaServer
