import Mathlib.Tactic.Common
import MediaServer.Webrtc.LivePublishers
import MediaServer.Webrtc.SubscriberPlaces

/-!
# How the sessions of a room came about

A session that a room keeps was made for an offer, with publishers for the sections of the
offer, or with subscribers for sections that are bound to publishers.  It does not change
afterwards, so what holds of every new session holds of all sessions in every state.
`step_held` says of a session behind an event that it was held before or is new.
-/

namespace MediaServer

namespace Room

open RtcBaseSession

variable {libs : RoomLibs} {r r' : Room} {kind : RtcDirection} {uid : Bytes} {s : RtcBaseSession}
  {id : Bytes} {data : Json} {feedback : Connection}

/-- How a request makes a session that the room keeps. -/
inductive Opened (libs : RoomLibs) (r : Room) : RtcDirection → RtcBaseSession → Prop where
  | publish (uid : Bytes) (support : RtcMediaInfo) (st : Filling)
      (hopen : r.openPublish libs uid support = (st, none)) : Opened libs r .recv st.session
  | subscribe (sub : Subscription) (offer support : RtcMediaInfo) (medias : List MediaRtcInfo)
      (hremote : ∃ uid, Held r .recv uid sub.remoteSession)
      (hsupport : SupportRtcInfo.getSupportRtcMedia offer = some support)
      (hbind : support.medias.mapM (bindMedia sub.remoteSession sub.publishers) = some medias) :
      Opened libs r .send (r.openSubscribe libs sub.uid sub.remoteUid medias).1.session

/-! ## The two requests -/

theorem readOffer_support {user user' : UserInfo} {infoJson : Json} {info support : RtcMediaInfo}
    (h : readOffer user infoJson = (user', some (info, support))) :
    SupportRtcInfo.getSupportRtcMedia info = some support := by
  unfold readOffer at h
  simp only at h
  split at h
  · cases h
  · obtain ⟨support', hsupport, heq⟩ := Option.map_eq_some_iff.mp (congrArg Prod.snd h)
    cases heq
    exact hsupport

theorem publishOffer_held {user user' : UserInfo} {info support : RtcMediaInfo} {uid' : Bytes}
    (hnamed : Named libs r) (huser : r.users.find? uid' = some user)
    (hsame : user'.member = user.member)
    (hs : Held (publishOffer libs id uid' user' feedback info support (r.setUser uid' user')).room
      kind uid s) : Held r kind uid s ∨ Opened libs r kind s := by
  have hmember := member_setUser_of_eq huser hsame
  have hfilled := openPublish_filled libs (r.setUser uid' user') uid' support
  unfold publishOffer at hs
  split at hs
  · exact .inl ((held_of_member hmember).mp hs)
  · split at hs
    · exact .inl ((held_of_member hmember).mp hs)
    · rename_i st hopen
      rw [hopen] at hfilled
      split at hs
      · exact .inl ((held_of_member hmember).mp hs)
      · have hset := member_setUser (r.setUser uid' user') uid'
          { user' with publishSessions := user'.publishSessions.assign st.session.id st.session }
        rw [hmember, UserInfo.member_addPublish, hsame] at hset
        have hm := member_of_find? huser
        rcases (held_add hm hset (hnamed.find?_filled hm hfilled)).mp hs with hs | ⟨rfl, -, rfl⟩
        · exact .inl hs
        · exact .inr (.publish uid' support st hopen)

theorem handlePublish_held (hnamed : Named libs r)
    (hs : Held (handlePublish libs id data feedback r).room kind uid s) :
    Held r kind uid s ∨ Opened libs r kind s := by
  unfold handlePublish at hs
  split at hs
  · rw [refuse_room] at hs
    exact .inl hs
  · rename_i uid' user sdp hcheck
    have huser := (checkPublish_ok hcheck).2
    split at hs
    · exact .inl hs
    · rename_i infoJson hparse
      have hsame := readOffer_member user infoJson
      split at hs
      · rename_i user' hread
        rw [hread] at hsame
        exact .inl ((held_of_member (member_setUser_of_eq huser hsame)).mp hs)
      · rename_i user' info support hread
        rw [hread] at hsame
        exact publishOffer_held hnamed huser hsame hs

theorem subscribeMedias_held {sub : Subscription} {user : UserInfo} {info support : RtcMediaInfo}
    {medias : List MediaRtcInfo} (hnamed : Named libs r)
    (huser : r.users.find? sub.uid = some sub.user) (hsame : user.member = sub.user.member)
    (hs : Held (subscribeMedias libs id sub.uid sub.remoteUid user feedback info
      { support with medias } (r.setUser sub.uid user)).room kind uid s) :
    Held r kind uid s ∨
      kind = .send ∧ s = (r.openSubscribe libs sub.uid sub.remoteUid medias).1.session := by
  have hmember := member_setUser_of_eq huser hsame
  have hjoined := openSubscribe_joined libs (r.setUser sub.uid user) sub.uid sub.remoteUid medias
  unfold subscribeMedias at hs
  split at hs
  · exact .inl ((held_of_member hmember).mp hs)
  · have hset := member_setUser (r.setUser sub.uid user) sub.uid
      { user with
        subscribeSessions := user.subscribeSessions.assign
          (r.openSubscribe libs sub.uid sub.remoteUid medias).1.session.id
          (r.openSubscribe libs sub.uid sub.remoteUid medias).1.session }
    rw [hmember, UserInfo.member_addSubscribe, hsame] at hset
    have hm := member_of_find? huser
    have hnew : ∀ r', r'.member = Function.update r.member sub.uid (some (sub.user.member.add .send
        (r.openSubscribe libs sub.uid sub.remoteUid medias).1.session)) → Held r' kind uid s →
        Held r kind uid s ∨
          kind = .send ∧ s = (r.openSubscribe libs sub.uid sub.remoteUid medias).1.session := by
      intro r' hr' hs'
      rcases (held_add hm hr' (hnamed.find?_filled hm hjoined.filled)).mp hs' with hs | ⟨hk, -, hs⟩
      · exact .inl hs
      · exact .inr ⟨hk, hs⟩
    -- the user holds the session, however the loop and the answer end
    simp only at hs
    split at hs
    · exact hnew _ hset hs
    · split at hs
      · exact hnew _ hset hs
      · exact hnew _ hset hs

theorem handleSubscribe_held (hnamed : Named libs r)
    (hs : Held (handleSubscribe libs id data feedback r).room kind uid s) :
    Held r kind uid s ∨ Opened libs r kind s := by
  unfold handleSubscribe at hs
  split at hs
  · rw [refuse_room] at hs
    exact .inl hs
  · rename_i sub hcheck
    obtain ⟨-, huser, remoteUser, k, hremoteUser, hremote⟩ := checkSubscribe_ok hcheck
    split at hs
    · exact .inl hs
    · rename_i infoJson hparse
      have hsame := readOffer_member sub.user infoJson
      split at hs
      · rename_i user' hread
        rw [hread] at hsame
        exact .inl ((held_of_member (member_setUser_of_eq huser hsame)).mp hs)
      · rename_i user' info support hread
        rw [hread] at hsame
        simp only at hs
        split at hs
        · rw [refuse_room] at hs
          exact .inl ((held_of_member (member_setUser_of_eq huser hsame)).mp hs)
        · rename_i medias hbind
          rcases subscribeMedias_held hnamed huser hsame hs with hs | ⟨rfl, rfl⟩
          · exact .inl hs
          · refine .inr (.subscribe sub info support medias ⟨sub.remoteUid, ?_⟩
              (readOffer_support hread) hbind)
            exact (hnamed.held_publish hremoteUser hremote).1

/-! ## All events -/

/-- An event that opens no session. -/
theorem Effect.held {a : Option Action} (h : Effect libs r a r')
    (hpublish : ∀ uid user sdp, a ≠ some (.publish uid user sdp))
    (hsubscribe : ∀ sub, a ≠ some (.subscribe sub)) (hs : Held r' kind uid s) :
    Held r kind uid s := by
  cases h with
  | refused => exact hs
  | join uid' feedback hnew =>
    have hnone : r.member uid' = none := by rw [member, hnew, Option.map_none]
    refine (held_join hnone ?_ (member_setUser r uid' _)).mp hs
    intro kind
    cases kind <;> rfl
  | publishFails uid' user sdp _ hunseen => exact (hpublish uid' user sdp rfl).elim
  | publish uid' user sdp => exact (hpublish uid' user sdp rfl).elim
  | unpublish uid' user pcid t _ huser ht hmember =>
    exact ((held_remove (member_of_find? huser) hmember).mp hs).1
  | subscribeFails sub _ hunseen => exact (hsubscribe sub rfl).elim
  | subscribe sub => exact (hsubscribe sub rfl).elim
  | unsubscribe uid' user pcid t publishers _ huser ht hmember =>
    exact ((held_remove (member_of_find? huser) hmember).mp hs).1
  | close uid' user huser => exact ((held_close (member_removeUser r uid' user)).mp hs).1

theorem handle_publish_of_action {e : Event} {uid sdp : Bytes} {user : UserInfo}
    (h : action e r = some (.publish uid user sdp)) :
    ∃ id data feedback,
      (handle libs e r).room = (handlePublish libs id data feedback r).room := by
  cases e with
  | request id method data feedback =>
    unfold action at h
    simp only at h
    refine ⟨id, data, feedback, ?_⟩
    split_ifs at h with h₁ h₂
    all_goals obtain ⟨_, hcheck, heq⟩ := Run.exists_of_map_toOption h
    all_goals cases heq
    simp only [handle, onRequest, if_neg h₁, if_pos h₂]
  | notification method data =>
    unfold action at h
    simp only at h
    split_ifs at h
    obtain ⟨_, -, heq⟩ := Run.exists_of_map_toOption h
    cases heq

/-- A session behind a step was there, or the step has opened it. -/
theorem step_held {e : Event} (hnamed : Named libs r) (h : step libs e r = .ok r')
    (hs : Held r' kind uid s) : Held r kind uid s ∨ Opened libs r kind s := by
  by_cases hsubscribe : ∃ sub, action e r = some (.subscribe sub)
  · obtain ⟨sub, hsub⟩ := hsubscribe
    obtain ⟨id, data, feedback, hroom⟩ := @handle_subscribe_of_action libs r _ _ hsub
    rw [step_eq h, hroom] at hs
    exact handleSubscribe_held hnamed hs
  · by_cases hpublish : ∃ uid user sdp, action e r = some (.publish uid user sdp)
    · obtain ⟨uid', user, sdp, hpub⟩ := hpublish
      obtain ⟨id, data, feedback, hroom⟩ := @handle_publish_of_action libs r _ _ _ _ hpub
      rw [step_eq h, hroom] at hs
      exact handlePublish_held hnamed hs
    · refine .inl ((step_effect h).held (fun uid' user sdp heq => ?_) (fun sub heq => ?_) hs)
      · exact hpublish ⟨uid', user, sdp, heq⟩
      · exact hsubscribe ⟨sub, heq⟩

end Room

end MediaServer
