import Mathlib.Tactic.Common
import MediaServer.Webrtc.Forwarding
import MediaServer.Webrtc.HeldSessions
import MediaServer.Webrtc.PublisherIndexes

/-!
# Requests for key frames

A player that cannot decode asks for a key frame by the number of the stream that it gets.
The session finds the subscriber for the number, and the room looks through the sessions of
all users for the publisher of that subscriber.

* `Lined` and `Bound` are what holds of the publishers and of the subscribers of a session.
  `Matched` is the invariant of the room: a subscriber has the number of its publisher.
* `getSubscriber_createSubscriber`: the lookup by number is the map that the program fills.
* `keyframe_requests`: a request goes to the session of the publisher, to no other one and
  only once, if the number of the media stream is in a line of the publisher, and else
  nowhere.
-/

namespace MediaServer

namespace RtcBaseSession

open Room

variable {libs : RoomLibs} {s s' : RtcBaseSession} {p : RtcPublisher}

/-! ## The publishers of a session -/

/-- What holds of the publishers of a session, which has no subscribers. -/
structure Lined (s : RtcBaseSession) : Prop where
  own : ∀ pid p, s.pid2publishers.find? pid = some p →
    p.pid = pid ∧ StreamInfo.ofMedia p.mediaInfo = .ok p.stream
  lines : ∀ n p, s.ssrc2publishers.find? n = some p ↔
    s.pid2publishers.find? p.pid = some p ∧ ∃ info ∈ p.mediaInfo.ssrcInfos, info.ssrc = n
  alone : s.mid2subscribers = .empty

theorem lined_new (id uid : Bytes) (direction : RtcDirection) (medias : List MediaRtcInfo) :
    Lined { id, uid, direction, medias } where
  own pid p h := by cases h
  lines n p := by simp
  alone := rfl

theorem Lined.addPublisher (h : Lined s) (hnew : s.hasPublisher p.mediaInfo = false)
    (hpid : s.pid2publishers.find? p.pid = none)
    (hstream : StreamInfo.ofMedia p.mediaInfo = .ok p.stream) : Lined (s.addPublisher p) := by
  have hself : (s.addPublisher p).pid2publishers.find? p.pid = some p :=
    OrderedMap.find?_assign_self
  have hothers : ∀ i, i ≠ p.pid →
      (s.addPublisher p).pid2publishers.find? i = s.pid2publishers.find? i := fun i hi =>
    OrderedMap.find?_assign_of_ne hi
  rw [hasPublisher, Bool.or_eq_false_iff] at hnew
  have hfree : ∀ info ∈ p.mediaInfo.ssrcInfos, s.ssrc2publishers.find? info.ssrc = none := by
    intro info hinfo
    have hnone := List.any_eq_false.mp hnew.2 info hinfo
    rw [Option.not_isSome_iff_eq_none] at hnone
    exact hnone
  refine ⟨fun i q hq => ?_, fun n q => ?_, h.alone⟩
  · by_cases hi : i = p.pid
    · rw [hi, hself] at hq
      cases hq
      exact ⟨hi.symm, hstream⟩
    · rw [hothers i hi] at hq
      exact h.own i q hq
  · have hssrcs : (s.addPublisher p).ssrc2publishers.find? n =
        if ∃ info ∈ p.mediaInfo.ssrcInfos, info.ssrc = n then some p
        else s.ssrc2publishers.find? n := find?_assignAll
    rw [hssrcs]
    by_cases hq : q.pid = p.pid
    · have hold : s.ssrc2publishers.find? n ≠ some q := by
        intro hn
        have hlisted := ((h.lines n q).mp hn).1
        rw [hq, hpid] at hlisted
        cases hlisted
      rw [hq, hself, Option.some.injEq]
      split_ifs with hline
      · rw [Option.some.injEq]
        constructor
        · rintro rfl
          exact ⟨rfl, hline⟩
        · exact fun hsame => hsame.1
      · refine iff_of_false hold ?_
        rintro ⟨rfl, hinfo⟩
        exact hline hinfo
    · rw [hothers q.pid hq, ← h.lines n q]
      split_ifs with hline
      · obtain ⟨info, hinfo, rfl⟩ := hline
        rw [hfree info hinfo]
        refine iff_of_false (fun heq => hq ?_) (by simp)
        rw [Option.some.inj heq]
      · exact Iff.rfl

theorem createPublishers_lined {uuid : Nat → Bytes} (hinj : ∀ m n, uuid m = uuid n → m = n)
    {start : Nat} {medias : List MediaRtcInfo} {st : Filling}
    (hfilled : Filled uuid start .recv st.session st.made) (hmedias : medias ⊆ st.session.medias)
    (h : Lined st.session) : Lined (createPublishers uuid medias st).1.session := by
  induction medias generalizing st with
  | nil => exact h
  | cons media medias ih =>
    unfold createPublishers
    rcases hcreate : createPublisher uuid media st with e | st'
    · exact h
    · obtain ⟨hfilled', -, hsame⟩ :=
        createPublisher_filled hinj hfilled (hmedias List.mem_cons_self) hcreate
      refine ih hfilled' (hsame ▸ fun x hx => hmedias (List.mem_cons_of_mem _ hx)) ?_
      unfold createPublisher at hcreate
      split at hcreate
      · cases hcreate
        exact h
      · rename_i hhas
        split at hcreate
        · cases hcreate
        · rename_i stream hstream
          cases hcreate
          refine h.addPublisher (Bool.not_eq_true _ ▸ hhas) ?_ hstream
          rcases hold : st.session.pid2publishers.find? (uuid st.made) with _ | q
          · rfl
          · exact (hfilled.fresh.not_mem hinj (pid_mem_names hold)).elim

/-! ## The subscribers of a session -/

/-- What a subscriber was made of. -/
def Bound (medias : List MediaRtcInfo) (s : RtcBaseSession) : Prop :=
  ∀ mid x, s.mid2subscribers.find? mid = some x → x.mediaInfo ∈ medias ∧
    x.pid = x.mediaInfo.publisherId ∧ StreamInfo.ofMedia x.mediaInfo = .ok x.stream

theorem createSubscriber_made {sid remoteUid : Bytes} {media : MediaRtcInfo} {sub : RtcSubscriber}
    (h : s.createSubscriber sid remoteUid media = .ok (s', sub)) :
    sub.mediaInfo = media ∧ StreamInfo.ofMedia media = .ok sub.stream := by
  unfold createSubscriber at h
  split at h
  · cases h
  · split at h
    · cases h
    · rename_i stream hstream
      cases h
      exact ⟨rfl, hstream⟩

theorem createSubscribers_bound {remoteUid : Bytes} {all medias : List MediaRtcInfo}
    {st : Subscribing} (hmedias : medias ⊆ all) (h : Bound all st.session) :
    Bound all (createSubscribers libs remoteUid medias st).1.session := by
  induction medias generalizing st with
  | nil => exact h
  | cons media medias ih =>
    unfold createSubscribers
    split
    · exact h
    · rename_i session sub hcreate
      obtain ⟨-, -, hpid, -, rfl⟩ := createSubscriber_cases hcreate
      obtain ⟨hmedia, hstream⟩ := createSubscriber_made hcreate
      have hbound : Bound all
          { st.session with
            mid2subscribers := st.session.mid2subscribers.assign media.mid sub } := by
        intro mid x hx
        rw [OrderedMap.find?_assign] at hx
        split at hx
        · cases hx
          rw [hmedia]
          exact ⟨hmedias List.mem_cons_self, hpid, hstream⟩
        · exact h mid x hx
      split
      · exact hbound
      · exact @ih ⟨_, _, _⟩ (fun x hx => hmedias (List.mem_cons_of_mem _ hx)) hbound

/-- The number of the media stream comes from the lines of a section and from its groups. -/
theorem rtpSsrc_eq_of_lines {media media' : MediaRtcInfo} {stream stream' : StreamInfo}
    (h : StreamInfo.ofMedia media = .ok stream) (h' : StreamInfo.ofMedia media' = .ok stream')
    (hinfos : media.ssrcInfos = media'.ssrcInfos) (hgroups : media.ssrcGroups = media'.ssrcGroups) :
    stream.rtpSsrc = stream'.rtpSsrc := by
  have hfirst : ∀ {m : MediaRtcInfo} {t : StreamInfo}, StreamInfo.ofMedia m = .ok t →
      t.rtpSsrc = m.ssrcGroups.head?.elim (((m.ssrcInfos.getLast?).map SsrcInfo.ssrc).getD 0)
        fun group => group.ssrcs.headD 0 := by
    intro m t ht
    unfold StreamInfo.ofMedia at ht
    split at ht
    · cases ht
    · simp only at ht
      split at ht
      · cases ht
      · rename_i rtp rtx hssrcs
        cases ht
        unfold StreamInfo.ssrcsOf at hssrcs
        rcases hg : m.ssrcGroups with _ | ⟨group, groups⟩
        · rw [hg] at hssrcs
          cases hssrcs
          rfl
        · rw [hg] at hssrcs
          simp only at hssrcs
          simp only [List.head?_cons, Option.elim_some]
          split at hssrcs
          all_goals rename_i hlist
          all_goals cases hssrcs
          all_goals rw [hlist]
          all_goals rfl
  rw [hfirst h, hfirst h', hinfos, hgroups]

/-! ## The lookup by number -/

section Lookup

variable {m : OrderedMap Nat RtcSubscriber} {subs : List RtcSubscriber} {n : Nat}
  {x sub : RtcSubscriber}

theorem find?_insertSsrc (m : OrderedMap Nat RtcSubscriber) (sub : RtcSubscriber) (n : Nat) :
    (insertSsrc m sub).find? n =
      (m.find? n).or (if n = sub.stream.rtpSsrc then some sub else none) := by
  unfold insertSsrc
  rcases hold : m.find? sub.stream.rtpSsrc with _ | y
  · simp only
    rw [OrderedMap.find?_assign]
    by_cases hn : n = sub.stream.rtpSsrc
    · rw [hn, hold]
      simp
    · simp [hn]
  · simp only
    by_cases hn : n = sub.stream.rtpSsrc
    · rw [hn, hold, Option.some_or]
    · simp [hn]

/-- A subscriber that is in the map is not inserted again. -/
theorem insertSsrc_of_isSome (h : (m.find? sub.stream.rtpSsrc).isSome) : insertSsrc m sub = m := by
  obtain ⟨y, hy⟩ := Option.isSome_iff_exists.mp h
  rw [insertSsrc, hy]

theorem isSome_foldl_insertSsrc :
    ((subs.foldl insertSsrc m).find? n).isSome ↔
      (m.find? n).isSome ∨ ∃ x ∈ subs, x.stream.rtpSsrc = n := by
  induction subs generalizing m with
  | nil => simp
  | cons y subs ih =>
    rw [List.foldl_cons, ih, find?_insertSsrc, List.exists_mem_cons_iff]
    by_cases hn : n = y.stream.rtpSsrc
    · simp [hn]
    · simp [hn, Ne.symm hn]

/-- Subscribers that are in the map already. -/
theorem foldl_insertSsrc_of_isSome (h : ∀ x ∈ subs, (m.find? x.stream.rtpSsrc).isSome) :
    subs.foldl insertSsrc m = m := by
  induction subs with
  | nil => rfl
  | cons x subs ih =>
    rw [List.forall_mem_cons] at h
    rw [List.foldl_cons, insertSsrc_of_isSome h.1, ih h.2]

theorem find?_foldl_insertSsrc (h : (subs.foldl insertSsrc m).find? n = some x) :
    m.find? n = some x ∨ x ∈ subs ∧ x.stream.rtpSsrc = n := by
  induction subs generalizing m with
  | nil => exact .inl h
  | cons y subs ih =>
    rw [List.foldl_cons] at h
    rcases ih h with hold | ⟨hx, hn⟩
    · rw [find?_insertSsrc, Option.or_eq_some_iff] at hold
      rcases hold with hold | ⟨-, hnew⟩
      · exact .inl hold
      · split at hnew
        · rename_i hn
          cases hnew
          exact .inr ⟨List.mem_cons_self, hn.symm⟩
        · cases hnew
    · exact .inr ⟨List.mem_cons_of_mem _ hx, hn⟩

/-- What the lookup finds is a subscriber of the session with that number. -/
theorem getSubscriber_some (h : s.getSubscriber n = some x) :
    (∃ mid, s.mid2subscribers.find? mid = some x) ∧ x.stream.rtpSsrc = n := by
  rcases find?_foldl_insertSsrc h with hnone | ⟨hx, hn⟩
  · cases hnone
  · obtain ⟨media, -, hmedia⟩ := List.mem_filterMap.mp hx
    exact ⟨⟨media.mid, hmedia⟩, hn⟩

/-- The subscribers of the sections that have been gone through, `done`, and no others. -/
def Reached (s : RtcBaseSession) (done : List MediaRtcInfo) : Prop :=
  ∀ mid, (s.mid2subscribers.find? mid).isSome ↔ ∃ media ∈ done, media.mid = mid

/-- `create_subscriber` inserts the new subscriber under the number of its stream. -/
theorem getSubscriber_createSubscriber {sid remoteUid : Bytes} {media : MediaRtcInfo}
    {done rest : List MediaRtcInfo} (hmedias : s.medias = done ++ media :: rest)
    (hreached : Reached s done)
    (hcreate : s.createSubscriber sid remoteUid media = .ok (s', sub)) :
    s'.ssrc2subscribers = insertSsrc s.ssrc2subscribers sub ∧ Reached s' (done ++ [media]) := by
  obtain ⟨hnone, -, -, -, rfl⟩ := createSubscriber_cases hcreate
  have hfind : ∀ mid, (s.mid2subscribers.assign media.mid sub).find? mid =
      if mid = media.mid then some sub else s.mid2subscribers.find? mid := fun mid =>
    OrderedMap.find?_assign
  have hsome : ∀ d ∈ done, (s.mid2subscribers.find? d.mid).isSome := fun d hd =>
    (hreached d.mid).mpr ⟨d, hd, rfl⟩
  have hdone : done.filterMap (fun d => (s.mid2subscribers.assign media.mid sub).find? d.mid) =
      done.filterMap fun d => s.mid2subscribers.find? d.mid := by
    refine List.filterMap_congr fun d hd => ?_
    rw [hfind, if_neg]
    intro heq
    have := hsome d hd
    rw [heq, hnone] at this
    cases this
  -- a section behind this one has no subscriber, or one that is there already
  have hthere : ∀ other x, s.mid2subscribers.find? other = some x →
      (((done.filterMap fun d => s.mid2subscribers.find? d.mid).foldl insertSsrc .empty).find?
        x.stream.rtpSsrc).isSome := by
    intro other x hx
    obtain ⟨d, hd, hmid⟩ := (hreached other).mp (Option.isSome_iff_exists.mpr ⟨x, hx⟩)
    refine isSome_foldl_insertSsrc.mpr (.inr ⟨x, ?_, rfl⟩)
    exact List.mem_filterMap.mpr ⟨d, hd, hmid ▸ hx⟩
  have hbefore : s.ssrc2subscribers =
      (done.filterMap fun d => s.mid2subscribers.find? d.mid).foldl insertSsrc .empty := by
    unfold ssrc2subscribers subscribers
    simp only [hmedias, List.filterMap_append, List.filterMap_cons, hnone, List.foldl_append]
    refine foldl_insertSsrc_of_isSome fun x hx => ?_
    obtain ⟨other, -, hother⟩ := List.mem_filterMap.mp hx
    exact hthere other.mid x hother
  refine ⟨?_, fun mid => ?_⟩
  · rw [hbefore]
    unfold ssrc2subscribers subscribers
    simp only [hmedias, List.filterMap_append, List.filterMap_cons, hfind media.mid, if_true,
      List.foldl_append, List.foldl_cons, hdone]
    refine foldl_insertSsrc_of_isSome fun x hx => ?_
    obtain ⟨other, -, hother⟩ := List.mem_filterMap.mp hx
    rw [hfind] at hother
    rw [find?_insertSsrc, Option.isSome_or, Bool.or_eq_true]
    split at hother
    · cases hother
      exact .inr (by simp)
    · exact .inl (hthere other.mid x hother)
  · show ((s.mid2subscribers.assign media.mid sub).find? mid).isSome ↔ _
    rw [hfind]
    by_cases hmid : mid = media.mid
    · simp [hmid]
    · simp [hmid, hreached mid, Ne.symm hmid]

end Lookup

end RtcBaseSession

namespace Room

open RtcBaseSession

variable {libs : RoomLibs} {r r' : Room} {uid pid : Bytes} {n : Nat} {s t : RtcBaseSession}
  {p : RtcPublisher} {x : RtcSubscriber}

/-! ## The sessions of a room -/

theorem Opened.lined (h : Opened libs r .recv s) : Lined s := by
  cases h with
  | publish uid support st hopen =>
    have hlined : Lined (r.openPublish libs uid support).1.session := by
      have hfilled : Filled libs.uuid r.made .recv
          { id := libs.uuid r.made, uid, direction := .recv, medias := support.medias }
          (r.made + 1) := filled_new uid .recv support.medias
      unfold openPublish
      exact createPublishers_lined libs.uuidInjective hfilled (List.Subset.refl support.medias)
        (lined_new _ uid .recv support.medias)
    rw [hopen] at hlined
    exact hlined

/-- The names of a new session are new. -/
theorem Opened.fresh {kind : RtcDirection} (h : Opened libs r kind s) {name : Bytes}
    (hname : name ∈ s.names) : ∃ n, r.made ≤ n ∧ name = libs.uuid n := by
  cases h with
  | publish uid support st hopen =>
    have hfilled := openPublish_filled libs r uid support
    rw [hopen] at hfilled
    obtain ⟨n, hn, -, heq⟩ := hfilled.fresh name hname
    exact ⟨n, hn, heq⟩
  | subscribe sub offer support medias hremote hsupport hbind =>
    obtain ⟨n, hn, -, heq⟩ :=
      (openSubscribe_joined libs r sub.uid sub.remoteUid medias).filled.fresh name hname
    exact ⟨n, hn, heq⟩

/-- The sections of an answer name no publisher. -/
theorem publisherId_of_support {offer support : RtcMediaInfo} {media : MediaRtcInfo}
    (h : SupportRtcInfo.getSupportRtcMedia offer = some support) (hmedia : media ∈ support.medias) :
    media.publisherId = [] := by
  rw [SupportRtcInfo.getSupportRtcMedia] at h
  split at h
  · cases h
  · rename_i medias hmedias
    cases h
    obtain ⟨answer, hanswer, rfl⟩ := List.mem_map.mp hmedia
    obtain ⟨offered, -, hoffered⟩ :=
      RelatedLists.exists_of_mem_forall₂ (RelatedLists.forall₂_of_mapM hmedias) hanswer
    rw [SupportRtcInfo.getSupportMedia] at hoffered
    split at hoffered
    · cases hoffered
    · cases hoffered
      rfl

/-- The publishers stand under their lines, and a subscriber that has a publisher has the
number of its media stream. -/
structure Matched (libs : RoomLibs) (r : Room) : Prop where
  lined : ∀ uid s, Held r .recv uid s → Lined s
  bound : ∀ uid s mid x, Held r .send uid s → s.mid2subscribers.find? mid = some x →
    x.pid ≠ [] → (∃ n < r.made, x.pid = libs.uuid n) ∧
      ∀ uid' t p, Held r .recv uid' t → t.pid2publishers.find? x.pid = some p →
        p.stream.rtpSsrc = x.stream.rtpSsrc

/-- A subscriber of a new session has what its publisher has. -/
theorem Matched.opened (h : Matched libs r) (hnamed : Named libs r) {mid : Int}
    (hopened : Opened libs r .send s) (hx : s.mid2subscribers.find? mid = some x)
    (hpid : x.pid ≠ []) :
    ∃ uid t p, Held r .recv uid t ∧ t.pid2publishers.find? x.pid = some p ∧ p.pid = x.pid ∧
      p.stream.rtpSsrc = x.stream.rtpSsrc := by
  cases hopened with
  | subscribe sub offer support medias hremote hsupport hbind =>
    obtain ⟨uid, hremote⟩ := hremote
    have hbound : Bound medias (r.openSubscribe libs sub.uid sub.remoteUid medias).1.session :=
      createSubscribers_bound (List.Subset.refl _) fun mid x h => by cases h
    obtain ⟨hmedia, hxpid, hstream⟩ := hbound mid x hx
    obtain ⟨answer, hanswer, hbound⟩ :=
      RelatedLists.exists_of_mem_forall₂ (RelatedLists.forall₂_of_mapM hbind) hmedia
    rcases bindMedia_cases hbound with ⟨-, heq⟩ | ⟨info, p, -, hp, heq⟩
    · rw [heq, publisherId_of_support hsupport hanswer] at hxpid
      exact (hpid hxpid).elim
    · have hproper := hnamed.proper _ _ _ hremote
      have hlisted := (hproper.known info.mid p hp).2
      have hpid' : x.pid = p.pid := by rw [hxpid, heq]
      refine ⟨uid, sub.remoteSession, p, hremote, hpid' ▸ hlisted, hpid'.symm, ?_⟩
      refine rtpSsrc_eq_of_lines ((h.lined uid _ hremote).own p.pid p hlisted).2 hstream ?_ ?_
      · rw [heq]
      · rw [heq]

theorem Matched.step {e : Event} (h : Matched libs r) (hnamed : Named libs r)
    (hstep : step libs e r = .ok r') : Matched libs r' := by
  have hmade := (step_enters hnamed hstep).made_le
  -- a publisher with an id that was made before was there before
  have hold : ∀ {uid t p n}, Held r' .recv uid t → n < r.made →
      t.pid2publishers.find? (libs.uuid n) = some p → Held r .recv uid t := by
    intro uid t p n ht hn hp
    rcases step_held hnamed hstep ht with ht | hopened
    · exact ht
    · obtain ⟨k, hk, heq⟩ := hopened.fresh (pid_mem_names hp)
      have := libs.uuidInjective n k heq
      omega
  refine ⟨fun uid s hs => ?_, fun uid s mid x hs hx hpid => ?_⟩
  · rcases step_held hnamed hstep hs with hs | hopened
    · exact h.lined uid s hs
    · exact hopened.lined
  · rcases step_held hnamed hstep hs with hs | hopened
    · obtain ⟨⟨n, hn, heq⟩, hall⟩ := h.bound uid s mid x hs hx hpid
      refine ⟨⟨n, Nat.lt_of_lt_of_le hn hmade, heq⟩, fun uid' t p ht hp => ?_⟩
      exact hall uid' t p (hold ht hn (heq ▸ hp)) hp
    · obtain ⟨uid', t, p, ht, hp, hpx, hssrc⟩ := h.opened hnamed hopened hx hpid
      obtain ⟨n, hn, heq⟩ := hnamed.made _ _ _ ht x.pid (pid_mem_names hp)
      refine ⟨⟨n, Nat.lt_of_lt_of_le hn hmade, heq⟩, fun uid'' t' p' ht' hp' => ?_⟩
      obtain ⟨-, -, rfl⟩ := hnamed.unique _ _ _ _ _ _ x.pid (hold ht' hn (heq ▸ hp')) ht
        (pid_mem_names hp') (pid_mem_names hp)
      rw [hp, Option.some.injEq] at hp'
      rw [← hp', hssrc]

theorem matched_init {roomId : Bytes} : Matched libs { roomId } where
  lined _ _ hs := (not_held_init hs).elim
  bound _ _ _ _ hs := (not_held_init hs).elim

/-! ## Who is asked -/

/-- The session is one of those that the users hold. -/
theorem Named.held_of_findSession (h : Named libs r) (hs : r.findSession pid = some s) :
    ∃ kind uid, Held r kind uid s ∧ s.id = pid := by
  have hid := List.find?_some hs
  rw [decide_eq_true_eq] at hid
  obtain ⟨u, hu, hmem⟩ := List.mem_flatMap.mp (List.mem_of_find?_eq_some hs)
  obtain ⟨e, he, rfl⟩ := List.mem_map.mp hmem
  have huser := OrderedMap.find?_eq_some.mpr hu
  rcases List.mem_append.mp he with he | he
  · exact ⟨.recv, u.1, (h.held_publish huser (OrderedMap.find?_eq_some.mpr he)).1, hid⟩
  · exact ⟨.send, u.1, (h.held_subscribe huser (OrderedMap.find?_eq_some.mpr he)).1, hid⟩

/-- The publisher that the loop finds in the sessions of a user. -/
theorem publisherOf_some {user : UserInfo} {e : RtcBaseSession × RtcPublisher}
    (h : publisherOf pid n user = some e) :
    ∃ k, user.publishSessions.find? k = some e.1 ∧ e.1.ssrc2publishers.find? n = some e.2 ∧
      e.2.pid = pid := by
  obtain ⟨⟨k, s⟩, hk, hfound⟩ := List.exists_of_findSome?_eq_some h
  obtain ⟨p, hp, heq⟩ := Option.map_eq_some_iff.mp hfound
  obtain ⟨hp, hpid⟩ := Option.filter_eq_some_iff.mp hp
  cases heq
  exact ⟨k, OrderedMap.find?_eq_some.mpr hk, hp, of_decide_eq_true hpid⟩

theorem publisherOf_isSome {user : UserInfo} {k : Bytes}
    (hs : user.publishSessions.find? k = some s) (hp : s.ssrc2publishers.find? n = some p)
    (hpid : p.pid = pid) : (publisherOf pid n user).isSome := by
  rw [publisherOf, List.findSome?_isSome_iff]
  refine ⟨(k, s), OrderedMap.find?_eq_some.mp hs, ?_⟩
  rw [hp, Option.filter_some, if_pos (decide_eq_true hpid)]
  rfl

/-- The one user whose sessions have what is looked for. -/
theorem filterMap_entries {α β : Type} {m : OrderedMap Bytes α} {f : Bytes × α → Option β}
    {k : Bytes} {v : α} (hk : m.find? k = some v)
    (hothers : ∀ e ∈ m.entries, e.1 ≠ k → f e = none) :
    m.entries.filterMap f = (f (k, v)).toList := by
  have hsplit : m.entries.filterMap f =
      (m.entries.filter fun e => decide (e.1 = k)).filterMap f := by
    rw [List.filterMap_filter]
    refine List.filterMap_congr fun e he => ?_
    split
    · rfl
    · rename_i hne
      exact hothers e he (by simpa using hne)
  rw [hsplit, m.filter_key fun e => decide_eq_true_iff, hk, Option.map_some, Option.toList_some]
  rcases hf : f (k, v) with _ | b
  · simp [hf]
  · simp [hf]

/-- The publisher that is looked for is held by one user, and only that user's turn of the
loop can ask for a key frame. -/
theorem Matched.onRequestKeyframe_eq (h : Matched libs r) (hnamed : Named libs r)
    (ht : Held r .recv uid t) (hp : t.pid2publishers.find? pid = some p) :
    r.onRequestKeyframe pid p.stream.rtpSsrc =
      if ∃ info ∈ p.mediaInfo.ssrcInfos, info.ssrc = p.stream.rtpSsrc then
        [.keyframe t.id pid p.stream.rtpSsrc]
      else [] := by
  obtain ⟨m, hm, hfind⟩ := id ht
  obtain ⟨user, huser, rfl⟩ := exists_of_member hm
  have hlined := h.lined uid t ht
  have hpid := (hlined.own pid p hp).1
  -- what any turn of the loop finds is this publisher
  have hfound : ∀ u user' e, r.users.find? u = some user' →
      publisherOf pid p.stream.rtpSsrc user' = some e → u = uid ∧ e = (t, p) ∧
        ∃ info ∈ p.mediaInfo.ssrcInfos, info.ssrc = p.stream.rtpSsrc := by
    intro u user' e huser' he
    obtain ⟨k, hk, hssrc, hepid⟩ := publisherOf_some he
    obtain ⟨hheld, -⟩ := hnamed.held_publish huser' hk
    obtain ⟨hlisted, hline⟩ := ((h.lined u e.1 hheld).lines _ _).mp hssrc
    rw [hepid] at hlisted
    obtain ⟨-, rfl, hsession⟩ := hnamed.unique _ _ _ _ _ _ pid hheld ht (pid_mem_names hlisted)
      (pid_mem_names hp)
    rw [hsession, hp, Option.some.injEq] at hlisted
    rw [← hlisted] at hline
    exact ⟨rfl, Prod.ext hsession hlisted.symm, hline⟩
  have hothers : ∀ e ∈ r.users.entries, e.1 ≠ uid →
      ((publisherOf pid p.stream.rtpSsrc e.2).bind fun e =>
        requestKeyframe p.stream.rtpSsrc e.1 e.2) = none := by
    intro e he hne
    rcases hpub : publisherOf pid p.stream.rtpSsrc e.2 with _ | found
    · rfl
    · obtain ⟨hsame, -⟩ := hfound e.1 e.2 found (OrderedMap.find?_eq_some.mpr he) hpub
      exact (hne hsame).elim
  rw [onRequestKeyframe, filterMap_entries huser hothers]
  rcases hpub : publisherOf pid p.stream.rtpSsrc user with _ | found
  · rw [if_neg]
    · rfl
    · intro hline
      have hssrc := (hlined.lines _ p).mpr ⟨hpid ▸ hp, hline⟩
      have hsome := publisherOf_isSome (n := p.stream.rtpSsrc) hfind hssrc hpid
      rw [hpub] at hsome
      cases hsome
  · obtain ⟨-, rfl, hline⟩ := hfound uid user found huser hpub
    rw [if_pos hline, Option.bind_some, requestKeyframe, if_neg (not_not.mpr rfl), hpid]
    rfl

/-- Nobody is asked for a publisher that is not there. -/
theorem Matched.onRequestKeyframe_nil (h : Matched libs r) (hnamed : Named libs r)
    (hgone : ¬Published r pid) : r.onRequestKeyframe pid n = [] := by
  refine List.filterMap_eq_nil_iff.mpr fun e he => ?_
  rcases hpub : publisherOf pid n e.2 with _ | found
  · rfl
  · obtain ⟨k, hk, hssrc, hpid⟩ := publisherOf_some hpub
    have huser := OrderedMap.find?_eq_some.mpr he
    obtain ⟨hheld, -⟩ := hnamed.held_publish huser hk
    obtain ⟨hlisted, -⟩ := ((h.lined e.1 found.1 hheld).lines _ _).mp hssrc
    rw [hpid] at hlisted
    exact (hgone ⟨e.1, e.2, k, found.1, found.2, huser, hk, hlisted⟩).elim

end Room

namespace RoomMedia

variable {libs : RoomLibs} {s s' : RoomMedia}

open Room RtcBaseSession

theorem run_matched {roomId : Bytes} {events : List Event}
    (hrun : Run.run (step libs) events { room := { roomId } } = .ok s) :
    Sound libs s.room ∧ Matched libs s.room := by
  refine @Run.run_preserves RoomMedia Halt Event (step libs)
    (fun s => Sound libs s.room ∧ Matched libs s.room) ?_ events _ s
    ⟨sound_init, matched_init⟩ hrun
  intro e s s' h hstep
  rcases (step_does hstep).room_cases with hroom | ⟨e, hstep, -, -⟩
  · exact hroom ▸ h
  · exact ⟨h.1.step hstep, h.2.step h.1.named hstep⟩

/-- **A request for a key frame** by a player goes to the session of the publisher that it
watches, to no other one and only once, if the number of the media stream stands in a line
of the publisher.  It goes nowhere when there is no such line, or when the publisher has
gone. -/
theorem keyframe_requests (libs : RoomLibs) (roomId : Bytes) (events : List Event) (s : RoomMedia)
    (hrun : Run.run (step libs) events { room := { roomId } } = .ok s) (id : Bytes)
    (mediaSsrc : UInt32) (session : RtcBaseSession) (sub : RtcSubscriber)
    (hsession : s.room.findSession id = some session)
    (hsub : session.getSubscriber mediaSsrc.toNat = some sub) (hpid : sub.pid ≠ []) :
    ∃ s', step libs (.pspli id mediaSsrc) s = .ok s' ∧ s'.room = s.room ∧
      (∀ uid t p, Held s.room .recv uid t → t.pid2publishers.find? sub.pid = some p →
        p.stream.rtpSsrc = mediaSsrc.toNat ∧
        s'.sent = s.sent ++
          if ∃ info ∈ p.mediaInfo.ssrcInfos, info.ssrc = p.stream.rtpSsrc then
            [.keyframe t.id sub.pid mediaSsrc.toNat]
          else []) ∧
      (¬Published s.room sub.pid → s'.sent = s.sent) := by
  obtain ⟨hsound, hmatched⟩ := run_matched hrun
  obtain ⟨kind, uid, hheld, -⟩ := hsound.named.held_of_findSession hsession
  obtain ⟨⟨mid, hmid⟩, hssrc⟩ := getSubscriber_some hsub
  have hkind : kind = .send := by
    cases kind with
    | send => rfl
    | recv =>
      rw [(hmatched.lined uid session hheld).alone] at hmid
      cases hmid
  subst hkind
  have hdirection := (hsound.named.proper _ _ _ hheld).direction
  have hrequest : s.onKeyframeRequest session mediaSsrc =
      s.send (s.room.onRequestKeyframe sub.pid sub.stream.rtpSsrc) := by
    rw [onKeyframeRequest, if_neg (not_not.mpr hdirection), hsub]
  refine ⟨s.onKeyframeRequest session mediaSsrc, ?_, ?_, fun uid' t p ht hp => ?_, fun hgone => ?_⟩
  · simp only [step, atSession, hsession]
  · rw [hrequest]
    rfl
  · have hsame := (hmatched.bound uid session mid sub hheld hmid hpid).2 uid' t p ht hp
    refine ⟨hsame.trans hssrc, ?_⟩
    rw [hrequest, ← hssrc, ← hsame]
    show s.sent ++ _ = _
    rw [hmatched.onRequestKeyframe_eq hsound.named ht hp]
  · rw [hrequest]
    show s.sent ++ _ = _
    rw [hmatched.onRequestKeyframe_nil hsound.named hgone, List.append_nil]

/-- `a` publishes, and `b` subscribes to that. -/
def watchEvents : List Event :=
  [.room (joinOf "a" 1), .room (joinOf "b" 2), .room (publishOf "a" 1),
    .room (subscribeOf "b" "a" 0 1 2)]

/-- What the request of `b` finds: the publisher of its subscriber, and the session of `a` with
the number of its stream. -/
structure Found where
  pid : Bytes
  direction : RtcDirection
  session : Bytes
  lines : List Nat
  rtpSsrc : Nat
  deriving DecidableEq

/-- What is found from the subscriber of `b`. -/
def foundIn (s : RoomMedia) : Option Found :=
  (s.room.findSession (sampleLibs.uuid 2)).bind fun session =>
    (session.getSubscriber 7).bind fun sub =>
      (s.room.findSession (sampleLibs.uuid 0)).bind fun t =>
        (t.pid2publishers.find? (sampleLibs.uuid 1)).map fun p =>
          { pid := sub.pid, direction := t.direction, session := t.id
            lines := p.mediaInfo.ssrcInfos.map SsrcInfo.ssrc, rtpSsrc := p.stream.rtpSsrc }

theorem keyframe_requests_one :
    ∃ s s', Run.run (step sampleLibs) watchEvents { room := { roomId := ascii "room" } } = .ok s ∧
      step sampleLibs (.pspli (sampleLibs.uuid 2) 7) s = .ok s' ∧
      s'.sent = s.sent ++ [.keyframe (sampleLibs.uuid 0) (sampleLibs.uuid 1) 7] := by
  obtain ⟨s, hrun, hfound⟩ := Run.exists_of_map_toOption (f := foundIn)
    (x := Run.run (step sampleLibs) watchEvents { room := { roomId := ascii "room" } })
    (b := some ⟨sampleLibs.uuid 1, .recv, sampleLibs.uuid 0, [7], 7⟩) (by decide +kernel)
  obtain ⟨session, hsession, hfound⟩ := Option.bind_eq_some_iff.mp hfound
  obtain ⟨sub, hsub, hfound⟩ := Option.bind_eq_some_iff.mp hfound
  obtain ⟨t, ht, hfound⟩ := Option.bind_eq_some_iff.mp hfound
  obtain ⟨p, hp, hpub⟩ := Option.map_eq_some_iff.mp hfound
  simp only [Found.mk.injEq] at hpub
  obtain ⟨hpid, hdirection, hid, hlines, hrtp⟩ := hpub
  obtain ⟨hsound, -⟩ := run_matched hrun
  obtain ⟨kind, uid, hheld, -⟩ := hsound.named.held_of_findSession ht
  obtain rfl : kind = .recv := (hsound.named.proper _ _ _ hheld).direction.symm.trans hdirection
  have hnonempty : sub.pid ≠ [] := by
    rw [hpid]
    decide
  obtain ⟨s', hstep, -, hasked, -⟩ := keyframe_requests sampleLibs (ascii "room") watchEvents s hrun
    (sampleLibs.uuid 2) 7 session sub hsession hsub hnonempty
  obtain ⟨-, hsent⟩ := hasked uid t p hheld (hpid ▸ hp)
  have hline : ∃ info ∈ p.mediaInfo.ssrcInfos, info.ssrc = p.stream.rtpSsrc := by
    refine List.mem_map.mp ?_
    rw [hlines, hrtp]
    exact List.mem_singleton_self 7
  rw [if_pos hline, hid, hpid] at hsent
  exact ⟨s, s', hrun, hstep, hsent⟩

end RoomMedia

end MediaServer
