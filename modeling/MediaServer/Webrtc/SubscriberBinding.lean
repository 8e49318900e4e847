import MediaServer.Webrtc.RoomInvariant
import MediaServer.Webrtc.SupportedMedia

/-!
# The publishers of a subscribe request

A subscribe request names publishers of the remote session and brings an offer with a
section for each of them.  `handle_subscribe` goes over the sections and takes for each one
the first publisher of its type.  Nothing marks a publisher as taken, so a second publisher
of a type is never reached.

* `Added` is what the loop over the sections leaves in the map of the room, section by
  section, and `Gained` says the same of the sections of the offer.
* `BindsOnce` is what the request is for: each publisher gets one subscriber.
* `subscribe_binds_iff`: an accepted request does that exactly when no two of the publishers
  that it names are of one type.
-/

namespace MediaServer

namespace Subscribers

/-- What is inserted was not there. -/
theorem not_entry_of_insertSubscriber {m m' : Subscribers} {pid : Bytes} {sub : RtcSubscriber}
    (h : m.insertSubscriber pid sub = .ok m') (x : RtcSubscriber) : ¬Entry m pid sub.sid x := by
  rintro ⟨subs, hsubs, hx⟩
  rw [insertSubscriber, hsubs] at h
  simp only [hx] at h
  cases h

end Subscribers

namespace Room

open RtcBaseSession

variable {libs : RoomLibs} {r r' : Room}

/-! ## The subscribers of a session -/

/-- A subscriber of the session `id` for the section `media`. -/
structure Serves (id : Bytes) (media : MediaRtcInfo) (x : RtcSubscriber) : Prop where
  mediaInfo : x.mediaInfo = media
  pid : x.pid = media.publisherId
  session : x.session = id

/-- What the loop over `medias` has added: one subscriber for each section. -/
structure Added (st st' : Subscribing) (medias : List MediaRtcInfo)
    (added : List RtcSubscriber) : Prop where
  sections : List.Forall₂ (Serves st.session.id) medias added
  mids : (medias.map MediaRtcInfo.mid).Nodup
  free : ∀ media ∈ medias, st.session.mid2subscribers.find? media.mid = none
  fresh : ∀ x ∈ added, ∀ y, ¬Subscribers.Entry st.subscribers x.pid x.sid y
  entries : ∀ p t x, Subscribers.Entry st'.subscribers p t x ↔
    Subscribers.Entry st.subscribers p t x ∨ x ∈ added ∧ p = x.pid ∧ t = x.sid

theorem createSubscriber_serves {s s' : RtcBaseSession} {sid remoteUid : Bytes}
    {media : MediaRtcInfo} {sub : RtcSubscriber}
    (h : s.createSubscriber sid remoteUid media = .ok (s', sub)) : Serves s.id media sub := by
  unfold createSubscriber at h
  split at h
  · cases h
  · split at h
    · cases h
    · cases h
      exact ⟨rfl, rfl, rfl⟩

/-- The sections that come behind `media` have other numbers, and these are free. -/
theorem free_of_createSubscriber {s s' : RtcBaseSession} {sid remoteUid : Bytes}
    {media : MediaRtcInfo} {sub : RtcSubscriber} {mid : Int}
    (h : s.createSubscriber sid remoteUid media = .ok (s', sub))
    (hfree : s'.mid2subscribers.find? mid = none) :
    mid ≠ media.mid ∧ s.mid2subscribers.find? mid = none := by
  obtain ⟨-, -, -, -, rfl⟩ := createSubscriber_cases h
  simp only [OrderedMap.find?_assign] at hfree
  split at hfree
  · cases hfree
  · rename_i hne
    exact ⟨hne, hfree⟩

theorem createSubscribers_added {remoteUid : Bytes} {medias : List MediaRtcInfo}
    {st st' : Subscribing} (h : createSubscribers libs remoteUid medias st = (st', none)) :
    ∃ added, Added st st' medias added := by
  induction medias generalizing st with
  | nil =>
    cases h
    exact ⟨[], ⟨.nil, List.nodup_nil, by simp, by simp, by simp⟩⟩
  | cons media medias ih =>
    unfold createSubscribers at h
    split at h
    · cases h
    · rename_i session sub hcreate
      split at h
      · cases h
      · rename_i subscribers hinsert
        obtain ⟨added, hadded⟩ := ih h
        obtain ⟨hnone, -, hpid, -, hs⟩ := createSubscriber_cases hcreate
        have hid : session.id = st.session.id := by rw [hs]
        have hsections := hadded.sections
        rw [hid] at hsections
        have hfree := fun other hother =>
          free_of_createSubscriber hcreate (hadded.free other hother)
        refine ⟨sub :: added, .cons (createSubscriber_serves hcreate) hsections, ?_, ?_, ?_, ?_⟩
        · rw [List.map_cons, List.nodup_cons]
          refine ⟨?_, hadded.mids⟩
          intro hmem
          obtain ⟨other, hother, heq⟩ := List.mem_map.mp hmem
          exact (hfree other hother).1 heq
        · rw [List.forall_mem_cons]
          exact ⟨hnone, fun other hother => (hfree other hother).2⟩
        · rw [List.forall_mem_cons]
          refine ⟨?_, ?_⟩
          · rw [hpid]
            exact Subscribers.not_entry_of_insertSubscriber hinsert
          · intro x hx y hy
            exact hadded.fresh x hx y
              ((Subscribers.entry_insertSubscriber hinsert).mpr (.inl hy))
        · intro p t x
          rw [hadded.entries, Subscribers.entry_insertSubscriber hinsert, List.mem_cons, ← hpid]
          constructor
          · rintro ((hold | ⟨hp, ht, rfl⟩) | ⟨hx, hp, ht⟩)
            · exact .inl hold
            · exact .inr ⟨.inl rfl, hp, ht⟩
            · exact .inr ⟨.inr hx, hp, ht⟩
          · rintro (hold | ⟨rfl | hx, hp, ht⟩)
            · exact .inl (.inl hold)
            · exact .inl (.inr ⟨hp, ht, rfl⟩)
            · exact .inr ⟨hx, hp, ht⟩

/-! ## The sections of the offer -/

/-- The publisher that the loop finds for a section of the type `mediaType`. -/
def firstOf (publishers : List PublisherInfo) (mediaType : Bytes) : Option PublisherInfo :=
  publishers.find? fun info => info.mediaType = mediaType

/-- A subscriber for a section of the offer, with the publisher that the loop finds. -/
structure Binds (sub : Subscription) (id : Bytes) (media : MediaRtcInfo) (x : RtcSubscriber) :
    Prop where
  mid : x.mediaInfo.mid = media.mid
  mediaType : x.mediaInfo.mediaType = media.mediaType
  session : x.session = id
  pid : ∀ info p, firstOf sub.publishers media.mediaType = some info →
    sub.remoteSession.getPublisher info.mid = some p → x.pid = p.pid

/-- The loop changes neither the number nor the type of a section. -/
theorem bindMedia_section {remote : RtcBaseSession} {publishers : List PublisherInfo}
    {media media' : MediaRtcInfo} (h : bindMedia remote publishers media = some media') :
    media'.mid = media.mid ∧ media'.mediaType = media.mediaType ∧
      ∀ info p, firstOf publishers media.mediaType = some info →
        remote.getPublisher info.mid = some p → media'.publisherId = p.pid := by
  rcases bindMedia_cases h with ⟨hnone, rfl⟩ | ⟨first, q, hfirst, hq, rfl⟩
  · refine ⟨rfl, rfl, ?_⟩
    intro info p hinfo
    rw [firstOf, hnone] at hinfo
    cases hinfo
  · refine ⟨rfl, rfl, ?_⟩
    intro info p hinfo hp
    rw [firstOf, hfirst, Option.some.injEq] at hinfo
    rw [← hinfo, hq, Option.some.injEq] at hp
    rw [hp]

theorem offerOf_support {sub : Subscription} {offer support : RtcMediaInfo}
    (h : offerOf libs sub = some (offer, support)) :
    SupportRtcInfo.getSupportRtcMedia offer = some support := by
  unfold offerOf at h
  obtain ⟨infoJson, -, h⟩ := Option.bind_eq_some_iff.mp h
  unfold readOffer at h
  simp only at h
  split at h
  · cases h
  · obtain ⟨support', hsupport, heq⟩ := Option.map_eq_some_iff.mp h
    cases heq
    exact hsupport

/-! ## What a request adds -/

/-- A subscriber that the map of the room has got. -/
def Gains (r r' : Room) (pid sid : Bytes) (x : RtcSubscriber) : Prop :=
  Subscribers.Entry r'.pid2subscribers pid sid x ∧
    ¬Subscribers.Entry r.pid2subscribers pid sid x

theorem Added.gains_iff {st st' : Subscribing} {medias : List MediaRtcInfo}
    {added : List RtcSubscriber} (h : Added st st' medias added)
    (hbefore : r.pid2subscribers = st.subscribers)
    (hafter : r'.pid2subscribers = st'.subscribers) {pid sid : Bytes} {x : RtcSubscriber} :
    Gains r r' pid sid x ↔ x ∈ added ∧ pid = x.pid ∧ sid = x.sid := by
  rw [Gains, hbefore, hafter, h.entries]
  constructor
  · intro hgain
    exact hgain.1.resolve_left hgain.2
  · intro hnew
    refine ⟨.inr hnew, ?_⟩
    obtain ⟨hx, rfl, rfl⟩ := hnew
    exact h.fresh x hx x

/-- A request that is accepted has found its publishers and created its subscribers. -/
theorem exists_of_accept {id : Bytes} {data answer : Json} {feedback : Connection}
    {sub : Subscription} {offer support : RtcMediaInfo} (hcheck : r.checkSubscribe data = .ok sub)
    (hoffer : offerOf libs sub = some (offer, support))
    (haccept : (feedback, .accept id answer) ∈ (handleSubscribe libs id data feedback r).sent) :
    ∃ medias st, support.medias.mapM (bindMedia sub.remoteSession sub.publishers) = some medias ∧
      r.openSubscribe libs sub.uid sub.remoteUid medias = (st, none) ∧
      (handleSubscribe libs id data feedback r).room.pid2subscribers = st.subscribers := by
  unfold offerOf at hoffer
  obtain ⟨infoJson, hparse, hread⟩ := Option.bind_eq_some_iff.mp hoffer
  rcases hpair : readOffer sub.user infoJson with ⟨user, read⟩
  rw [hpair] at hread
  simp only at hread
  unfold handleSubscribe at haccept ⊢
  simp only [hcheck, hparse, hpair, hread] at haccept ⊢
  split at haccept
  · simp [refuse] at haccept
  · rename_i medias hmedias
    simp only [hmedias]
    unfold subscribeMedias at haccept ⊢
    split at haccept
    · cases haccept
    · rename_i hdtls
      rw [if_neg hdtls]
      rcases hopen : (r.setUser sub.uid user).openSubscribe libs sub.uid sub.remoteUid medias with
        ⟨st, - | e⟩
      · refine ⟨medias, st, rfl, hopen, ?_⟩
        simp only [hopen] at haccept ⊢
        split <;> rfl
      · simp only [hopen] at haccept
        cases haccept

/-- The map of the room gains `added`, one subscriber for each section of the offer. -/
structure Gained (sub : Subscription) (session : Bytes) (offer : RtcMediaInfo) (r r' : Room)
    (added : List RtcSubscriber) : Prop where
  binds : List.Forall₂ (Binds sub session) offer.medias added
  mids : (offer.medias.map MediaRtcInfo.mid).Nodup
  gains : ∀ pid sid x, Gains r r' pid sid x ↔ x ∈ added ∧ pid = x.pid ∧ sid = x.sid

theorem exists_gained_of_accept {id : Bytes} {data answer : Json} {feedback : Connection}
    {sub : Subscription} {offer support : RtcMediaInfo} (hcheck : r.checkSubscribe data = .ok sub)
    (hoffer : offerOf libs sub = some (offer, support))
    (haccept : (feedback, .accept id answer) ∈ (handleSubscribe libs id data feedback r).sent) :
    ∃ added, Gained sub (libs.uuid r.made) offer r
      (handleSubscribe libs id data feedback r).room added := by
  obtain ⟨medias, st, hbind, hopen, hroom⟩ := exists_of_accept hcheck hoffer haccept
  obtain ⟨added, hadded⟩ := createSubscribers_added hopen
  have hsupport := SupportRtcInfo.getSupportRtcMedia_sections (offerOf_support hoffer)
  have hbound := RelatedLists.forall₂_of_mapM hbind
  have hserved : List.Forall₂ (Binds sub (libs.uuid r.made)) support.medias added := by
    refine RelatedLists.forall₂_trans hbound hadded.sections ?_
    intro media media' x hmedia hx
    obtain ⟨hmid, htype, hpid⟩ := bindMedia_section hmedia
    refine ⟨?_, ?_, hx.session, ?_⟩
    · rw [hx.mediaInfo, hmid]
    · rw [hx.mediaInfo, htype]
    · intro info p hinfo hp
      rw [hx.pid, hpid info p hinfo hp]
  have hbinds : List.Forall₂ (Binds sub (libs.uuid r.made)) offer.medias added := by
    refine RelatedLists.forall₂_trans hsupport hserved ?_
    intro media media' x hanswer hx
    refine ⟨hx.mid.trans hanswer.mid, hx.mediaType.trans hanswer.mediaType, hx.session, ?_⟩
    rw [← hanswer.mediaType]
    exact hx.pid
  refine ⟨added, hbinds, ?_, ?_⟩
  · have hof : medias.map MediaRtcInfo.mid = added.map fun x => x.mediaInfo.mid :=
      RelatedLists.map_eq_of_forall₂ hadded.sections fun _ _ hx =>
        congrArg MediaRtcInfo.mid hx.mediaInfo.symm
    have hoffered : offer.medias.map MediaRtcInfo.mid = added.map fun x => x.mediaInfo.mid :=
      RelatedLists.map_eq_of_forall₂ hbinds fun _ _ hx => hx.mid.symm
    rw [hoffered, ← hof]
    exact hadded.mids
  · intro pid sid x
    exact hadded.gains_iff rfl hroom

/-! ## The purpose of a request -/

/-- The publishers that the request names exist, and the offer has a section for each. -/
structure Requests (sub : Subscription) (offer : RtcMediaInfo) : Prop where
  exist : ∀ info ∈ sub.publishers,
    ∃ p, sub.remoteSession.getPublisher info.mid = some p ∧ p.pid = info.pid
  distinct : (sub.publishers.map PublisherInfo.pid).Nodup
  sections : ∀ mediaType,
    (offer.medias.map MediaRtcInfo.mediaType).count mediaType =
      (sub.publishers.map PublisherInfo.mediaType).count mediaType

/-- Each publisher has one new subscriber of the session, on a section of its own. -/
structure BindsOnce (r r' : Room) (session : Bytes) (publishers : List PublisherInfo)
    (offer : RtcMediaInfo) : Prop where
  once : ∀ info ∈ publishers, ∃ sid x, Gains r r' info.pid sid x ∧ x.session = session ∧
    (∃ media ∈ offer.medias, media.mid = x.mediaInfo.mid ∧ media.mediaType = info.mediaType) ∧
    ∀ sid' x', Gains r r' info.pid sid' x' → sid' = sid ∧ x' = x
  distinct : ∀ pid sid x pid' sid' x', Gains r r' pid sid x → Gains r r' pid' sid' x' →
    x.mediaInfo.mid = x'.mediaInfo.mid → pid = pid'
  only : ∀ pid sid x, Gains r r' pid sid x → ∃ info ∈ publishers, info.pid = pid

section Purpose

variable {sub : Subscription} {offer : RtcMediaInfo} {session : Bytes}
  {added : List RtcSubscriber} {x y : RtcSubscriber}

theorem mem_of_firstOf {publishers : List PublisherInfo} {mediaType : Bytes} {info : PublisherInfo}
    (h : firstOf publishers mediaType = some info) :
    info ∈ publishers ∧ info.mediaType = mediaType := by
  refine ⟨List.mem_of_find?_eq_some h, ?_⟩
  simpa using List.find?_some h

/-- A subscriber has the publisher that stands first in the request among those of its type. -/
theorem Gained.exists_firstOf (h : Gained sub session offer r r' added)
    (hrequests : Requests sub offer) (hx : x ∈ added) :
    ∃ info, firstOf sub.publishers x.mediaInfo.mediaType = some info ∧ info.pid = x.pid := by
  obtain ⟨media, hmedia, hbind⟩ := RelatedLists.exists_of_mem_forall₂ h.binds hx
  have hoffered : media.mediaType ∈ offer.medias.map MediaRtcInfo.mediaType :=
    List.mem_map_of_mem hmedia
  rw [← List.count_pos_iff, hrequests.sections, List.count_pos_iff] at hoffered
  obtain ⟨named, hnamed, htype⟩ := List.mem_map.mp hoffered
  obtain ⟨info, hinfo⟩ := Option.isSome_iff_exists.mp
    (@List.find?_isSome _ sub.publishers (fun info => decide (info.mediaType = media.mediaType))
      |>.mpr ⟨named, hnamed, decide_eq_true htype⟩)
  obtain ⟨p, hp, hpid⟩ := hrequests.exist info (mem_of_firstOf hinfo).1
  refine ⟨info, ?_, ?_⟩
  · rw [hbind.mediaType]
    exact hinfo
  · rw [hbind.pid info p hinfo hp, hpid]

/-- The subscribers stand on distinct sections. -/
theorem Gained.eq_of_mid (h : Gained sub session offer r r' added) (hx : x ∈ added)
    (hy : y ∈ added) (hmid : x.mediaInfo.mid = y.mediaInfo.mid) : x = y := by
  have hmids : offer.medias.map MediaRtcInfo.mid = added.map fun x => x.mediaInfo.mid :=
    RelatedLists.map_eq_of_forall₂ h.binds fun _ _ hx => hx.mid.symm
  exact List.inj_on_of_nodup_map (hmids ▸ h.mids) hx hy hmid

/-- A publisher that has a subscriber of its type is the first one of this type. -/
theorem Gained.firstOf_of_bindsOnce (h : Gained sub session offer r r' added)
    (hrequests : Requests sub offer) (honce : BindsOnce r r' session sub.publishers offer)
    {info : PublisherInfo} (hinfo : info ∈ sub.publishers) :
    firstOf sub.publishers info.mediaType = some info := by
  obtain ⟨sid, x, hgain, -, ⟨media, hmedia, hsame, hof⟩, -⟩ := honce.once info hinfo
  obtain ⟨hx, hpid, -⟩ := (h.gains _ _ _).mp hgain
  obtain ⟨media', hmedia', hbind⟩ := RelatedLists.exists_of_mem_forall₂ h.binds hx
  -- the numbers of the sections are distinct, so that this is the section of `x`
  have hsection : media = media' :=
    List.inj_on_of_nodup_map h.mids hmedia hmedia' (hsame.trans hbind.mid)
  obtain ⟨first, hfirst, hfirstPid⟩ := h.exists_firstOf hrequests hx
  rw [hbind.mediaType, ← hsection, hof] at hfirst
  have heq : first = info := List.inj_on_of_nodup_map hrequests.distinct
    (mem_of_firstOf hfirst).1 hinfo (hfirstPid.trans hpid.symm)
  rw [hfirst, heq]

/-- When the types are distinct, what a publisher has gained is of its type. -/
theorem Gained.mediaType_of_pid (h : Gained sub session offer r r' added)
    (hrequests : Requests sub offer) {info : PublisherInfo} (hinfo : info ∈ sub.publishers)
    (hx : x ∈ added) (hpid : info.pid = x.pid) : x.mediaInfo.mediaType = info.mediaType := by
  obtain ⟨first, hfirst, hfirstPid⟩ := h.exists_firstOf hrequests hx
  obtain ⟨hmem, hsame⟩ := mem_of_firstOf hfirst
  have heq : first = info := List.inj_on_of_nodup_map hrequests.distinct hmem hinfo
    (hfirstPid.trans hpid.symm)
  rw [← hsame, heq]

/-- One subscriber for each publisher when the types are distinct: the offer has one section
of each type then. -/
theorem Gained.exists_once (h : Gained sub session offer r r' added)
    (hrequests : Requests sub offer)
    (htypes : (sub.publishers.map PublisherInfo.mediaType).Nodup) {info : PublisherInfo}
    (hinfo : info ∈ sub.publishers) (hfirst : firstOf sub.publishers info.mediaType = some info) :
    ∃ sid x, Gains r r' info.pid sid x ∧ x.session = session ∧
      (∃ media ∈ offer.medias, media.mid = x.mediaInfo.mid ∧ media.mediaType = info.mediaType) ∧
      ∀ sid' x', Gains r r' info.pid sid' x' → sid' = sid ∧ x' = x := by
  have hsections : offer.medias.map MediaRtcInfo.mediaType =
      added.map fun x => x.mediaInfo.mediaType :=
    RelatedLists.map_eq_of_forall₂ h.binds fun _ _ hx => hx.mediaType.symm
  have hadded : (added.map fun x => x.mediaInfo.mediaType).Nodup := by
    rw [← hsections]
    refine List.nodup_iff_count_le_one.mpr fun mediaType => ?_
    rw [hrequests.sections]
    exact List.nodup_iff_count_le_one.mp htypes mediaType
  have hoffered : info.mediaType ∈ added.map fun x => x.mediaInfo.mediaType := by
    rw [← hsections, ← List.count_pos_iff, hrequests.sections, List.count_pos_iff]
    exact List.mem_map_of_mem hinfo
  obtain ⟨x, hx, hxof⟩ := List.mem_map.mp hoffered
  obtain ⟨media, hmedia, hbind⟩ := RelatedLists.exists_of_mem_forall₂ h.binds hx
  have hpid : info.pid = x.pid := by
    obtain ⟨first, hxfirst, hfirstPid⟩ := h.exists_firstOf hrequests hx
    rw [hxof, hfirst, Option.some.injEq] at hxfirst
    rw [hxfirst, hfirstPid]
  refine ⟨x.sid, x, (h.gains _ _ _).mpr ⟨hx, hpid, rfl⟩, hbind.session,
    ⟨media, hmedia, hbind.mid.symm, hbind.mediaType.symm.trans hxof⟩, ?_⟩
  intro sid' x' hgain
  obtain ⟨hx', hpid', rfl⟩ := (h.gains _ _ _).mp hgain
  have hsame : x' = x := List.inj_on_of_nodup_map hadded hx' hx
    ((h.mediaType_of_pid hrequests hinfo hx' hpid').trans hxof.symm)
  exact ⟨by rw [hsame], hsame⟩

theorem Gained.bindsOnce_iff (h : Gained sub session offer r r' added)
    (hrequests : Requests sub offer) :
    BindsOnce r r' session sub.publishers offer ↔
      (sub.publishers.map PublisherInfo.mediaType).Nodup := by
  rw [← RelatedLists.forall_find?_iff_nodup (List.Nodup.of_map _ hrequests.distinct)]
  constructor
  · intro honce info hinfo
    exact h.firstOf_of_bindsOnce hrequests honce hinfo
  · intro hfirst
    have htypes := (RelatedLists.forall_find?_iff_nodup
      (List.Nodup.of_map _ hrequests.distinct)).mp hfirst
    refine ⟨?_, ?_, ?_⟩
    · intro info hinfo
      exact h.exists_once hrequests htypes hinfo (hfirst info hinfo)
    · intro pid sid x pid' sid' x' hgain hgain' hsame
      obtain ⟨hx, rfl, -⟩ := (h.gains _ _ _).mp hgain
      obtain ⟨hx', rfl, -⟩ := (h.gains _ _ _).mp hgain'
      rw [h.eq_of_mid hx hx' hsame]
    · intro pid sid x hgain
      obtain ⟨hx, rfl, -⟩ := (h.gains _ _ _).mp hgain
      obtain ⟨info, hinfo, hpid⟩ := h.exists_firstOf hrequests hx
      exact ⟨info, (mem_of_firstOf hinfo).1, hpid⟩

end Purpose

/-- An accepted request binds each of its publishers once exactly when no two of them are of
one type. -/
theorem subscribe_binds_iff {libs : RoomLibs} {r : Room} {id : Bytes} {data answer : Json}
    {feedback : Connection} {sub : Subscription} {offer support : RtcMediaInfo}
    (hcheck : r.checkSubscribe data = .ok sub)
    (hoffer : offerOf libs sub = some (offer, support))
    (haccept : (feedback, .accept id answer) ∈ (handleSubscribe libs id data feedback r).sent)
    (hrequests : Requests sub offer) :
    BindsOnce r (handleSubscribe libs id data feedback r).room (libs.uuid r.made)
        sub.publishers offer ↔
      (sub.publishers.map PublisherInfo.mediaType).Nodup := by
  obtain ⟨added, hgained⟩ := exists_gained_of_accept hcheck hoffer haccept
  exact hgained.bindsOnce_iff hrequests

/-! ## Two publishers of one type -/

theorem requests_iff {sub : Subscription} {offer : RtcMediaInfo} :
    (∀ info ∈ sub.publishers,
        (sub.remoteSession.getPublisher info.mid).map RtcPublisher.pid = some info.pid) ∧
      (sub.publishers.map PublisherInfo.pid).Nodup ∧
      (offer.medias.map MediaRtcInfo.mediaType).Perm
        (sub.publishers.map PublisherInfo.mediaType) ↔ Requests sub offer := by
  simp only [Option.map_eq_some_iff, List.perm_iff_count]
  constructor
  · intro h
    exact ⟨h.1, h.2.1, h.2.2⟩
  · intro h
    exact ⟨h.exist, h.distinct, h.sections⟩

instance (sub : Subscription) (offer : RtcMediaInfo) : Decidable (Requests sub offer) :=
  decidable_of_iff _ requests_iff

/-- The types that an accepted request names. -/
def acceptedTypes (libs : RoomLibs) (id : Bytes) (data : Json) (feedback : Connection)
    (r : Room) : Option (List Bytes) := do
  let sub ← (r.checkSubscribe data).toOption
  let (offer, _) ← offerOf libs sub
  match (handleSubscribe libs id data feedback r).sent with
  | [(dest, .accept id' _)] =>
    if dest = feedback ∧ id' = id ∧ Requests sub offer then
      return sub.publishers.map PublisherInfo.mediaType
    else none
  | _ => none

theorem exists_of_acceptedTypes {id : Bytes} {data : Json} {feedback : Connection}
    {types : List Bytes} (h : acceptedTypes libs id data feedback r = some types) :
    ∃ sub offer support answer, r.checkSubscribe data = .ok sub ∧
      offerOf libs sub = some (offer, support) ∧
      (feedback, .accept id answer) ∈ (handleSubscribe libs id data feedback r).sent ∧
      Requests sub offer ∧ sub.publishers.map PublisherInfo.mediaType = types := by
  unfold acceptedTypes at h
  obtain ⟨sub, hcheck, h⟩ := Option.bind_eq_some_iff.mp h
  obtain ⟨⟨offer, support⟩, hoffer, h⟩ := Option.bind_eq_some_iff.mp h
  simp only at h
  split at h
  · rename_i dest id' answer hsent
    split at h
    · rename_i hall
      obtain ⟨hdest, hid, hrequests⟩ := hall
      refine ⟨sub, offer, support, answer, Run.eq_ok_of_toOption hcheck, hoffer, ?_, hrequests,
        Option.some.inj h⟩
      rw [hsent, hdest, hid]
      exact List.mem_singleton_self _
    · cases h
  · cases h

/-- A second section of the type of the first one, as of a screen beside a camera. -/
def secondMedia : Json :=
  match sampleMedia with
  | .obj fields => .obj (fields.map fun field =>
      if field.1 = ascii "mid" then (field.1, textJson "1")
      else if field.1 = ascii "ssrcs" then
        (field.1, .arr [object [("attribute", textJson "cname"), ("id", .num 8),
          ("value", textJson "x")]])
      else field)
  | other => other

/-- A second section, of video. -/
def videoMedia : Json :=
  match secondMedia with
  | .obj fields => .obj (fields.map fun field =>
      if field.1 = ascii "type" then (field.1, textJson "video")
      else if field.1 = ascii "payloads" then (field.1, textJson "96")
      else if field.1 = ascii "rtp" then
        (field.1, .arr [object [("codec", textJson "H264"), ("payload", .num 96),
          ("rate", .num 90000)]])
      else if field.1 = ascii "fmtp" then
        (field.1, .arr [object [("config",
            textJson "level-asymmetry-allowed=1;packetization-mode=1;profile-level-id=42e01f"),
          ("payload", .num 96)]])
      else field)
  | other => other

/-- Libraries that read two sections. -/
def twoLibs (second : Json) : RoomLibs :=
  { sampleLibs with
    sdpParse := fun text =>
      if text = sampleSdp then
        some (object [("media", .arr [sampleMedia, second]), ("version", .num 0)])
      else none }

/-- Both publishers of `a` are asked for. -/
def twoData (secondType : String) : Json :=
  object [("publishers", .arr [
      object [("mid", .num 0), ("pid", .str (sampleLibs.uuid 1)), ("ssrc", .num 7),
        ("type", textJson "audio")],
      object [("mid", .num 1), ("pid", .str (sampleLibs.uuid 2)), ("ssrc", .num 8),
        ("type", textJson secondType)]]),
    ("remotePcId", .str (sampleLibs.uuid 0)), ("remoteUid", textJson "a"),
    ("sdp", .str sampleSdp), ("uid", textJson "b")]

/-- The publisher of audio and the one of video have one subscriber each of the session of
`b`. -/
theorem subscribe_binds_iff_audio_video :
    ∃ r, Run.run (step (twoLibs videoMedia)) [joinOf "a" 1, joinOf "b" 2, publishOf "a" 1]
        { roomId := ascii "room" } = .ok r ∧
      ∃ sub offer, r.checkSubscribe (twoData "video") = .ok sub ∧
        sub.publishers.map PublisherInfo.mediaType = [ascii "audio", ascii "video"] ∧
        BindsOnce r
          (handleSubscribe (twoLibs videoMedia) (ascii "3") (twoData "video") 2 r).room
          ((twoLibs videoMedia).uuid r.made) sub.publishers offer := by
  obtain ⟨r, hrun, htypes⟩ := Run.exists_of_map_toOption
    (x := Run.run (step (twoLibs videoMedia)) [joinOf "a" 1, joinOf "b" 2, publishOf "a" 1]
      { roomId := ascii "room" })
    (f := acceptedTypes (twoLibs videoMedia) (ascii "3") (twoData "video") 2)
    (b := some [ascii "audio", ascii "video"]) (by decide +kernel)
  obtain ⟨sub, offer, support, answer, hcheck, hoffer, haccept, hrequests, hof⟩ :=
    exists_of_acceptedTypes htypes
  refine ⟨r, hrun, sub, offer, hcheck, hof, ?_⟩
  refine (subscribe_binds_iff hcheck hoffer haccept hrequests).mpr ?_
  rw [hof]
  decide

/-- Both sections get the first publisher of `a`. -/
theorem not_subscribe_binds :
    ∃ r, Run.run (step (twoLibs secondMedia)) [joinOf "a" 1, joinOf "b" 2, publishOf "a" 1]
        { roomId := ascii "room" } = .ok r ∧
      ∃ sub offer support answer, r.checkSubscribe (twoData "audio") = .ok sub ∧
        offerOf (twoLibs secondMedia) sub = some (offer, support) ∧
        (2, .accept (ascii "3") answer) ∈
          (handleSubscribe (twoLibs secondMedia) (ascii "3") (twoData "audio") 2 r).sent ∧
        Requests sub offer ∧
        ¬BindsOnce r (handleSubscribe (twoLibs secondMedia) (ascii "3") (twoData "audio") 2 r).room
          ((twoLibs secondMedia).uuid r.made) sub.publishers offer := by
  obtain ⟨r, hrun, htypes⟩ := Run.exists_of_map_toOption
    (x := Run.run (step (twoLibs secondMedia)) [joinOf "a" 1, joinOf "b" 2, publishOf "a" 1]
      { roomId := ascii "room" })
    (f := acceptedTypes (twoLibs secondMedia) (ascii "3") (twoData "audio") 2)
    (b := some [ascii "audio", ascii "audio"]) (by decide +kernel)
  obtain ⟨sub, offer, support, answer, hcheck, hoffer, haccept, hrequests, hof⟩ :=
    exists_of_acceptedTypes htypes
  refine ⟨r, hrun, sub, offer, support, answer, hcheck, hoffer, haccept, hrequests, ?_⟩
  obtain ⟨added, hgained⟩ := exists_gained_of_accept hcheck hoffer haccept
  rw [hgained.bindsOnce_iff hrequests, hof]
  decide

end Room

end MediaServer
