import MediaServer.Webrtc.RoomInvariant

/-!
# Sections that no stream can be made of

The constructors of `rtc_publisher` and `rtc_subscriber` read the first encoding of a media
section, and with RTX the first number of its first group, without a check that there is
one.  A group without numbers throws when there is no RTX.

`create_publisher` passes over a section that repeats an earlier one, and
`create_subscriber` throws at it.  `publishFaults` and `subscribeFaults` are the two loops
with only this kept: they say of a list of sections whether the loop leaves the defined
behaviour.
-/

namespace MediaServer

namespace StreamInfo

/-- The first group has no numbers. -/
def emptyGroup (media : MediaRtcInfo) : Bool :=
  media.ssrcGroups.head?.any fun group => group.ssrcs.isEmpty

/-- What the constructors read is not there. -/
def unreadable (media : MediaRtcInfo) : Bool :=
  media.rtpEncodings.isEmpty || (hasRtxOf media.rtpEncodings && emptyGroup media)

variable {media : MediaRtcInfo}

theorem ssrcsOf_emptyGroup {hasRtx : Bool} (h : emptyGroup media = true) :
    ssrcsOf hasRtx media = .error (if hasRtx then .fault .nullPointer else .thrown) := by
  unfold emptyGroup at h
  unfold ssrcsOf
  rcases hgroups : media.ssrcGroups with - | ⟨group, groups⟩
  · rw [hgroups] at h
    cases h
  · rw [hgroups] at h
    have hnil : group.ssrcs = [] := by simpa using h
    cases hasRtx with
    | true => simp [hnil]
    | false => simp [hnil]

theorem ssrcsOf_ok {hasRtx : Bool} (h : emptyGroup media = false) :
    ∃ ssrcs, ssrcsOf hasRtx media = .ok ssrcs := by
  unfold emptyGroup at h
  unfold ssrcsOf
  rcases hgroups : media.ssrcGroups with - | ⟨group, groups⟩
  · exact ⟨_, rfl⟩
  · rw [hgroups] at h
    rcases hssrcs : group.ssrcs with - | ⟨rtp, - | ⟨rtx, rest⟩⟩
    · rw [List.head?_cons, Option.any_some, hssrcs] at h
      cases h
    · cases hasRtx <;> simp [hssrcs]
    · cases hasRtx <;> simp [hssrcs]

theorem ofMedia_unreadable (h : unreadable media = true) :
    ∃ f, ofMedia media = .error (.fault f) := by
  unfold unreadable at h
  unfold ofMedia
  rcases hencodings : media.rtpEncodings with - | ⟨first, rest⟩
  · exact ⟨.nullPointer, rfl⟩
  · rw [hencodings, List.isEmpty_cons, Bool.false_or, Bool.and_eq_true] at h
    refine ⟨.nullPointer, ?_⟩
    simp only [h.1, ssrcsOf_emptyGroup h.2, if_true]

theorem ofMedia_thrown (h : unreadable media = false) (hempty : emptyGroup media = true) :
    ofMedia media = .error .thrown := by
  unfold unreadable at h
  unfold ofMedia
  rcases hencodings : media.rtpEncodings with - | ⟨first, rest⟩
  · rw [hencodings] at h
    cases h
  · rw [hencodings, hempty, List.isEmpty_cons, Bool.false_or, Bool.and_true] at h
    simp [h, ssrcsOf_emptyGroup hempty]

theorem ofMedia_ok (h : unreadable media = false) (hempty : emptyGroup media = false) :
    ∃ stream, ofMedia media = .ok stream := by
  unfold unreadable at h
  unfold ofMedia
  rcases hencodings : media.rtpEncodings with - | ⟨first, rest⟩
  · rw [hencodings] at h
    cases h
  · obtain ⟨⟨rtpSsrc, rtxSsrc⟩, hssrcs⟩ :=
      @ssrcsOf_ok media (hasRtxOf (first :: rest)) hempty
    simp [hssrcs]

end StreamInfo

namespace RtcBaseSession

open StreamInfo

/-! ## The loop that makes publishers -/

/-- The section has the number of an earlier one, or a line for one of its streams. -/
def repeats (built : List MediaRtcInfo) (media : MediaRtcInfo) : Bool :=
  built.any fun b => (decide (0 ≤ b.mid) && b.mid = media.mid) ||
    media.ssrcInfos.any fun info => b.ssrcInfos.any fun known => known.ssrc = info.ssrc

/-- The loop makes a publisher of a section that cannot be read. -/
def publishFaults (built : List MediaRtcInfo) : List MediaRtcInfo → Bool
  | [] => false
  | media :: rest =>
    if repeats built media then publishFaults built rest
    else unreadable media || (!emptyGroup media && publishFaults (media :: built) rest)

theorem isSome_assignAll {p : RtcPublisher} {infos : List SsrcInfo}
    {m : OrderedMap Nat RtcPublisher} {ssrc : Nat} :
    ((infos.foldl (fun m info => m.assign info.ssrc p) m).find? ssrc).isSome =
      ((infos.any fun info => info.ssrc = ssrc) || (m.find? ssrc).isSome) := by
  induction infos generalizing m with
  | nil => rfl
  | cons info infos ih =>
    rw [List.foldl_cons, ih, OrderedMap.find?_assign, List.any_cons]
    by_cases hssrc : ssrc = info.ssrc
    · simp [hssrc]
    · simp [hssrc, Ne.symm hssrc]

/-- The publishers of a session are those of the sections that were built. -/
theorem hasPublisher_addPublisher {s : RtcBaseSession} {built : List MediaRtcInfo}
    {p : RtcPublisher} (h : ∀ media, s.hasPublisher media = repeats built media)
    (media : MediaRtcInfo) :
    (s.addPublisher p).hasPublisher media = repeats (p.mediaInfo :: built) media := by
  have hmid : ((s.addPublisher p).mid2publishers.find? media.mid).isSome =
      ((decide (0 ≤ p.mediaInfo.mid) && p.mediaInfo.mid = media.mid) ||
        (s.mid2publishers.find? media.mid).isSome) := by
    simp only [addPublisher]
    split
    · rename_i hle
      rw [OrderedMap.find?_assign]
      by_cases heq : media.mid = p.mediaInfo.mid
      · simp [heq, hle]
      · simp [heq, Ne.symm heq]
    · rename_i hle
      simp [hle]
  have hssrc : ∀ infos : List SsrcInfo,
      (infos.any fun info => ((s.addPublisher p).ssrc2publishers.find? info.ssrc).isSome) =
      ((infos.any fun info => p.mediaInfo.ssrcInfos.any fun known => known.ssrc = info.ssrc) ||
        infos.any fun info => (s.ssrc2publishers.find? info.ssrc).isSome) := by
    intro infos
    induction infos with
    | nil => rfl
    | cons info infos ih =>
      rw [List.any_cons, ih, List.any_cons, List.any_cons, addPublisher, isSome_assignAll]
      simp only [Bool.or_assoc, Bool.or_left_comm]
  have hbuilt := h media
  rw [hasPublisher] at hbuilt
  rw [hasPublisher, hmid, hssrc, repeats, List.any_cons, ← repeats, ← hbuilt]
  simp only [Bool.or_assoc, Bool.or_left_comm]

theorem createPublishers_faults {uuid : Nat → Bytes} {medias built : List MediaRtcInfo}
    {st : Filling} (h : ∀ media, st.session.hasPublisher media = repeats built media) :
    (∃ f, (createPublishers uuid medias st).2 = some (.fault f)) ↔
      publishFaults built medias = true := by
  induction medias generalizing st built with
  | nil => simp [createPublishers, publishFaults]
  | cons media medias ih =>
    unfold createPublishers createPublisher publishFaults
    rw [h media]
    by_cases hrepeats : repeats built media = true
    · simp only [hrepeats, if_true]
      exact ih h
    · simp only [hrepeats, if_false, Bool.false_eq_true]
      cases hread : unreadable media with
      | true =>
        obtain ⟨f, hf⟩ := ofMedia_unreadable hread
        simp [hf]
      | false =>
        cases hempty : emptyGroup media with
        | true => simp [ofMedia_thrown hread hempty]
        | false =>
          obtain ⟨stream, hstream⟩ := ofMedia_ok hread hempty
          simp only [hstream, Bool.not_false, Bool.false_or, Bool.true_and]
          exact ih (hasPublisher_addPublisher h)

end RtcBaseSession

namespace Room

open RtcBaseSession StreamInfo

/-! ## The loop that makes subscribers -/

/-- The loop makes a subscriber of a section that cannot be read. -/
def subscribeFaults (mids : List Int) : List MediaRtcInfo → Bool
  | [] => false
  | media :: rest =>
    if media.mid ∈ mids then false
    else unreadable media || (!emptyGroup media && subscribeFaults (media.mid :: mids) rest)

/-- The ids of the subscribers have been made. -/
def SidsMade (libs : RoomLibs) (made : Nat) (m : Subscribers) : Prop :=
  ∀ p t x, Subscribers.Entry m p t x → ∃ n < made, t = libs.uuid n

variable {libs : RoomLibs} {made : Nat} {m : Subscribers}

/-- A new id is not among the subscribers, so that the insertion does not throw. -/
theorem SidsMade.insert (h : SidsMade libs made m) {pid : Bytes} {sub : RtcSubscriber}
    (hsid : sub.sid = libs.uuid made) :
    ∃ m', m.insertSubscriber pid sub = .ok m' ∧ SidsMade libs (made + 1) m' := by
  have hok : ∃ m', m.insertSubscriber pid sub = .ok m' := by
    unfold Subscribers.insertSubscriber
    split
    · exact ⟨_, rfl⟩
    · rename_i subs hsubs
      split
      · rename_i x hx
        obtain ⟨n, hn, heq⟩ := h pid sub.sid x ⟨subs, hsubs, hx⟩
        have := libs.uuidInjective made n (hsid.symm.trans heq)
        omega
      · exact ⟨_, rfl⟩
  obtain ⟨m', hm'⟩ := hok
  refine ⟨m', hm', fun p t x hx => ?_⟩
  rcases (Subscribers.entry_insertSubscriber hm').mp hx with hx | ⟨-, ht, -⟩
  · obtain ⟨n, hn, heq⟩ := h p t x hx
    exact ⟨n, by omega, heq⟩
  · exact ⟨made, Nat.lt_succ_self made, ht.trans hsid⟩

theorem createSubscribers_faults {remoteUid : Bytes} {medias : List MediaRtcInfo}
    {mids : List Int} {st : Subscribing} (hmade : SidsMade libs st.made st.subscribers)
    (hmids : ∀ mid, (st.session.mid2subscribers.find? mid).isSome ↔ mid ∈ mids) :
    (∃ f, (createSubscribers libs remoteUid medias st).2 = some (.fault f)) ↔
      subscribeFaults mids medias = true := by
  induction medias generalizing st mids with
  | nil => simp [createSubscribers, subscribeFaults]
  | cons media medias ih =>
    unfold createSubscribers createSubscriber subscribeFaults
    by_cases hmid : media.mid ∈ mids
    · obtain ⟨x, hx⟩ := Option.isSome_iff_exists.mp ((hmids media.mid).mpr hmid)
      simp [hx, hmid]
    · have hnone : st.session.mid2subscribers.find? media.mid = none := by
        rw [← Option.not_isSome_iff_eq_none, hmids]
        exact hmid
      simp only [hnone, if_neg hmid]
      cases hread : unreadable media with
      | true =>
        obtain ⟨f, hf⟩ := ofMedia_unreadable hread
        simp [hf]
      | false =>
        cases hempty : emptyGroup media with
        | true => simp [ofMedia_thrown hread hempty]
        | false =>
          obtain ⟨stream, hstream⟩ := ofMedia_ok hread hempty
          simp only [hstream, Bool.not_false, Bool.false_or, Bool.true_and]
          obtain ⟨m', hm', hmade'⟩ :=
            @SidsMade.insert libs st.made st.subscribers hmade media.publisherId
              { pid := media.publisherId, sid := libs.uuid st.made, session := st.session.id
                uid := st.session.uid, remoteUid, mediaInfo := media, stream } rfl
          simp only [hm']
          refine ih hmade' fun mid => ?_
          rw [OrderedMap.find?_assign, List.mem_cons, ← hmids mid]
          split
          · rename_i heq
            simp [heq]
          · rename_i hne
            simp [hne]

end Room

end MediaServer
