import MediaServer.Webrtc.StreamFaults

/-!
# The indexes of the publishers of a session

`rtc_base_session` finds a publisher by its id, by the number of its section and by the
numbers of its streams.  `create_publisher` enters a publisher into all three maps, under
every number of a stream that its section has a line for.  The two forms of
`remove_publisher` do not know these numbers any more: one takes out those that its
argument has lines for, the other one the two numbers of the publisher.

`IndexesAgree` says that the three maps are about the same publishers, and `TakesOut` is
what the two removals have in common.  `indexes_agree_iff`: the maps agree in every state
exactly along the runs in which every removal `Clears` its publisher.
-/

namespace MediaServer

namespace RtcBaseSession

/-- The three maps are about the same publishers. -/
structure IndexesAgree (s : RtcBaseSession) : Prop where
  ofMid : ∀ mid p, s.mid2publishers.find? mid = some p → s.pid2publishers.find? p.pid = some p
  ofSsrc : ∀ ssrc p, s.ssrc2publishers.find? ssrc = some p →
    s.pid2publishers.find? p.pid = some p
  ofPid : ∀ pid p, s.pid2publishers.find? pid = some p →
    p.pid = pid ∧ s.mid2publishers.find? p.mediaInfo.mid = some p ∧
      s.ssrc2publishers.find? p.stream.rtpSsrc = some p

/-- What holds in any case: a publisher is found by its own section only, and the ids have
been made. -/
structure Indexed (libs : RoomLibs) (s : RtcBaseSession) (made : Nat) : Prop where
  mid : ∀ mid p, s.mid2publishers.find? mid = some p → p.mediaInfo.mid = mid
  pid : ∀ pid p, s.pid2publishers.find? pid = some p → ∃ n < made, pid = libs.uuid n

/-- What a removal does that is meant for the publisher `gone`: the publisher is taken out by
its section and by its id, and the streams in `taken` are. -/
structure TakesOut (s : RtcBaseSession) (mid : Int) (gone : Option RtcPublisher)
    (taken : Nat → Prop) (s' : RtcBaseSession) : Prop where
  found : s.mid2publishers.find? mid = gone
  mid : ∀ m q, s'.mid2publishers.find? m = some q ↔ s.mid2publishers.find? m = some q ∧ m ≠ mid
  ssrc : ∀ n q, s'.ssrc2publishers.find? n = some q ↔
    s.ssrc2publishers.find? n = some q ∧ ¬taken n
  pid : ∀ i q, s'.pid2publishers.find? i = some q ↔
    s.pid2publishers.find? i = some q ∧ ∀ p, gone = some p → i ≠ p.pid

/-- The streams that are taken out are all those of the publisher that goes, and none is the
RTP stream of a publisher that stays. -/
def Clears (s : RtcBaseSession) (gone : Option RtcPublisher) (taken : Nat → Prop) : Prop :=
  (∀ p, gone = some p → ∀ ssrc, s.ssrc2publishers.find? ssrc = some p → taken ssrc) ∧
    ∀ pid q, s.pid2publishers.find? pid = some q → gone ≠ some q → ¬taken q.stream.rtpSsrc

variable {libs : RoomLibs} {s s' : RtcBaseSession} {made : Nat} {mid : Int}
  {gone : Option RtcPublisher} {taken : Nat → Prop}

/-! ## Removals -/

theorem TakesOut.indexed (h : TakesOut s mid gone taken s') (hindexed : Indexed libs s made) :
    Indexed libs s' made where
  mid m q hq := hindexed.mid m q ((h.mid m q).mp hq).1
  pid i q hq := hindexed.pid i q ((h.pid i q).mp hq).1

/-- Publishers with the same id are the same. -/
theorem eq_of_pid {p q : RtcPublisher}
    (hp : s.pid2publishers.find? p.pid = some p) (hq : s.pid2publishers.find? q.pid = some q)
    (heq : p.pid = q.pid) : p = q := by
  rw [heq, hq] at hp
  exact (Option.some.inj hp).symm

/-- The maps agree behind a removal exactly when it clears its publisher. -/
theorem TakesOut.agree_iff (h : TakesOut s mid gone taken s') (hindexed : Indexed libs s made)
    (hagree : IndexesAgree s) : IndexesAgree s' ↔ Clears s gone taken := by
  have hgone : ∀ p, gone = some p → s.pid2publishers.find? p.pid = some p :=
    fun p hp => hagree.ofMid mid p (h.found.trans hp)
  constructor
  · intro hafter
    refine ⟨?_, ?_⟩
    · intro p hp ssrc hssrc
      by_contra hleft
      have hfound := hafter.ofSsrc ssrc p ((h.ssrc ssrc p).mpr ⟨hssrc, hleft⟩)
      exact ((h.pid p.pid p).mp hfound).2 p hp rfl
    · intro pid q hq hne
      have hstays : ∀ p, gone = some p → pid ≠ p.pid := by
        intro p hp heq
        have hpq := hgone p hp
        rw [← heq, hq] at hpq
        rw [Option.some.inj hpq] at hne
        exact hne hp
      have hfound := (h.pid pid q).mpr ⟨hq, hstays⟩
      exact ((h.ssrc _ q).mp (hafter.ofPid pid q hfound).2.2).2
  · rintro ⟨hall, hothers⟩
    -- a publisher that is still found is not the one that goes
    have hstays : ∀ q, s.pid2publishers.find? q.pid = some q → gone ≠ some q →
        s'.pid2publishers.find? q.pid = some q := by
      intro q hq hne
      refine (h.pid q.pid q).mpr ⟨hq, ?_⟩
      intro p hp heq
      rw [eq_of_pid hq (hgone p hp) heq] at hne
      exact hne hp
    refine ⟨?_, ?_, ?_⟩
    · intro m q hq
      obtain ⟨hq, hm⟩ := (h.mid m q).mp hq
      apply hstays q (hagree.ofMid m q hq)
      intro heq
      have hmid := hindexed.mid mid q (h.found.trans heq)
      exact hm ((hindexed.mid m q hq).symm.trans hmid)
    · intro ssrc q hq
      obtain ⟨hq, hnot⟩ := (h.ssrc ssrc q).mp hq
      apply hstays q (hagree.ofSsrc ssrc q hq)
      intro heq
      exact hnot (hall q heq ssrc hq)
    · intro pid q hq
      obtain ⟨hq, hpid⟩ := (h.pid pid q).mp hq
      obtain ⟨hown, hmid, hssrc⟩ := hagree.ofPid pid q hq
      have hne : gone ≠ some q := fun heq => hpid q heq hown.symm
      refine ⟨hown, (h.mid _ q).mpr ⟨hmid, ?_⟩, (h.ssrc _ q).mpr ⟨hssrc, hothers pid q hq hne⟩⟩
      intro heq
      rw [heq, h.found] at hmid
      exact hne hmid

theorem find?_eraseAll {infos : List SsrcInfo} {m : OrderedMap Nat RtcPublisher} {n : Nat}
    {q : RtcPublisher} :
    (infos.foldl (fun m info => m.erase info.ssrc) m).find? n = some q ↔
      m.find? n = some q ∧ ¬∃ info ∈ infos, info.ssrc = n := by
  induction infos generalizing m with
  | nil => simp
  | cons info infos ih =>
    rw [List.foldl_cons, ih, OrderedMap.find?_erase]
    by_cases hn : n = info.ssrc
    · simp [hn]
    · simp [hn, Ne.symm hn]

theorem find?_erase_iff {κ α : Type} [LinearOrder κ] {m : OrderedMap κ α} {k k' : κ} {v : α} :
    (m.erase k).find? k' = some v ↔ m.find? k' = some v ∧ k' ≠ k := by
  rw [OrderedMap.find?_erase]
  by_cases hk : k' = k
  · simp [hk]
  · simp [hk]

theorem removePublisher_takesOut (s : RtcBaseSession) (media : MediaRtcInfo) :
    TakesOut s media.mid (s.mid2publishers.find? media.mid)
      (fun n => ∃ info ∈ media.ssrcInfos, info.ssrc = n) (s.removePublisher media) where
  found := rfl
  mid m q := find?_erase_iff
  ssrc n q := find?_eraseAll
  pid i q := by
    rw [removePublisher]
    cases s.mid2publishers.find? media.mid with
    | none => simp
    | some p => simp [find?_erase_iff]

theorem removePublisherByMid_takesOut {p : RtcPublisher} {mediaType : Bytes}
    (hp : s.mid2publishers.find? mid = some p) (htype : p.mediaInfo.mediaType = mediaType) :
    TakesOut s mid (some p)
      (fun n => n = p.stream.rtpSsrc ∨ p.stream.hasRtx = true ∧ n = p.stream.rtxSsrc)
      (s.removePublisherByMid mid mediaType).2 := by
  have hstep : (s.removePublisherByMid mid mediaType).2 =
      { s with
        mid2publishers := s.mid2publishers.erase mid
        pid2publishers := s.pid2publishers.erase p.pid
        ssrc2publishers :=
          if p.stream.hasRtx then
            (s.ssrc2publishers.erase p.stream.rtpSsrc).erase p.stream.rtxSsrc
          else s.ssrc2publishers.erase p.stream.rtpSsrc } := by
    rw [removePublisherByMid, hp]
    simp only [htype, ne_eq, not_true_eq_false, if_false]
  rw [hstep]
  refine ⟨hp, fun m q => find?_erase_iff, ?_, fun i q => by simp [find?_erase_iff]⟩
  intro n q
  cases hrtx : p.stream.hasRtx with
  | false => simp [find?_erase_iff]
  | true => simp [find?_erase_iff, and_assoc]

/-- A call that finds no publisher of the type changes nothing. -/
theorem removePublisherByMid_unknown {mediaType : Bytes}
    (h : ∀ p, s.mid2publishers.find? mid = some p → p.mediaInfo.mediaType ≠ mediaType) :
    s.removePublisherByMid mid mediaType = (RM_PUBLISH_ERROR, s) := by
  rw [removePublisherByMid]
  cases hp : s.mid2publishers.find? mid with
  | none => rfl
  | some p => exact if_pos (h p hp)

/-! ## Creation -/

/-- A section as the calls may give it: it has a number, an encoding and a line for a stream,
and its groups are not empty and name only streams with a line. -/
structure WellFormed (media : MediaRtcInfo) : Prop where
  mid : 0 ≤ media.mid
  encodings : media.rtpEncodings ≠ []
  lines : media.ssrcInfos ≠ []
  groups : ∀ group ∈ media.ssrcGroups, group.ssrcs ≠ [] ∧
    ∀ ssrc ∈ group.ssrcs, ∃ info ∈ media.ssrcInfos, info.ssrc = ssrc

/-- The RTP stream of a well-formed section has a line. -/
theorem WellFormed.rtpSsrc {media : MediaRtcInfo} (h : WellFormed media) {hasRtx : Bool}
    {rtpSsrc rtxSsrc : Nat} (hssrcs : StreamInfo.ssrcsOf hasRtx media = .ok (rtpSsrc, rtxSsrc)) :
    ∃ info ∈ media.ssrcInfos, info.ssrc = rtpSsrc := by
  rw [StreamInfo.ssrcsOf] at hssrcs
  cases hgroups : media.ssrcGroups with
  | nil =>
    rw [hgroups] at hssrcs
    cases hssrcs
    rw [List.getLast?_eq_some_getLast h.lines]
    exact ⟨_, List.getLast_mem h.lines, rfl⟩
  | cons group groups =>
    have hnamed := (h.groups group (by rw [hgroups]; exact List.mem_cons_self)).2
    rw [hgroups] at hssrcs
    simp only at hssrcs
    cases hlist : group.ssrcs with
    | nil =>
      rw [hlist] at hssrcs
      cases hasRtx with
      | true => cases hssrcs
      | false => cases hssrcs
    | cons rtp rest =>
      have hfirst := hnamed rtp (by rw [hlist]; exact List.mem_cons_self)
      rw [hlist] at hssrcs
      cases hasRtx with
      | false =>
        cases hssrcs
        exact hfirst
      | true =>
        cases rest with
        | nil =>
          cases hssrcs
          exact hfirst
        | cons rtx rest =>
          cases hssrcs
          exact hfirst

/-- A publisher is made of it. -/
theorem WellFormed.ofMedia {media : MediaRtcInfo} (h : WellFormed media) :
    ∃ stream, StreamInfo.ofMedia media = .ok stream ∧
      ∃ info ∈ media.ssrcInfos, info.ssrc = stream.rtpSsrc := by
  have hempty : StreamInfo.emptyGroup media = false := by
    rw [StreamInfo.emptyGroup]
    cases hgroups : media.ssrcGroups with
    | nil => rfl
    | cons group groups =>
      have hgroup := (h.groups group (by rw [hgroups]; exact List.mem_cons_self)).1
      simpa using hgroup
  have hread : StreamInfo.unreadable media = false := by
    rw [StreamInfo.unreadable, hempty, Bool.and_false, Bool.or_false]
    simpa using h.encodings
  obtain ⟨stream, hstream⟩ := StreamInfo.ofMedia_ok hread hempty
  refine ⟨stream, hstream, ?_⟩
  simp only [StreamInfo.ofMedia] at hstream
  split at hstream
  · cases hstream
  · split at hstream
    · cases hstream
    · rename_i hssrcs
      cases hstream
      exact h.rtpSsrc hssrcs

theorem find?_assignAll {p : RtcPublisher} {infos : List SsrcInfo}
    {m : OrderedMap Nat RtcPublisher} {n : Nat} :
    (infos.foldl (fun m info => m.assign info.ssrc p) m).find? n =
      if ∃ info ∈ infos, info.ssrc = n then some p else m.find? n := by
  induction infos generalizing m with
  | nil => simp
  | cons info infos ih =>
    rw [List.foldl_cons, ih, OrderedMap.find?_assign]
    by_cases hn : n = info.ssrc
    · simp [hn]
    · simp [hn, Ne.symm hn]

/-- What stands in the maps behind `create_publisher`, when there was no publisher for the
section yet. -/
theorem addPublisher_maps {p : RtcPublisher} (hmid : 0 ≤ p.mediaInfo.mid) :
    (∀ m q, (s.addPublisher p).mid2publishers.find? m = some q ↔
      m = p.mediaInfo.mid ∧ q = p ∨ m ≠ p.mediaInfo.mid ∧ s.mid2publishers.find? m = some q) ∧
    (∀ i q, (s.addPublisher p).pid2publishers.find? i = some q ↔
      i = p.pid ∧ q = p ∨ i ≠ p.pid ∧ s.pid2publishers.find? i = some q) := by
  have hassign : ∀ {κ : Type} [LinearOrder κ] (m : OrderedMap κ RtcPublisher) (k k' : κ)
      (q : RtcPublisher), (m.assign k p).find? k' = some q ↔
        k' = k ∧ q = p ∨ k' ≠ k ∧ m.find? k' = some q := by
    intro κ _ m k k' q
    rw [OrderedMap.find?_assign]
    by_cases hk : k' = k
    · simp [hk, eq_comm]
    · simp [hk]
  refine ⟨?_, fun i q => hassign s.pid2publishers p.pid i q⟩
  intro m q
  rw [addPublisher, if_pos hmid]
  exact hassign s.mid2publishers p.mediaInfo.mid m q

theorem agree_addPublisher {p : RtcPublisher} (hagree : IndexesAgree s)
    (hnew : s.hasPublisher p.mediaInfo = false) (hmid : 0 ≤ p.mediaInfo.mid)
    (hpid : s.pid2publishers.find? p.pid = none)
    (hrtp : ∃ info ∈ p.mediaInfo.ssrcInfos, info.ssrc = p.stream.rtpSsrc) :
    IndexesAgree (s.addPublisher p) := by
  obtain ⟨hmids, hpids⟩ := @addPublisher_maps s p hmid
  have hssrcs : ∀ n q, (s.addPublisher p).ssrc2publishers.find? n = some q ↔
      (∃ info ∈ p.mediaInfo.ssrcInfos, info.ssrc = n) ∧ q = p ∨
        (¬∃ info ∈ p.mediaInfo.ssrcInfos, info.ssrc = n) ∧
          s.ssrc2publishers.find? n = some q := by
    intro n q
    rw [addPublisher, find?_assignAll]
    split_ifs with hline
    · rw [Option.some.injEq, @eq_comm _ p q]
      simp [hline]
    · simp [hline]
  rw [hasPublisher, Bool.or_eq_false_iff] at hnew
  obtain ⟨hnomid, hnossrc⟩ := hnew
  have hold : ∀ q, s.pid2publishers.find? q.pid = some q →
      (s.addPublisher p).pid2publishers.find? q.pid = some q := by
    intro q hq
    refine (hpids q.pid q).mpr (.inr ⟨?_, hq⟩)
    intro heq
    rw [heq, hpid] at hq
    cases hq
  have hself : (s.addPublisher p).pid2publishers.find? p.pid = some p :=
    (hpids p.pid p).mpr (.inl ⟨rfl, rfl⟩)
  refine ⟨?_, ?_, ?_⟩
  · intro m q hq
    rcases (hmids m q).mp hq with ⟨-, rfl⟩ | ⟨-, hq⟩
    · exact hself
    · exact hold q (hagree.ofMid m q hq)
  · intro n q hq
    rcases (hssrcs n q).mp hq with ⟨-, rfl⟩ | ⟨-, hq⟩
    · exact hself
    · exact hold q (hagree.ofSsrc n q hq)
  · intro i q hq
    rcases (hpids i q).mp hq with ⟨rfl, rfl⟩ | ⟨-, hq⟩
    · exact ⟨rfl, (hmids _ _).mpr (.inl ⟨rfl, rfl⟩), (hssrcs _ _).mpr (.inl ⟨hrtp, rfl⟩)⟩
    · obtain ⟨hown, hqmid, hqssrc⟩ := hagree.ofPid i q hq
      refine ⟨hown, (hmids _ _).mpr (.inr ⟨?_, hqmid⟩), (hssrcs _ _).mpr (.inr ⟨?_, hqssrc⟩)⟩
      · intro heq
        rw [← heq, hqmid] at hnomid
        cases hnomid
      · rintro ⟨info, hinfo, heq⟩
        have hfree := List.any_eq_false.mp hnossrc info hinfo
        rw [heq, hqssrc] at hfree
        exact hfree rfl

/-! ## Runs -/

/-- A call of one of the three functions. -/
inductive Call where
  | create (media : MediaRtcInfo)
  | remove (media : MediaRtcInfo)
  | removeByMid (mid : Int) (mediaType : Bytes)

/-- One call on the session that is filled. -/
def call (libs : RoomLibs) : Call → Filling → Except Exit Filling
  | .create media, st => createPublisher libs.uuid media st
  | .remove media, st => .ok { st with session := st.session.removePublisher media }
  | .removeByMid mid mediaType, st =>
    .ok { st with session := (st.session.removePublisherByMid mid mediaType).2 }

/-- The sections that are given are well-formed. -/
def Call.Given : Call → Prop
  | .create media => WellFormed media
  | .remove media => WellFormed media
  | .removeByMid _ _ => True

/-- The condition of a call.  A removal clears the publisher that it finds. -/
def Allowed : Call → Filling → Prop
  | .create _, _ => True
  | .remove media, st =>
    Clears st.session (st.session.mid2publishers.find? media.mid) fun n =>
      ∃ info ∈ media.ssrcInfos, info.ssrc = n
  | .removeByMid mid mediaType, st =>
    ∀ p, st.session.mid2publishers.find? mid = some p → p.mediaInfo.mediaType = mediaType →
      Clears st.session (some p) fun n =>
        n = p.stream.rtpSsrc ∨ p.stream.hasRtx = true ∧ n = p.stream.rtxSsrc

theorem clears_iff : Clears s gone taken ↔
    (∀ e ∈ s.ssrc2publishers.entries, gone = some e.2 → taken e.1) ∧
      ∀ e ∈ s.pid2publishers.entries, gone ≠ some e.2 → ¬taken e.2.stream.rtpSsrc := by
  simp only [Clears, OrderedMap.find?_eq_some, Prod.forall]
  refine and_congr_left fun _ => ⟨?_, ?_⟩
  · intro h n q hq heq
    exact h q heq n hq
  · intro h p hp n hn
    exact h n p hn hp

instance [DecidablePred taken] : Decidable (Clears s gone taken) :=
  decidable_of_iff _ clears_iff.symm

instance decidableAllowed : (c : Call) → (st : Filling) → Decidable (Allowed c st)
  | .create _, _ => .isTrue trivial
  | .remove media, st => inferInstanceAs (Decidable (Clears st.session
      (st.session.mid2publishers.find? media.mid) fun n =>
        ∃ info ∈ media.ssrcInfos, info.ssrc = n))
  | .removeByMid mid mediaType, st => inferInstanceAs (Decidable
      (∀ p, st.session.mid2publishers.find? mid = some p → p.mediaInfo.mediaType = mediaType →
        Clears st.session (some p) fun n =>
          n = p.stream.rtpSsrc ∨ p.stream.hasRtx = true ∧ n = p.stream.rtxSsrc))

/-- A section that is given is published, unless there is a publisher for it. -/
theorem createPublisher_cases {uuid : Nat → Bytes} {media : MediaRtcInfo}
    (hmedia : WellFormed media) (st : Filling) :
    createPublisher uuid media st = .ok st ∨
      ∃ stream, st.session.hasPublisher media = false ∧
        (∃ info ∈ media.ssrcInfos, info.ssrc = stream.rtpSsrc) ∧
        createPublisher uuid media st = .ok
          { session :=
              st.session.addPublisher { pid := uuid st.made, mediaInfo := media, stream }
            made := st.made + 1 } := by
  rw [createPublisher]
  cases hhas : st.session.hasPublisher media with
  | true => exact .inl rfl
  | false =>
    obtain ⟨stream, hstream, hline⟩ := hmedia.ofMedia
    right
    refine ⟨stream, rfl, hline, ?_⟩
    rw [hstream]
    rfl

/-- What a call does: nothing, a new publisher, or a removal. -/
theorem call_cases {c : Call} {st st' : Filling} (hgiven : c.Given)
    (hcall : call libs c st = .ok st') :
    st' = st ∧ Allowed c st ∨
    (∃ p, p.pid = libs.uuid st.made ∧ st.session.hasPublisher p.mediaInfo = false ∧
      0 ≤ p.mediaInfo.mid ∧
      (∃ info ∈ p.mediaInfo.ssrcInfos, info.ssrc = p.stream.rtpSsrc) ∧
      st' = { session := st.session.addPublisher p, made := st.made + 1 } ∧ Allowed c st) ∨
    ∃ mid gone taken session, TakesOut st.session mid gone taken session ∧
      st' = { st with session } ∧ (Allowed c st ↔ Clears st.session gone taken) := by
  cases c with
  | create media =>
    rcases createPublisher_cases hgiven st with hsame | ⟨stream, hnew, hline, hmade⟩
    · rw [call, hsame] at hcall
      cases hcall
      exact .inl ⟨rfl, trivial⟩
    · rw [call, hmade] at hcall
      cases hcall
      exact .inr (.inl ⟨_, rfl, hnew, hgiven.mid, hline, rfl, trivial⟩)
  | remove media =>
    cases hcall
    exact .inr (.inr ⟨_, _, _, _, removePublisher_takesOut st.session media, rfl, Iff.rfl⟩)
  | removeByMid mid mediaType =>
    cases hcall
    by_cases hfound : ∃ p, st.session.mid2publishers.find? mid = some p ∧
        p.mediaInfo.mediaType = mediaType
    · obtain ⟨p, hp, htype⟩ := hfound
      refine .inr (.inr ⟨_, _, _, _, removePublisherByMid_takesOut hp htype, rfl, ?_⟩)
      simp only [Allowed, hp, Option.some.injEq, forall_eq', htype, true_implies]
    · left
      rw [not_exists] at hfound
      have hunknown : ∀ p, st.session.mid2publishers.find? mid = some p →
          p.mediaInfo.mediaType ≠ mediaType := fun p hp htype => hfound p ⟨hp, htype⟩
      rw [removePublisherByMid_unknown hunknown]
      exact ⟨rfl, fun p hp htype => absurd htype (hunknown p hp)⟩

theorem call_indexed {c : Call} {st st' : Filling} (hgiven : c.Given)
    (hcall : call libs c st = .ok st') (h : Indexed libs st.session st.made) :
    Indexed libs st'.session st'.made := by
  rcases call_cases hgiven hcall with ⟨rfl, -⟩ | ⟨p, hpid, -, hmid, -, rfl, -⟩ |
    ⟨mid, gone, taken, session, htakes, rfl, -⟩
  · exact h
  · obtain ⟨hmids, hpids⟩ := @addPublisher_maps st.session p hmid
    refine ⟨?_, ?_⟩
    · intro m q hq
      rcases (hmids m q).mp hq with ⟨rfl, rfl⟩ | ⟨-, hq⟩
      · rfl
      · exact h.mid m q hq
    · intro i q hq
      rcases (hpids i q).mp hq with ⟨rfl, -⟩ | ⟨-, hq⟩
      · exact ⟨st.made, Nat.lt_succ_self _, hpid⟩
      · obtain ⟨n, hn, heq⟩ := h.pid i q hq
        exact ⟨n, Nat.lt_succ_of_lt hn, heq⟩
  · exact htakes.indexed h

/-- The maps agree behind a call exactly when it meets the condition. -/
theorem call_agree_iff {c : Call} {st st' : Filling} (hgiven : c.Given)
    (hcall : call libs c st = .ok st') (h : Indexed libs st.session st.made)
    (hagree : IndexesAgree st.session) : IndexesAgree st'.session ↔ Allowed c st := by
  rcases call_cases hgiven hcall with ⟨rfl, hallowed⟩ | ⟨p, hpid, hnew, hmid, hline, rfl, hallowed⟩ |
    ⟨mid, gone, taken, session, htakes, rfl, hallowed⟩
  · exact iff_of_true hagree hallowed
  · refine iff_of_true (agree_addPublisher hagree hnew hmid ?_ hline) hallowed
    cases hfind : st.session.pid2publishers.find? p.pid with
    | none => rfl
    | some q =>
      obtain ⟨n, hn, heq⟩ := h.pid _ q hfind
      have := libs.uuidInjective _ _ (hpid.symm.trans heq)
      omega
  · rw [hallowed]
    exact htakes.agree_iff h hagree

/-- The calls on a session that is new never fail, and its maps agree in every state exactly
when every removal clears its publisher. -/
theorem indexes_agree_iff (libs : RoomLibs) (id uid : Bytes) (direction : RtcDirection)
    (medias : List MediaRtcInfo) (made : Nat) (calls : List Call)
    (hgiven : ∀ c ∈ calls, c.Given) :
    ∃ t, Run.run (call libs) calls { session := { id, uid, direction, medias }, made } = .ok t ∧
      ((∀ pre st, pre <+: calls →
        Run.run (call libs) pre { session := { id, uid, direction, medias }, made } = .ok st →
          IndexesAgree st.session) ↔
        Run.Along (call libs) Allowed calls
          { session := { id, uid, direction, medias }, made }) := by
  have hamb := @Run.along_of_forall_mem Filling Exit Call (call libs) Call.Given calls hgiven
    { session := { id, uid, direction, medias }, made }
  have hkept : ∀ (c : Call) (st st' : Filling), True → c.Given → call libs c st = .ok st' → True :=
    fun _ _ _ _ _ _ => trivial
  have htotal : ∀ (c : Call) (st : Filling), True → c.Given → ∃ st', call libs c st = .ok st' := by
    intro c st _ hc
    cases c with
    | create media =>
      rcases createPublisher_cases hc st with hsame | ⟨stream, -, -, hmade⟩
      · exact ⟨st, hsame⟩
      · exact ⟨_, hmade⟩
    | remove media => exact ⟨_, rfl⟩
    | removeByMid mid mediaType => exact ⟨_, rfl⟩
  have hindexed : ∀ (c : Call) (st st' : Filling), Indexed libs st.session st.made → c.Given →
      call libs c st = .ok st' → Indexed libs st'.session st'.made :=
    fun _ _ _ h hc hcall => call_indexed hc hcall h
  have hagree : ∀ (c : Call) (st st' : Filling), Indexed libs st.session st.made → c.Given →
      IndexesAgree st.session → call libs c st = .ok st' →
        (IndexesAgree st'.session ↔ Allowed c st) :=
    fun _ _ _ h hc hagree hcall => call_agree_iff hc hcall h hagree
  obtain ⟨t, ht⟩ := Run.exists_run_ok hkept htotal trivial hamb
  refine ⟨t, ht, Run.forall_prefix_iff_along_of hindexed hagree ?_ ?_ hamb ht⟩
  · refine ⟨?_, ?_⟩
    · intro m q hq
      cases hq
    · intro i q hq
      cases hq
  · refine ⟨?_, ?_, ?_⟩
    · intro m q hq
      cases hq
    · intro n q hq
      cases hq
    · intro i q hq
      cases hq

/-! ## A section with more streams than its publisher -/

/-- A section of video with a group for RTX and a third stream. -/
def threeStreams : MediaRtcInfo where
  mid := 0
  mediaType := ascii "video"
  port := 9
  rtcpMux := ascii "rtcp-mux"
  setup := ascii "active"
  rtcp := { address := ascii "0.0.0.0", ipVer := 4, netType := ascii "IN", port := 9 }
  ssrcGroups := [{ semantics := ascii "FID", ssrcs := [1, 2] }]
  protocol := ascii "UDP/TLS/RTP/SAVPF"
  payloads := [96, 97]
  headerExtentions := []
  rtpEncodings :=
    [{ codec := ascii "H264", payload := 96, clockRate := 90000 },
      { codec := ascii "rtx", payload := 97, clockRate := 90000 }]
  ssrcInfos := [1, 2, 3].map fun ssrc => { attr := ascii "cname", value := ascii "c", ssrc }
  fmtps := [{ config := ascii "apt=96", payload := 97 }]

theorem wellFormed_threeStreams : WellFormed threeStreams where
  mid := by decide
  encodings := by simp [threeStreams]
  lines := by simp [threeStreams]
  groups := by simp [threeStreams]

/-- It is published and then taken out by its lines. -/
theorem indexes_agree_iff_lines :
    ∃ t, Run.run (call Room.sampleLibs) [.create threeStreams, .remove threeStreams]
        { session := { id := ascii "s", uid := ascii "u", direction := .recv, medias := [] }
          made := 0 } = .ok t ∧ IndexesAgree t.session := by
  obtain ⟨t, ht, hiff⟩ := indexes_agree_iff Room.sampleLibs (ascii "s") (ascii "u") .recv [] 0
    [.create threeStreams, .remove threeStreams] (by
      intro c hc
      rw [List.mem_cons, List.mem_singleton] at hc
      rcases hc with rfl | rfl
      · exact wellFormed_threeStreams
      · exact wellFormed_threeStreams)
  exact ⟨t, ht, hiff.mpr (by decide +kernel) _ t List.prefix_rfl ht⟩

/-- Taken out by its number it leaves its third stream. -/
theorem not_indexes_agree :
    ∃ t, Run.run (call Room.sampleLibs)
        [.create threeStreams, .removeByMid 0 (ascii "video")]
        { session := { id := ascii "s", uid := ascii "u", direction := .recv, medias := [] }
          made := 0 } = .ok t ∧ ¬IndexesAgree t.session := by
  obtain ⟨t, ht, hmaps⟩ := Run.exists_of_map_toOption
    (x := Run.run (call Room.sampleLibs)
      [.create threeStreams, .removeByMid 0 (ascii "video")]
      { session := { id := ascii "s", uid := ascii "u", direction := .recv, medias := [] }
        made := 0 })
    (f := fun t => (t.session.ssrc2publishers.find? 3 |>.map RtcPublisher.pid,
      t.session.pid2publishers.entries)) (b := (some (Room.sampleLibs.uuid 0), []))
    (by decide +kernel)
  refine ⟨t, ht, ?_⟩
  intro hagree
  obtain ⟨hssrc, hpid⟩ := Prod.mk.inj hmaps
  obtain ⟨p, hp, -⟩ := Option.map_eq_some_iff.mp hssrc
  have hlisted := OrderedMap.find?_eq_some.mp (hagree.ofSsrc 3 p hp)
  rw [hpid] at hlisted
  cases hlisted

end RtcBaseSession

end MediaServer
