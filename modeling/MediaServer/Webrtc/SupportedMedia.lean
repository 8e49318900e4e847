import MediaServer.Lib.RelatedLists
import MediaServer.Webrtc.StreamFaults

/-!
# What the server supports of an offer

`net/webrtc/support_rtc_info` filters every media section of an offer: the header
extensions and the feedbacks by a table each, the fmtps by the start of their text, the
encodings by a table and by whether an fmtp is left for them, and the payloads at last by
whether an encoding is left.  A section without any encoding is passed on as well.

`Answers` says what becomes of one section, and `mem_getSupportFmtp` and
`mem_getSupportRtpEncoding` say what is left of two of its lists.

* `accepted_readable_iff`: the sections that are handed to the constructors of publishers
  and subscribers have what these read exactly when every section of the offer `Encodes`.
* `closed_subset_iff`: the answer to an offer is closed exactly when every repair in the
  offer is one of a supported encoding.
-/

namespace MediaServer

namespace SupportRtcInfo

/-- The text starts with one of the table. -/
def isSupported (fmtp : Fmtp) : Bool :=
  supportFmtpList.any fun config => config.isPrefixOf fmtp.config

/-- The fmtp names a payload that its own repairs. -/
def isApt (fmtp : Fmtp) : Bool := apt.isPrefixOf fmtp.config

/-- The payload that is repaired. -/
def aptOf (fmtp : Fmtp) : Option Int := stoi (fmtp.config.drop 4)

/-- An fmtp of the list that is supported and no repair. -/
def Formats (fmtps : List Fmtp) (payload : Int) : Prop :=
  ∃ fmtp ∈ fmtps, isSupported fmtp = true ∧ isApt fmtp = false ∧ fmtp.payload = payload

/-- What is kept of a list of fmtps. -/
def IsKept (fmtps : List Fmtp) (fmtp : Fmtp) : Prop :=
  isSupported fmtp = true ∧
    (isApt fmtp = true → ∃ target, aptOf fmtp = some target ∧ Formats fmtps target)

variable {fmtps kept : List Fmtp} {encodings : List RtpEncoding} {enc : RtpEncoding}

/-! ## Formats and encodings -/

theorem keepRepaired_eq {payloads : List Int} (h : keepRepaired payloads fmtps = some kept) :
    kept = fmtps.filter fun fmtp => !isApt fmtp || (aptOf fmtp).any fun p => p ∈ payloads := by
  induction fmtps generalizing kept with
  | nil =>
    cases h
    rfl
  | cons fmtp rest ih =>
    rw [List.filter_cons]
    rw [keepRepaired] at h
    split_ifs at h with hapt
    · replace hapt : isApt fmtp = true := hapt
      cases htarget : stoi (fmtp.config.drop 4) with
      | none =>
        rw [htarget] at h
        cases h
      | some target =>
        have haptOf : aptOf fmtp = some target := htarget
        rw [htarget] at h
        replace h : (if target ∈ payloads then (keepRepaired payloads rest).map (fmtp :: ·)
          else keepRepaired payloads rest) = some kept := h
        rw [hapt, haptOf]
        split_ifs at h with hmem
        · obtain ⟨left, hleft, rfl⟩ := Option.map_eq_some_iff.mp h
          rw [ih hleft]
          simp [hmem]
        · rw [ih h]
          simp [hmem]
    · replace hapt : isApt fmtp = false := Bool.eq_false_of_not_eq_true hapt
      obtain ⟨left, hleft, rfl⟩ := Option.map_eq_some_iff.mp h
      rw [ih hleft, hapt]
      simp

/-- The loop throws only at a repair without a number. -/
theorem exists_keepRepaired (payloads : List Int)
    (h : ∀ fmtp ∈ fmtps, isApt fmtp = true → (aptOf fmtp).isSome) :
    ∃ kept, keepRepaired payloads fmtps = some kept := by
  induction fmtps with
  | nil => exact ⟨[], rfl⟩
  | cons fmtp rest ih =>
    obtain ⟨hfirst, hrest⟩ := List.forall_mem_cons.mp h
    obtain ⟨left, hleft⟩ := ih hrest
    rw [keepRepaired, hleft]
    split_ifs with hapt
    · obtain ⟨target, htarget⟩ := Option.isSome_iff_exists.mp (hfirst hapt)
      rw [aptOf] at htarget
      rw [htarget]
      by_cases hmem : target ∈ payloads
      · exact ⟨_, if_pos hmem⟩
      · exact ⟨_, if_neg hmem⟩
    · exact ⟨_, rfl⟩

theorem getSupportFmtp_sublist (h : getSupportFmtp fmtps = some kept) : kept.Sublist fmtps := by
  rw [keepRepaired_eq h]
  exact List.filter_sublist.trans List.filter_sublist

theorem mem_getSupportFmtp (h : getSupportFmtp fmtps = some kept) {fmtp : Fmtp} :
    fmtp ∈ kept ↔ fmtp ∈ fmtps ∧ IsKept fmtps fmtp := by
  have hformats : ∀ target, target ∈ ((fmtps.filter isSupported).filter
      fun fmtp => !isApt fmtp).map Fmtp.payload ↔ Formats fmtps target := by
    intro target
    simp only [List.mem_map, List.mem_filter, Formats, Bool.not_eq_true', and_assoc]
  rw [keepRepaired_eq h, List.mem_filter, List.mem_filter, and_assoc]
  refine and_congr_right fun _ => and_congr_right fun _ => ?_
  cases hapt : isApt fmtp with
  | false => simp
  | true =>
    rw [Bool.not_true, Bool.false_or, Option.any_eq_true]
    refine ⟨?_, ?_⟩
    · rintro ⟨target, htarget, hmem⟩ -
      exact ⟨target, htarget, (hformats target).mp (of_decide_eq_true hmem)⟩
    · intro hkept
      obtain ⟨target, htarget, hformat⟩ := hkept rfl
      exact ⟨target, htarget, decide_eq_true ((hformats target).mpr hformat)⟩

theorem getSupportRtpEncoding_sublist : (getSupportRtpEncoding encodings kept).Sublist encodings :=
  List.filter_sublist.trans List.filter_sublist

theorem mem_getSupportRtpEncoding :
    enc ∈ getSupportRtpEncoding encodings kept ↔
      enc ∈ encodings ∧ (enc.codec, enc.clockRate) ∈ supportRtpEncodingList ∧
        ∃ fmtp ∈ kept, fmtp.payload = enc.payload := by
  rw [getSupportRtpEncoding, List.mem_filter, List.mem_filter, decide_eq_true_eq, and_assoc,
    List.any_eq_true]
  simp only [decide_eq_true_eq]

/-! ## Sections -/

/-- What becomes of a section of the offer. -/
structure Answers (media answer : MediaRtcInfo) : Prop where
  mid : answer.mid = media.mid
  mediaType : answer.mediaType = media.mediaType
  headerExtentions : answer.headerExtentions = getSupportHeaderExt media.headerExtentions
  rtcpFbs : answer.rtcpFbs = getSupportRtcpFb media.rtcpFbs
  fmtps : getSupportFmtp media.fmtps = some answer.fmtps
  rtpEncodings : answer.rtpEncodings = getSupportRtpEncoding media.rtpEncodings answer.fmtps
  ssrcGroups : answer.ssrcGroups = media.ssrcGroups
  payloads : answer.payloads = media.payloads.filter fun payload =>
    answer.rtpEncodings.any (fun rtp => rtp.payload = payload) ||
      answer.rtcpFbs.any fun fb => fb.payload = payload

/-- The answer has a section for each one of the offer. -/
theorem getSupportRtcMedia_sections {info support : RtcMediaInfo}
    (h : getSupportRtcMedia info = some support) :
    List.Forall₂ Answers info.medias support.medias := by
  rw [getSupportRtcMedia] at h
  split at h
  · cases h
  · rename_i medias hmedias
    cases h
    refine List.forall₂_map_right_iff.mpr ((RelatedLists.forall₂_of_mapM hmedias).imp ?_)
    intro media answer hanswer
    rw [getSupportMedia] at hanswer
    split at hanswer
    · cases hanswer
    · rename_i fmtps hfmtps
      cases hanswer
      exact ⟨rfl, rfl, rfl, rfl, hfmtps, rfl, rfl, rfl⟩

/-- The answer is there when every repair names its payload by a number. -/
theorem exists_getSupportRtcMedia {info : RtcMediaInfo}
    (h : ∀ media ∈ info.medias, ∀ fmtp ∈ media.fmtps, isApt fmtp = true →
      (aptOf fmtp).isSome) : ∃ support, getSupportRtcMedia info = some support := by
  have hsections : ∀ medias : List MediaRtcInfo,
      (∀ media ∈ medias, ∀ fmtp ∈ media.fmtps, isApt fmtp = true → (aptOf fmtp).isSome) →
      ∃ answers, medias.mapM getSupportMedia = some answers := by
    intro medias
    induction medias with
    | nil => exact fun _ => ⟨[], rfl⟩
    | cons media medias ih =>
      intro h
      obtain ⟨hfirst, hrest⟩ := List.forall_mem_cons.mp h
      obtain ⟨answers, hanswers⟩ := ih hrest
      obtain ⟨fmtps, hfmtps⟩ : ∃ fmtps, getSupportFmtp media.fmtps = some fmtps :=
        exists_keepRepaired _ fun fmtp hmem => hfirst fmtp (List.mem_of_mem_filter hmem)
      rw [List.mapM_cons, getSupportMedia, hfmtps, hanswers]
      exact ⟨_, rfl⟩
  obtain ⟨answers, hanswers⟩ := hsections info.medias h
  rw [getSupportRtcMedia, hanswers]
  exact ⟨_, rfl⟩

/-! ## What the constructors read -/

/-- The first group, if there is one, has a number. -/
def Numbers (groups : List SsrcGroups) : Prop :=
  ∀ group, groups.head? = some group → group.ssrcs ≠ []

/-- What the constructors of `rtc_publisher` and `rtc_subscriber` read is there, and they
return. -/
structure Readable (media : MediaRtcInfo) : Prop where
  encodings : media.rtpEncodings ≠ []
  groups : Numbers media.ssrcGroups
  made : ∃ stream, StreamInfo.ofMedia media = .ok stream

/-- A section has a supported encoding with a supported fmtp. -/
def Encodes (media : MediaRtcInfo) : Prop :=
  ∃ enc ∈ media.rtpEncodings, (enc.codec, enc.clockRate) ∈ supportRtpEncodingList ∧
    ∃ fmtp ∈ media.fmtps, IsKept media.fmtps fmtp ∧ fmtp.payload = enc.payload

/-- The groups that a section of a subscribe request gets: those of the publisher that is
named for its type, or its own. -/
def boundGroups (remote : RtcBaseSession) (publishers : List PublisherInfo)
    (media : MediaRtcInfo) : List SsrcGroups :=
  match publishers.find? fun info => info.mediaType = media.mediaType with
  | none => media.ssrcGroups
  | some info =>
    match remote.getPublisher info.mid with
    | none => []
    | some publisher => publisher.mediaInfo.ssrcGroups

theorem readable_iff {media : MediaRtcInfo} :
    Readable media ↔ media.rtpEncodings ≠ [] ∧ Numbers media.ssrcGroups := by
  refine ⟨fun h => ⟨h.encodings, h.groups⟩, ?_⟩
  rintro ⟨hencodings, hgroups⟩
  have hempty : StreamInfo.emptyGroup media = false := by
    rw [StreamInfo.emptyGroup]
    cases hhead : media.ssrcGroups.head? with
    | none => rfl
    | some group => simpa using hgroups group hhead
  refine ⟨hencodings, hgroups, StreamInfo.ofMedia_ok ?_ hempty⟩
  rw [StreamInfo.unreadable, hempty, Bool.and_false, Bool.or_false]
  simpa using hencodings

/-- An encoding is left exactly of the sections that have a supported one. -/
theorem Answers.encodings_iff {media answer : MediaRtcInfo} (h : Answers media answer) :
    answer.rtpEncodings ≠ [] ↔ Encodes media := by
  rw [h.rtpEncodings, Encodes]
  constructor
  · intro hne
    obtain ⟨enc, hmem⟩ := List.exists_mem_of_ne_nil _ hne
    obtain ⟨henc, htable, fmtp, hfmtp, hpayload⟩ := mem_getSupportRtpEncoding.mp hmem
    obtain ⟨hoffered, hkept⟩ := (mem_getSupportFmtp h.fmtps).mp hfmtp
    exact ⟨enc, henc, htable, fmtp, hoffered, hkept, hpayload⟩
  · rintro ⟨enc, henc, htable, fmtp, hoffered, hkept, hpayload⟩
    have hfmtp := (mem_getSupportFmtp h.fmtps).mpr ⟨hoffered, hkept⟩
    exact List.ne_nil_of_mem
      (mem_getSupportRtpEncoding.mpr ⟨henc, htable, fmtp, hfmtp, hpayload⟩)

/-- What a section of a subscribe request takes from the publisher. -/
theorem bindMedia_some {remote : RtcBaseSession} {publishers : List PublisherInfo}
    {media bound : MediaRtcInfo} (h : Room.bindMedia remote publishers media = some bound) :
    bound.rtpEncodings = media.rtpEncodings ∧
      bound.ssrcGroups = boundGroups remote publishers media := by
  rcases Room.bindMedia_cases h with ⟨hnone, rfl⟩ | ⟨info, p, hinfo, hp, rfl⟩
  · simp only [boundGroups, hnone, and_self]
  · simp only [boundGroups, hinfo, hp, and_self]

/-- Of every offer, the sections that are handed to the constructors of publishers have what
these read exactly when each section of the offer has a supported encoding and a number in
its first group.  So have the sections that are handed to the constructors of subscribers,
whose groups are those of the publishers that the request names. -/
theorem accepted_readable_iff {info support : RtcMediaInfo}
    (h : getSupportRtcMedia info = some support) :
    ((∀ media ∈ support.medias, Readable media) ↔
      ∀ media ∈ info.medias, Encodes media ∧ Numbers media.ssrcGroups) ∧
    ∀ (remote : RtcBaseSession) (publishers : List PublisherInfo) (medias : List MediaRtcInfo),
      support.medias.mapM (Room.bindMedia remote publishers) = some medias →
      ((∀ media ∈ medias, Readable media) ↔
        ∀ media ∈ info.medias,
          Encodes media ∧ Numbers (boundGroups remote publishers media)) := by
  have hsections := getSupportRtcMedia_sections h
  refine ⟨RelatedLists.forall_mem_iff_of_forall₂ hsections ?_, ?_⟩
  · intro media answer hanswer
    rw [readable_iff, hanswer.encodings_iff, hanswer.ssrcGroups]
  · intro remote publishers medias hmedias
    have hbound : (∀ media ∈ medias, Readable media) ↔ ∀ answer ∈ support.medias,
        answer.rtpEncodings ≠ [] ∧ Numbers (boundGroups remote publishers answer) := by
      refine RelatedLists.forall_mem_iff_of_forall₂ (RelatedLists.forall₂_of_mapM hmedias) ?_
      intro answer bound hbind
      obtain ⟨hencodings, hgroups⟩ := bindMedia_some hbind
      rw [readable_iff, hencodings, hgroups]
    rw [hbound]
    refine RelatedLists.forall_mem_iff_of_forall₂ hsections ?_
    intro media answer hanswer
    rw [hanswer.encodings_iff, boundGroups, boundGroups, hanswer.mediaType, hanswer.ssrcGroups]

/-- An offer of audio. -/
def audioOffer : RtcMediaInfo :=
  (RtcMediaInfo.parse (Room.object [("media", .arr [Room.sampleMedia]), ("version", .num 0)]) {}).2

/-- What stands in its section. -/
theorem of_mem_audioOffer {media : MediaRtcInfo} (h : media ∈ audioOffer.medias) :
    media.rtpEncodings = [{ codec := ascii "opus", payload := 111, clockRate := 48000 }] ∧
      media.fmtps = [{ config := ascii "minptime=10;useinbandfec=1", payload := 111 }] ∧
      media.ssrcGroups = [] := by
  have hmedias : audioOffer.medias.map (fun media =>
      (media.rtpEncodings, media.fmtps, media.ssrcGroups)) =
      [([{ codec := ascii "opus", payload := 111, clockRate := 48000 }],
        [{ config := ascii "minptime=10;useinbandfec=1", payload := 111 }], [])] := by
    decide +kernel
  have hmem := List.mem_map_of_mem (f := fun media : MediaRtcInfo =>
    (media.rtpEncodings, media.fmtps, media.ssrcGroups)) h
  rw [hmedias, List.mem_singleton] at hmem
  simpa using hmem

/-- The section can be read. -/
theorem accepted_readable_iff_audio :
    ∃ support, getSupportRtcMedia audioOffer = some support ∧
      ∀ media ∈ support.medias, Readable media := by
  have hnoApt : isApt { config := ascii "minptime=10;useinbandfec=1", payload := 111 } = false := by
    decide +kernel
  obtain ⟨support, h⟩ : ∃ support, getSupportRtcMedia audioOffer = some support := by
    refine exists_getSupportRtcMedia ?_
    intro media hmedia fmtp hfmtp hapt
    rw [(of_mem_audioOffer hmedia).2.1] at hfmtp
    rw [List.mem_singleton.mp hfmtp, hnoApt] at hapt
    cases hapt
  refine ⟨support, h, (accepted_readable_iff h).1.mpr ?_⟩
  intro media hmedia
  obtain ⟨hencodings, hfmtps, hgroups⟩ := of_mem_audioOffer hmedia
  refine ⟨?_, by simp [hgroups, Numbers]⟩
  rw [Encodes, hencodings, hfmtps]
  refine ⟨_, List.mem_singleton_self _, by decide +kernel, _, List.mem_singleton_self _,
    ⟨by decide +kernel, ?_⟩, rfl⟩
  intro hapt
  rw [hnoApt] at hapt
  cases hapt

/-- What the SDP library reads from an offer of one section. -/
def oneSection (mediaType payloads : String) (rtp fmtp : List Json) : Json :=
  Room.object [("media", .arr [Room.object [
    ("connection", Room.object [("ip", Room.textJson "0.0.0.0"), ("version", .num 4)]),
    ("direction", Room.textJson "sendonly"),
    ("ext", .arr [Room.object [("uri", Room.textJson "urn:x"), ("value", .num 4)]]),
    ("fingerprint",
      Room.object [("hash", Room.textJson "AA"), ("type", Room.textJson "sha-256")]),
    ("fmtp", .arr fmtp), ("iceOptions", Room.textJson "o"), ("icePwd", Room.textJson "p"),
    ("iceUfrag", Room.textJson "u"), ("mid", Room.textJson "0"),
    ("payloads", Room.textJson payloads), ("port", .num 9), ("protocol", Room.textJson "RTP"),
    ("rtcp", Room.object [("address", Room.textJson "0.0.0.0"), ("ipVer", .num 4),
      ("netType", Room.textJson "IN"), ("port", .num 9)]),
    ("rtcpMux", Room.textJson "rtcp-mux"), ("rtp", .arr rtp), ("setup", Room.textJson "actpass"),
    ("ssrcs", .arr [Room.object [("attribute", Room.textJson "cname"), ("id", .num 7),
      ("value", Room.textJson "x")]]),
    ("type", Room.textJson mediaType)]]), ("version", .num 0)]

/-- An entry of the `rtp` array. -/
def rtpJson (codec : String) (payload rate : Int) : Json :=
  Room.object [("codec", Room.textJson codec), ("payload", .num payload), ("rate", .num rate)]

/-- An entry of the `fmtp` array. -/
def fmtpJson (config : String) (payload : Int) : Json :=
  Room.object [("config", Room.textJson config), ("payload", .num payload)]

/-- An offer of video in a format that the server does not know. -/
def vp8Sdp : Json := oneSection "video" "96" [rtpJson "VP8" 96 90000] []

/-- No encoding is left of it, and the constructor reads the first one. -/
theorem not_accepted_readable :
    (RtcMediaInfo.parse vp8Sdp {}).1 = some () ∧
      (getSupportRtcMedia (RtcMediaInfo.parse vp8Sdp {}).2).map (fun support =>
        support.medias.map fun media => (media.rtpEncodings, StreamInfo.ofMedia media)) =
      some [([], .error (.fault .nullPointer))] := by
  decide +kernel

end SupportRtcInfo

/-! ## What the parser does not read -/

namespace RtcMediaInfo

/-- A computation keeps a property of the object, also when it throws. -/
def Keeps {α : Type} (I : RtcMediaInfo → Prop) (x : Parse α) : Prop :=
  ∀ info, I info → I (x.run info).2

variable {I : RtcMediaInfo → Prop} {α β : Type}

theorem keeps_pure (a : α) : Keeps I (pure a : Parse α) := fun _ h => h

theorem keeps_need (part : Option α) : Keeps I (need part) := fun _ h => h

theorem keeps_modify {f : RtcMediaInfo → RtcMediaInfo} (hf : ∀ info, I info → I (f info)) :
    Keeps I (modify f : Parse Unit) := hf

theorem keeps_bind {x : Parse α} {f : α → Parse β} (hx : Keeps I x) (hf : ∀ a, Keeps I (f a)) :
    Keeps I (x >>= f) := by
  intro info h
  have hfirst := hx info h
  have hrun : (x >>= f).run info =
      ((x.run info).1.elim (pure none) fun a => (f a).run) (x.run info).2 := by
    rw [OptionT.run_bind]
    rfl
  rw [hrun]
  cases (x.run info).1 with
  | none => exact hfirst
  | some a => exact hf a _ hfirst

theorem keeps_forIn {γ : Type} {items : List γ} {f : γ → PUnit → Parse (ForInStep PUnit)}
    (hf : ∀ item ∈ items, ∀ b, Keeps I (f item b)) (b : PUnit) : Keeps I (forIn items b f) := by
  induction items generalizing b with
  | nil => exact keeps_pure b
  | cons item items ih =>
    obtain ⟨hfirst, hrest⟩ := List.forall_mem_cons.mp hf
    rw [List.forIn_cons]
    refine keeps_bind (hfirst b) ?_
    intro next
    cases next with
    | done b => exact keeps_pure b
    | yield b => exact ih hrest b

/-- No section has a feedback. -/
def NoFeedback (info : RtcMediaInfo) : Prop := ∀ media ∈ info.medias, media.rtcpFbs = []

/-- The fields beside the sections do not matter. -/
theorem keeps_modify_other {f : RtcMediaInfo → RtcMediaInfo}
    (hf : ∀ info, (f info).medias = info.medias) : Keeps NoFeedback (modify f : Parse Unit) := by
  refine keeps_modify ?_
  intro info h
  rw [NoFeedback, hf info]
  exact h

theorem keeps_modify_append {media : MediaRtcInfo} (hmedia : media.rtcpFbs = []) :
    Keeps NoFeedback
      (modify fun info => { info with medias := info.medias ++ [media] } : Parse Unit) := by
  refine keeps_modify ?_
  intro info h other hother
  rcases List.mem_append.mp hother with hother | hother
  · exact h other hother
  · rw [List.mem_singleton.mp hother, hmedia]

theorem keeps_parseMedia (item : Json) : Keeps NoFeedback (parseMedia item) := by
  simp only [parseMedia, getConnectionInfo]
  repeat'
    first
    | with_reducible exact keeps_need _
    | with_reducible exact keeps_modify_append rfl
    | with_reducible exact keeps_modify_other fun _ => rfl
    | with_reducible refine keeps_bind ?_ ?_
    | with_reducible intro _

theorem keeps_getBasicInfo (sdp : Json) : Keeps NoFeedback (getBasicInfo sdp) := by
  simp only [getBasicInfo, getOrigin, getTiming]
  repeat'
    first
    | with_reducible exact keeps_need _
    | with_reducible exact keeps_pure _
    | with_reducible exact keeps_modify_other fun _ => rfl
    | with_reducible refine keeps_bind ?_ ?_
    | with_reducible refine keeps_forIn ?_ _
    | with_reducible intro _
    | split

/-- The parser never reads a feedback. -/
theorem parse_noFeedback {sdp : Json} {info : RtcMediaInfo} (h : NoFeedback info) :
    NoFeedback (parse sdp info).2 := by
  have hbody : Keeps NoFeedback (parseBody sdp) := by
    refine keeps_bind (keeps_getBasicInfo sdp) fun _ => keeps_bind (keeps_need _) fun items => ?_
    refine keeps_bind (keeps_forIn (fun item _ _ => ?_) _) fun _ => keeps_pure _
    exact keeps_bind (keeps_parseMedia item) fun _ => keeps_pure _
  exact hbody info h

end RtcMediaInfo

namespace SupportRtcInfo

/-! ## The answer and the offer -/

/-- A section of the answer is a part of the section of the offer, and does not refer to
what is not in it. -/
structure ClosedSubset (media answer : MediaRtcInfo) : Prop where
  headerExtentions : answer.headerExtentions.Sublist media.headerExtentions
  rtcpFbs : answer.rtcpFbs.Sublist media.rtcpFbs
  fmtps : answer.fmtps.Sublist media.fmtps
  rtpEncodings : answer.rtpEncodings.Sublist media.rtpEncodings
  payloads : answer.payloads = media.payloads.filter fun payload =>
    answer.rtpEncodings.any fun rtp => rtp.payload = payload
  repairs : ∀ enc ∈ answer.rtpEncodings, enc.codec = StreamInfo.rtx →
    ∀ fmtp ∈ answer.fmtps, fmtp.payload = enc.payload → isApt fmtp = true →
      ∀ target, aptOf fmtp = some target →
        ∃ other ∈ answer.rtpEncodings, other.codec ≠ StreamInfo.rtx ∧ other.payload = target

/-- Every supported repair of a payload that has a supported fmtp is one of a supported
encoding. -/
def RepairsEncodings (media : MediaRtcInfo) : Prop :=
  ∀ enc ∈ media.rtpEncodings, enc.codec = StreamInfo.rtx →
    (enc.codec, enc.clockRate) ∈ supportRtpEncodingList →
      ∀ fmtp ∈ media.fmtps, fmtp.payload = enc.payload → isApt fmtp = true →
        ∀ target, aptOf fmtp = some target → Formats media.fmtps target →
          ∃ other ∈ media.rtpEncodings, other.codec ≠ StreamInfo.rtx ∧
            (other.codec, other.clockRate) ∈ supportRtpEncodingList ∧ other.payload = target

theorem isSupported_of_isApt {fmtp : Fmtp} (h : isApt fmtp = true) : isSupported fmtp = true :=
  List.any_eq_true.mpr ⟨apt, by simp [supportFmtpList], h⟩

/-- A section of an offer without feedbacks. -/
theorem Answers.closedSubset_iff {media answer : MediaRtcInfo} (h : Answers media answer)
    (hfbs : media.rtcpFbs = []) : ClosedSubset media answer ↔ RepairsEncodings media := by
  have hencoding : ∀ enc, enc ∈ answer.rtpEncodings ↔ enc ∈ media.rtpEncodings ∧
      (enc.codec, enc.clockRate) ∈ supportRtpEncodingList ∧
        ∃ fmtp ∈ answer.fmtps, fmtp.payload = enc.payload := by
    intro enc
    rw [h.rtpEncodings]
    exact mem_getSupportRtpEncoding
  have hfmtp : ∀ fmtp, fmtp ∈ answer.fmtps ↔ fmtp ∈ media.fmtps ∧ IsKept media.fmtps fmtp :=
    fun fmtp => mem_getSupportFmtp h.fmtps
  constructor
  · intro hclosed enc henc hrtx htable fmtp hmem hpayload hapt target htarget hformat
    have hkept : fmtp ∈ answer.fmtps :=
      (hfmtp fmtp).mpr ⟨hmem, isSupported_of_isApt hapt, fun _ => ⟨target, htarget, hformat⟩⟩
    obtain ⟨other, hother, hne, hsame⟩ := hclosed.repairs enc
      ((hencoding enc).mpr ⟨henc, htable, fmtp, hkept, hpayload⟩) hrtx fmtp hkept hpayload hapt
      target htarget
    obtain ⟨hoffered, hothertable, -⟩ := (hencoding other).mp hother
    exact ⟨other, hoffered, hne, hothertable, hsame⟩
  · intro hrepairs
    have hnone : answer.rtcpFbs = [] := by
      rw [h.rtcpFbs, hfbs]
      rfl
    refine ⟨?_, ?_, getSupportFmtp_sublist h.fmtps, ?_, ?_, ?_⟩
    · rw [h.headerExtentions]
      exact List.filter_sublist
    · rw [h.rtcpFbs]
      exact List.filter_sublist
    · rw [h.rtpEncodings]
      exact getSupportRtpEncoding_sublist
    · rw [h.payloads, hnone]
      simp only [List.any_nil, Bool.or_false]
    · intro enc henc hrtx fmtp hkept hpayload hapt target htarget
      obtain ⟨henc, htable, -⟩ := (hencoding enc).mp henc
      obtain ⟨hmem, hiskept⟩ := (hfmtp fmtp).mp hkept
      obtain ⟨target', htarget', hformat⟩ := hiskept.2 hapt
      rw [htarget] at htarget'
      cases htarget'
      obtain ⟨other, hother, hne, hothertable, hsame⟩ :=
        hrepairs enc henc hrtx htable fmtp hmem hpayload hapt target htarget hformat
      obtain ⟨format, hformatmem, hsupported, hnotapt, hformatpayload⟩ := hformat
      have hformatkept : format ∈ answer.fmtps := by
        refine (hfmtp format).mpr ⟨hformatmem, hsupported, ?_⟩
        intro hapt'
        rw [hnotapt] at hapt'
        cases hapt'
      exact ⟨other, (hencoding other).mpr
        ⟨hother, hothertable, format, hformatkept, hformatpayload.trans hsame.symm⟩, hne, hsame⟩

/-- Every parsed offer whose repairs name numbers is answered, and the answer is a closed
part of it exactly when each repair of a payload with a supported fmtp is one of a supported
encoding. -/
theorem closed_subset_iff {sdp : Json} {info offer : RtcMediaInfo}
    (hparse : info.reset.parse sdp = (some (), offer))
    (hapt : ∀ media ∈ offer.medias, ∀ fmtp ∈ media.fmtps, isApt fmtp = true →
      (aptOf fmtp).isSome) :
    ∃ support, getSupportRtcMedia offer = some support ∧
      (List.Forall₂ ClosedSubset offer.medias support.medias ↔
        ∀ media ∈ offer.medias, RepairsEncodings media) := by
  obtain ⟨support, hsupport⟩ := exists_getSupportRtcMedia hapt
  refine ⟨support, hsupport, ?_⟩
  have hreset : info.reset.NoFeedback := by
    intro media hmedia
    cases hmedia
  have hfbs := @RtcMediaInfo.parse_noFeedback sdp _ hreset
  rw [hparse] at hfbs
  have hsections := (List.forall₂_and_left offer.medias support.medias).mpr
    ⟨hfbs, getSupportRtcMedia_sections hsupport⟩
  apply RelatedLists.forall₂_iff_of_forall₂ hsections
  intro media answer hanswer
  exact hanswer.2.closedSubset_iff hanswer.1

/-- An offer of H264 under the name `codec`, with its repair. -/
def repairedSdp (codec : String) : Json :=
  oneSection "video" "96 97" [rtpJson codec 96 90000, rtpJson "rtx" 97 90000]
    [fmtpJson "level-asymmetry-allowed=1;packetization-mode=1;profile-level-id=42e01f" 96,
      fmtpJson "apt=96" 97]

/-- What is parsed of it. -/
def repairedOffer (codec : String) : RtcMediaInfo :=
  (RtcMediaInfo.parse (repairedSdp codec) (RtcMediaInfo.reset {})).2

/-- The fmtps that are kept of it. -/
def repairedFmtps : List Fmtp :=
  [{ config := ascii "level-asymmetry-allowed=1;packetization-mode=1;profile-level-id=42e01f"
     payload := 96 },
    { config := ascii "apt=96", payload := 97 }]

theorem of_mem_repairedFmtps {fmtp : Fmtp} (h : fmtp ∈ repairedFmtps) (hapt : isApt fmtp = true) :
    fmtp.payload = 97 ∧ aptOf fmtp = some 96 := by
  rw [repairedFmtps, List.mem_cons, List.mem_singleton] at h
  rcases h with rfl | rfl
  · exact absurd hapt (by decide +kernel)
  · exact ⟨rfl, by decide +kernel⟩

theorem repairedOffer_read :
    (RtcMediaInfo.parse (repairedSdp "H264") (RtcMediaInfo.reset {})).1 = some () ∧
      ∀ media ∈ (repairedOffer "H264").medias, media.fmtps = repairedFmtps ∧
        { codec := ascii "H264", payload := 96, clockRate := 90000 } ∈ media.rtpEncodings := by
  decide +kernel

/-- The repair of H264 is one of a supported encoding. -/
theorem closed_subset_iff_h264 :
    ∃ support, getSupportRtcMedia (repairedOffer "H264") = some support ∧
      List.Forall₂ ClosedSubset (repairedOffer "H264").medias support.medias := by
  obtain ⟨hparsed, hmedias⟩ := repairedOffer_read
  have hparse : RtcMediaInfo.parse (repairedSdp "H264") (RtcMediaInfo.reset {}) =
      (some (), repairedOffer "H264") := Prod.ext hparsed rfl
  obtain ⟨support, hsupport, hiff⟩ := closed_subset_iff hparse (by
    intro media hmedia fmtp hfmtp hapt
    rw [(hmedias media hmedia).1] at hfmtp
    rw [(of_mem_repairedFmtps hfmtp hapt).2]
    rfl)
  refine ⟨support, hsupport, hiff.mpr ?_⟩
  intro media hmedia enc henc hrtx htable fmtp hfmtp hpayload hapt target htarget hformat
  obtain ⟨hfmtps, hencoding⟩ := hmedias media hmedia
  rw [hfmtps] at hfmtp
  rw [(of_mem_repairedFmtps hfmtp hapt).2] at htarget
  cases htarget
  exact ⟨_, hencoding, by decide +kernel, by decide +kernel, rfl⟩

/-- In small letters the encoding is not supported, but its repair is. -/
theorem not_closed_subset :
    (RtcMediaInfo.parse (repairedSdp "h264") (RtcMediaInfo.reset {})).1 = some () ∧
      ∃ support, getSupportRtcMedia (repairedOffer "h264") = some support ∧
        ¬List.Forall₂ ClosedSubset (repairedOffer "h264").medias support.medias := by
  have heval : (RtcMediaInfo.parse (repairedSdp "h264") (RtcMediaInfo.reset {})).1 = some () ∧
      (getSupportRtcMedia (repairedOffer "h264")).map (fun support =>
        support.medias.map fun answer => (answer.rtpEncodings, answer.fmtps)) =
      some [([{ codec := ascii "rtx", payload := 97, clockRate := 90000 }], repairedFmtps)] := by
    decide +kernel
  obtain ⟨support, hsupport, hanswers⟩ := Option.map_eq_some_iff.mp heval.2
  refine ⟨heval.1, support, hsupport, ?_⟩
  intro h
  obtain ⟨answer, hanswer⟩ := List.map_eq_singleton_iff.mp hanswers
  rw [hanswer.1] at h
  obtain ⟨media, -, hclosed, -, -⟩ := List.forall₂_cons_right_iff.mp h
  obtain ⟨hencodings, hfmtps⟩ := Prod.mk.inj hanswer.2
  have hrepairs := hclosed.repairs
  rw [hencodings, hfmtps] at hrepairs
  obtain ⟨other, hother, hne, -⟩ := hrepairs _ (List.mem_singleton_self _) rfl
    { config := ascii "apt=96", payload := 97 } (by decide +kernel) rfl (by decide +kernel) 96
    (by decide +kernel)
  rw [List.mem_singleton.mp hother] at hne
  exact hne rfl

end SupportRtcInfo

end MediaServer
