import MediaServer.Webrtc.RoomFrames
import MediaServer.Webrtc.StreamFaults

/-!
# The answers to requests

A handler should answer its request once, or throw, and a request that is rejected should
change nothing.  `Ending` is how a handler ends that does so, or that leaves the defined
behaviour.  Two paths end in another way.  `handle_unpublish` returns without an answer when
the request names no session.  `handle_unsubscribe` erases the session before its last
reject.

The behaviour is not defined when a publisher or a subscriber is made of a section that
cannot be read.  `publishedSections` and `subscribedSections` are the sections that the two
loops are given, and `publishFaults` and `subscribeFaults` say what the loops do with them.
-/

namespace MediaServer

/-- The id of the request that a message answers. -/
def ProtooMessage.answers : ProtooMessage → Option Bytes
  | .accept id _ => some id
  | .reject id _ _ => some id
  | .notification _ _ => none

namespace Outcome

/-- The answers among what was sent. -/
def replies (out : Outcome) : List (Connection × ProtooMessage) :=
  out.sent.filter fun m => m.2.answers.isSome

/-- A request was rejected. -/
def Rejected (out : Outcome) : Prop :=
  ∃ dest id errCode err, (dest, ProtooMessage.reject id errCode err) ∈ out.sent

/-- The handler threw before it answered, or it returned after one answer. -/
def Settled (id : Bytes) (feedback : Connection) (out : Outcome) : Prop :=
  out.exit = some .thrown ∧ out.replies = [] ∨
    out.exit = none ∧ ∃ m, out.replies = [(feedback, m)] ∧ m.answers = some id

end Outcome

namespace Room

open RtcBaseSession

/-! ## How handlers end -/

/-- The users with their sessions and the subscribers are what they were. -/
def Unchanged (r r' : Room) : Prop :=
  r'.member = r.member ∧ r'.pid2subscribers = r.pid2subscribers

/-- The ways in which a handler ends. -/
inductive Ending (id : Bytes) (feedback : Connection) (r : Room) (out : Outcome) : Prop where
  | accepted (data : Json) (hexit : out.exit = none)
      (hreplies : out.replies = [(feedback, .accept id data)])
  | rejected (errCode : Nat) (err : String) (hexit : out.exit = none)
      (hsent : out.sent = [(feedback, .reject id errCode err)]) (hsame : Unchanged r out.room)
  | threw (hexit : out.exit = some .thrown) (hsent : out.sent = [])
  | faulted (f : Fault) (hexit : out.exit = some (.fault f)) (hsent : out.sent = [])

section Ending

variable {libs : RoomLibs} {id : Bytes} {feedback : Connection} {r : Room} {out : Outcome}
  {data : Json}

theorem Ending.settled_iff (h : Ending id feedback r out) :
    out.Settled id feedback ↔ ¬∃ f, out.exit = some (.fault f) := by
  cases h with
  | accepted data hexit hreplies =>
    simp [Outcome.Settled, hexit, hreplies, ProtooMessage.answers]
  | rejected errCode err hexit hsent =>
    simp [Outcome.Settled, Outcome.replies, hexit, hsent, ProtooMessage.answers]
  | threw hexit hsent => simp [Outcome.Settled, Outcome.replies, hexit, hsent]
  | faulted f hexit hsent => simp [Outcome.Settled, hexit]

theorem Outcome.rejected_of_sent {dest : Connection} {errCode : Nat} {err : String}
    (h : out.sent = [(dest, .reject id errCode err)]) : out.Rejected := by
  refine ⟨dest, id, errCode, err, ?_⟩
  rw [h]
  exact List.mem_singleton_self _

theorem Outcome.mem_replies_of_rejected (h : out.Rejected) :
    ∃ dest id errCode err, (dest, ProtooMessage.reject id errCode err) ∈ out.replies := by
  obtain ⟨dest, id, errCode, err, hmem⟩ := h
  exact ⟨dest, id, errCode, err, List.mem_filter.mpr ⟨hmem, rfl⟩⟩

theorem Ending.unchanged (h : Ending id feedback r out) (hrejected : out.Rejected) :
    Unchanged r out.room := by
  obtain ⟨dest, id', errCode', err', hmem⟩ := Outcome.mem_replies_of_rejected hrejected
  cases h with
  | accepted data hexit hreplies =>
    rw [hreplies, List.mem_singleton] at hmem
    cases hmem
  | rejected errCode err hexit hsent hsame => exact hsame
  | threw hexit hsent =>
    rw [Outcome.replies, hsent] at hmem
    cases hmem
  | faulted f hexit hsent =>
    rw [Outcome.replies, hsent] at hmem
    cases hmem

/-- A handler that refuses has changed nothing. -/
theorem ending_refuse {refusal : Refusal} (hanswer : refusal ≠ .silent) {r₀ : Room}
    (hsame : Unchanged r r₀) : Ending id feedback r (r₀.refuse id feedback refusal) := by
  cases refusal with
  | reject errCode err => exact .rejected errCode err rfl rfl hsame
  | silent => exact absurd rfl hanswer
  | throws => exact .threw rfl rfl

/-- An exception or a fault, before anything was sent. -/
theorem ending_exit (room : Room) (e : Exit) :
    Ending id feedback r { room, exit := some e } := by
  cases e with
  | thrown => exact .threw rfl rfl
  | fault f => exact .faulted f rfl rfl

/-! ## Notifications are not answers -/

theorem answers_notifyOthers (r : Room) (uid : Bytes) (method : String) (data : Json) :
    (r.notifyOthers uid method data).filter (fun m => m.2.answers.isSome) = [] := by
  simp [notifyOthers, ProtooMessage.answers]

theorem answers_notifyOthersPublisherToMe (r : Room) (uid : Bytes) (me : Connection) :
    (r.notifyOthersPublisherToMe uid me).filter (fun m => m.2.answers.isSome) = [] := by
  rw [List.filter_eq_nil_iff]
  intro m hm
  obtain ⟨e, -, he⟩ := List.mem_filterMap.mp hm
  split at he
  · cases he
  · cases he
    simp [ProtooMessage.answers]

/-! ## The refusals of the checks -/

theorem avoids_reject {α : Type} {value : Option α} (errCode : Nat) (err : String) :
    Run.Avoids .silent (orElse value (.reject errCode err)) :=
  avoids_orElse (by simp)

theorem checkUser_avoids (missing unknown : String) :
    Run.Avoids .silent (r.checkUser data missing unknown) := by
  unfold checkUser
  refine Run.avoids_ite (Run.avoids_of_ne (by simp)) ?_
  refine (avoids_reject _ _).bind fun user _ => ?_
  exact Run.avoids_ok _ _

theorem checkPublish_avoids : Run.Avoids .silent (r.checkPublish data) := by
  unfold checkPublish
  refine (checkUser_avoids _ _).bind fun t _ => ?_
  refine (avoids_reject _ _).bind fun sdpJson _ => ?_
  refine (avoids_reject _ _).bind fun sdp _ => ?_
  exact Run.avoids_ok _ _

theorem checkSubscribe_avoids : Run.Avoids .silent (r.checkSubscribe data) := by
  unfold checkSubscribe
  refine (checkUser_avoids _ _).bind fun t _ => ?_
  refine (avoids_orElse (by simp)).bind fun remoteUid _ => ?_
  refine (avoids_reject _ _).bind fun remoteUser _ => ?_
  refine (avoids_orElse (by simp)).bind fun remotePcId _ => ?_
  refine (avoids_reject _ _).bind fun remoteSession _ => ?_
  refine (avoids_reject _ _).bind fun publishers _ => ?_
  refine (avoids_reject _ _).bind fun sdpJson _ => ?_
  refine (avoids_reject _ _).bind fun sdp _ => ?_
  exact Run.avoids_ok _ _

theorem checkUnsubscribe_avoids : Run.Avoids .silent (r.checkUnsubscribe data) := by
  unfold checkUnsubscribe
  refine (checkUser_avoids _ _).bind fun t _ => ?_
  refine (avoids_orElse (by simp)).bind fun pcid _ => ?_
  refine (avoids_reject _ _).bind fun session _ => ?_
  exact Run.avoids_ok _ _

/-- The request comes from a user and names no session. -/
def NamesNoSession (r : Room) (data : Json) : Prop :=
  getUidByJson data ≠ [] ∧ (r.users.find? (getUidByJson data)).isSome ∧ data.textAt "pcid" = none

theorem checkUnpublish_silent_iff :
    r.checkUnpublish data = .error .silent ↔ NamesNoSession r data := by
  unfold checkUnpublish NamesNoSession
  constructor
  · intro h
    rcases Run.error_of_bind_error h with h | ⟨⟨uid, user⟩, huser, h⟩
    · exact absurd h (checkUser_avoids _ _)
    · obtain ⟨huid, hne, hfind⟩ := checkUser_ok huser
      refine ⟨huid ▸ hne, by rw [huid, hfind, Option.isSome_some], ?_⟩
      rcases hpcid : data.textAt "pcid" with - | pcid
      · rfl
      · rw [hpcid] at h
        exact absurd h ((avoids_reject _ _).bind fun session _ => Run.avoids_ok _ _)
  · rintro ⟨hne, hsome, hpcid⟩
    obtain ⟨user, huser⟩ := Option.isSome_iff_exists.mp hsome
    simp only [checkUser, if_neg hne, huser, hpcid, orElse]
    rfl

/-! ## The handlers -/

theorem unchanged_self (r : Room) : Unchanged r r := ⟨rfl, rfl⟩

theorem handleJoin_ending : Ending id feedback r (handleJoin id data feedback r) := by
  unfold handleJoin
  split
  · rename_i refusal hcheck
    refine ending_refuse ?_ (unchanged_self r)
    rintro rfl
    exact checkJoin_avoids (by simp) hcheck
  · rename_i uid hcheck
    refine .accepted (usersJson (r.setUser uid { uid, roomId := r.roomId, feedback })) rfl ?_
    simp only [Outcome.replies, List.filter_append, notifyUserinToOthers, answers_notifyOthers,
      answers_notifyOthersPublisherToMe, List.nil_append, List.append_nil]
    rfl

theorem publishOffer_ending {uid : Bytes} {user : UserInfo} {info support : RtcMediaInfo}
    {r₀ : Room} :
    Ending id feedback r₀ (publishOffer libs id uid user feedback info support r) := by
  unfold publishOffer
  split
  · exact ending_exit _ .thrown
  · split
    · exact ending_exit _ _
    · split
      · exact ending_exit _ .thrown
      · rename_i st hopen _ sdp hanswer
        refine .accepted (answerJson st.session.id sdp) rfl ?_
        simp only [Outcome.replies, notifyPublisherToOthers]
        rw [List.filter_cons_of_pos rfl, answers_notifyOthers]

theorem handlePublish_ending : Ending id feedback r (handlePublish libs id data feedback r) := by
  unfold handlePublish
  split
  · rename_i refusal hcheck
    refine ending_refuse ?_ (unchanged_self r)
    rintro rfl
    exact checkPublish_avoids hcheck
  · split
    · exact ending_exit _ .thrown
    · split
      · exact ending_exit _ .thrown
      · exact publishOffer_ending

theorem handleUnpublish_ending (hsession : ¬NamesNoSession r data) :
    Ending id feedback r (handleUnpublish id data feedback r) := by
  unfold handleUnpublish
  split
  · rename_i refusal hcheck
    refine ending_refuse ?_ (unchanged_self r)
    rintro rfl
    exact hsession (checkUnpublish_silent_iff.mp hcheck)
  · refine .accepted okJson rfl ?_
    simp only [Outcome.replies, notifyUnpublisherToOthers]
    rw [List.filter_cons_of_pos rfl, answers_notifyOthers]

theorem subscribeMedias_ending {uid remoteUid : Bytes} {user : UserInfo}
    {info support : RtcMediaInfo} {r₀ : Room} :
    Ending id feedback r₀
      (subscribeMedias libs id uid remoteUid user feedback info support r) := by
  unfold subscribeMedias
  split
  · exact ending_exit _ .thrown
  · simp only
    split
    · exact ending_exit _ _
    · split
      · exact ending_exit _ .thrown
      · exact .accepted _ rfl rfl

theorem handleSubscribe_ending :
    Ending id feedback r (handleSubscribe libs id data feedback r) := by
  unfold handleSubscribe
  split
  · rename_i refusal hcheck
    refine ending_refuse ?_ (unchanged_self r)
    rintro rfl
    exact checkSubscribe_avoids hcheck
  · rename_i sub hcheck
    split
    · exact ending_exit _ .thrown
    · rename_i infoJson hparse
      split
      · exact ending_exit _ .thrown
      · rename_i user info support hread
        simp only
        split
        · -- the offer was stored, and nothing else
          refine ending_refuse (by simp) ⟨?_, rfl⟩
          have hsame := readOffer_member sub.user infoJson
          rw [hread] at hsame
          exact member_setUser_of_eq (checkSubscribe_ok hcheck).2.1 hsame
        · exact subscribeMedias_ending

theorem handleUnsubscribe_ending
    (hlist : ∀ t, r.checkUnsubscribe data = .ok t → data.find "publishers" ≠ none) :
    Ending id feedback r (handleUnsubscribe id data feedback r) := by
  unfold handleUnsubscribe
  split
  · rename_i refusal hcheck
    refine ending_refuse ?_ (unchanged_self r)
    rintro rfl
    exact checkUnsubscribe_avoids hcheck
  · rename_i uid user pcid session hcheck
    simp only
    split
    · rename_i hnone
      exact absurd hnone (hlist _ hcheck)
    · exact .accepted okJson rfl rfl

/-- The last reject of `handle_unsubscribe` comes too late. -/
theorem handleUnsubscribe_late {t : Bytes × UserInfo × Bytes × RtcBaseSession}
    (hcheck : r.checkUnsubscribe data = .ok t) (hnone : data.find "publishers" = none) :
    (handleUnsubscribe id data feedback r).exit = none ∧
      (handleUnsubscribe id data feedback r).sent =
        [(feedback, .reject id SUBSCRIBE_JSON_ERROR "publishers doesn't exist")] ∧
      ¬Unchanged r (handleUnsubscribe id data feedback r).room := by
  obtain ⟨uid, user, pcid, s⟩ := t
  obtain ⟨-, huser, -, hs⟩ := checkUnsubscribe_ok hcheck
  refine ⟨?_, ?_, fun hsame => ?_⟩
  · simp only [handleUnsubscribe, hcheck, hnone, refuse]
  · simp only [handleUnsubscribe, hcheck, hnone, refuse]
  · -- the session was there before
    have hm := congrFun hsame.1 uid
    rw [handleUnsubscribe_room hcheck, member_of_find? huser] at hm
    simp only [member, setUser, OrderedMap.find?_assign_self, Option.map_some, Option.some.injEq]
      at hm
    have hfind := congrArg (fun m : Member => (m.sessions .send).find? pcid) hm
    simp only [UserInfo.member, UserInfo.sessions, OrderedMap.find?_erase_self, hs] at hfind
    cases hfind

theorem handleUnpublish_silent (h : NamesNoSession r data) :
    handleUnpublish id data feedback r = { room := r } := by
  rw [handleUnpublish, checkUnpublish_silent_iff.mpr h]
  rfl

theorem onRequest_publish :
    onRequest libs id (ascii "publish") data feedback r =
      handlePublish libs id data feedback r := by
  rw [onRequest, if_neg (by decide), if_pos rfl]

theorem onRequest_unpublish :
    onRequest libs id (ascii "unpublish") data feedback r = handleUnpublish id data feedback r := by
  rw [onRequest, if_neg (by decide), if_neg (by decide), if_pos rfl]

theorem onRequest_subscribe :
    onRequest libs id (ascii "subscribe") data feedback r =
      handleSubscribe libs id data feedback r := by
  rw [onRequest, if_neg (by decide), if_neg (by decide), if_neg (by decide), if_pos rfl]

theorem onRequest_unsubscribe :
    onRequest libs id (ascii "unsubscribe") data feedback r =
      handleUnsubscribe id data feedback r := by
  rw [onRequest, if_neg (by decide), if_neg (by decide), if_neg (by decide), if_neg (by decide),
    if_pos rfl]

/-- The other methods always end well. -/
theorem onRequest_ending {method : Bytes} (hunpublish : method ≠ ascii "unpublish")
    (hunsubscribe : method ≠ ascii "unsubscribe") :
    Ending id feedback r (onRequest libs id method data feedback r) := by
  unfold onRequest
  split_ifs
  · exact handleJoin_ending
  · exact handlePublish_ending
  · exact handleSubscribe_ending
  · exact ending_refuse (by simp) (unchanged_self r)

end Ending

/-- **A rejected request changes nothing**, unless it is an unsubscribe request that names a
session of its user and has no list of publishers. -/
theorem rejected_unchanged_iff (libs : RoomLibs) (id method : Bytes) (data : Json)
    (feedback : Connection) (r : Room) :
    ((onRequest libs id method data feedback r).Rejected →
      Unchanged r (onRequest libs id method data feedback r).room) ↔
      ¬(method = ascii "unsubscribe" ∧ (∃ t, r.checkUnsubscribe data = .ok t) ∧
        data.find "publishers" = none) := by
  by_cases hunsubscribe : method = ascii "unsubscribe"
  · subst hunsubscribe
    rw [onRequest_unsubscribe]
    constructor
    · rintro h ⟨-, ⟨t, hcheck⟩, hnone⟩
      obtain ⟨-, hsent, hchanged⟩ := @handleUnsubscribe_late id feedback r data t hcheck hnone
      exact hchanged (h (Outcome.rejected_of_sent hsent))
    · intro h
      refine (handleUnsubscribe_ending fun t hcheck hnone => ?_).unchanged
      exact h ⟨rfl, ⟨t, hcheck⟩, hnone⟩
  · refine iff_of_true ?_ fun h => hunsubscribe h.1
    by_cases hunpublish : method = ascii "unpublish"
    · subst hunpublish
      rw [onRequest_unpublish]
      by_cases hsession : NamesNoSession r data
      · rw [handleUnpublish_silent hsession]
        rintro ⟨dest, id', errCode, err, hmem⟩
        cases hmem
      · exact (handleUnpublish_ending hsession).unchanged
    · exact (onRequest_ending hunpublish hunsubscribe).unchanged

/-- A request of `b` that names its session and has no list. -/
def listlessData : Json :=
  object [("pcid", .str (sampleLibs.uuid 2)), ("uid", textJson "b")]

/-- `b` has lost its session although it was told that the request had failed. -/
theorem not_rejected_unchanged_listless :
    ¬∀ (events : List Event) (r : Room),
      Run.run (step sampleLibs) events { roomId := ascii "room" } = .ok r →
      ∀ id method data feedback, (onRequest sampleLibs id method data feedback r).Rejected →
        Unchanged r (onRequest sampleLibs id method data feedback r).room := by
  intro h
  obtain ⟨r, hrun, hcheck⟩ := Run.exists_of_map_toOption
    (x := Run.run (step sampleLibs) sampleEvents { roomId := ascii "room" })
    (f := fun r => (r.checkUnsubscribe listlessData).toOption.isSome) (b := true)
    (by decide +kernel)
  rcases ht : r.checkUnsubscribe listlessData with refusal | t
  · rw [ht] at hcheck
    cases hcheck
  · obtain ⟨-, hsent, hchanged⟩ :=
      @handleUnsubscribe_late (ascii "4") 2 r listlessData t ht (by decide +kernel)
    refine hchanged ?_
    have hsame := h sampleEvents r hrun (ascii "4") (ascii "unsubscribe") listlessData 2
    rw [onRequest_unsubscribe] at hsame
    exact hsame (Outcome.rejected_of_sent hsent)

/-! ## Requests without an answer -/

/-- The sections of which a publish request makes publishers. -/
def publishedSections (libs : RoomLibs) (r : Room) (data : Json) : Option (List MediaRtcInfo) := do
  let (_, user, sdp) ← (r.checkPublish data).toOption
  let infoJson ← libs.sdpParse sdp
  let (_, support) ← (readOffer user infoJson).2
  if libs.dtlsMade r.made then return support.medias else none

/-- The sections of which a subscribe request makes subscribers. -/
def subscribedSections (libs : RoomLibs) (r : Room) (data : Json) :
    Option (List MediaRtcInfo) := do
  let sub ← (r.checkSubscribe data).toOption
  let (_, support) ← offerOf libs sub
  let medias ← support.medias.mapM (bindMedia sub.remoteSession sub.publishers)
  if libs.dtlsMade r.made then return medias else none

/-- The request ends without an answer and without an exception. -/
def Unanswered (libs : RoomLibs) (r : Room) (method : Bytes) (data : Json) : Prop :=
  method = ascii "unpublish" ∧ NamesNoSession r data ∨
  method = ascii "publish" ∧ (publishedSections libs r data).any (publishFaults []) = true ∨
  method = ascii "subscribe" ∧ (subscribedSections libs r data).any (subscribeFaults []) = true

section Faults

variable {libs : RoomLibs} {id : Bytes} {feedback : Connection} {r : Room} {data : Json}

theorem refuse_exit (refusal : Refusal) :
    ¬∃ f, (r.refuse id feedback refusal).exit = some (.fault f) := by
  rintro ⟨f, hf⟩
  cases refusal <;> cases hf

theorem publishOffer_faults {uid : Bytes} {user : UserInfo} {info support : RtcMediaInfo} :
    (∃ f, (publishOffer libs id uid user feedback info support r).exit = some (.fault f)) ↔
      libs.dtlsMade r.made = true ∧ publishFaults [] support.medias = true := by
  have hloop := @createPublishers_faults libs.uuid support.medias []
    { session := { id := libs.uuid r.made, uid, direction := .recv, medias := support.medias }
      made := r.made + 1 } fun media => by simp [hasPublisher, repeats]
  rw [← hloop, ← openPublish]
  unfold publishOffer
  cases libs.dtlsMade r.made with
  | false => simp
  | true =>
    simp only [Bool.not_true, Bool.false_eq_true, if_false, true_and]
    split
    · rename_i st e hopen
      rw [hopen]
    · rename_i st hopen
      rw [hopen]
      split <;> simp

theorem handlePublish_faults :
    (∃ f, (handlePublish libs id data feedback r).exit = some (.fault f)) ↔
      (publishedSections libs r data).any (publishFaults []) = true := by
  unfold handlePublish publishedSections
  rcases hcheck : r.checkPublish data with refusal | ⟨uid, user, sdp⟩
  · simp only [Except.toOption]
    exact iff_of_false (refuse_exit refusal) (by simp)
  · simp only [Except.toOption]
    rcases hparse : libs.sdpParse sdp with - | infoJson
    · simp [hparse]
    · rcases hread : readOffer user infoJson with ⟨user', - | ⟨info, support⟩⟩
      · simp [hparse, hread]
      · simp only [hread, publishOffer_faults]
        cases hdtls : libs.dtlsMade r.made with
        | false => simp [hdtls, setUser]
        | true => simp [hparse, hread, hdtls, setUser]

theorem subscribeMedias_faults {uid remoteUid : Bytes} {user : UserInfo}
    {info support : RtcMediaInfo} (hmade : SidsMade libs r.made r.pid2subscribers) :
    (∃ f, (subscribeMedias libs id uid remoteUid user feedback info support r).exit =
        some (.fault f)) ↔
      libs.dtlsMade r.made = true ∧ subscribeFaults [] support.medias = true := by
  have hloop := @createSubscribers_faults libs remoteUid support.medias []
    { session := { id := libs.uuid r.made, uid, direction := .send, medias := support.medias }
      subscribers := r.pid2subscribers, made := r.made + 1 }
    (fun p t x hx => by
      obtain ⟨n, hn, heq⟩ := hmade p t x hx
      exact ⟨n, Nat.lt_succ_of_lt hn, heq⟩)
    fun mid => by simp
  rw [← hloop, ← openSubscribe]
  unfold subscribeMedias
  cases libs.dtlsMade r.made with
  | false => simp
  | true =>
    simp only [Bool.not_true, Bool.false_eq_true, if_false, true_and]
    split
    · rename_i e hopen
      rw [hopen]
    · rename_i hopen
      rw [hopen]
      split <;> simp

theorem handleSubscribe_faults (hmade : SidsMade libs r.made r.pid2subscribers) :
    (∃ f, (handleSubscribe libs id data feedback r).exit = some (.fault f)) ↔
      (subscribedSections libs r data).any (subscribeFaults []) = true := by
  unfold handleSubscribe subscribedSections
  rcases hcheck : r.checkSubscribe data with refusal | sub
  · simp only [Except.toOption]
    exact iff_of_false (refuse_exit refusal) (by simp)
  · simp only [Except.toOption, offerOf]
    rcases hparse : (libs.sdpParse sub.sdp).filter libs.dumps with - | infoJson
    · simp [hparse]
    · rcases hread : readOffer sub.user infoJson with ⟨user, - | ⟨info, support⟩⟩
      · simp [hparse, hread]
      · simp only [hread]
        rcases hbind : support.medias.mapM (bindMedia sub.remoteSession sub.publishers) with
          - | medias
        · exact iff_of_false (refuse_exit _) (by simp [hparse, hread, hbind])
        · have hfaults := @subscribeMedias_faults libs id feedback (r.setUser sub.uid user) sub.uid
            sub.remoteUid user info { support with medias } hmade
          simp only [hfaults]
          cases hdtls : libs.dtlsMade r.made with
          | false => simp [hdtls, setUser]
          | true => simp [hparse, hread, hbind, hdtls, setUser]

/-- The other handlers stay within the defined behaviour. -/
theorem onRequest_noFault {method : Bytes} (hpublish : method ≠ ascii "publish")
    (hsubscribe : method ≠ ascii "subscribe") :
    ¬∃ f, (onRequest libs id method data feedback r).exit = some (.fault f) := by
  unfold onRequest
  split_ifs
  · unfold handleJoin
    split
    · exact refuse_exit _
    · simp
  · unfold handleUnpublish
    split
    · exact refuse_exit _
    · simp
  · unfold handleUnsubscribe
    split
    · exact refuse_exit _
    · simp only
      split
      · exact refuse_exit _
      · simp
  · exact refuse_exit _

/-- What ends as it should, if it stays within the defined behaviour. -/
theorem settled_onRequest_iff {method : Bytes} :
    (onRequest libs id method data feedback r).Settled id feedback ↔
      ¬(method = ascii "unpublish" ∧ NamesNoSession r data) ∧
        ¬∃ f, (onRequest libs id method data feedback r).exit = some (.fault f) := by
  by_cases hunpublish : method = ascii "unpublish"
  · subst hunpublish
    by_cases hsession : NamesNoSession r data
    · refine iff_of_false ?_ fun h => h.1 ⟨rfl, hsession⟩
      rw [onRequest_unpublish, handleUnpublish_silent hsession]
      simp [Outcome.Settled, Outcome.replies]
    · simp only [hsession, and_false, not_false_eq_true, true_and, onRequest_unpublish]
      exact (handleUnpublish_ending hsession).settled_iff
  · simp only [hunpublish, false_and, not_false_eq_true, true_and]
    by_cases hunsubscribe : method = ascii "unsubscribe"
    · subst hunsubscribe
      rw [onRequest_unsubscribe]
      by_cases hlate : (∃ t, r.checkUnsubscribe data = .ok t) ∧ data.find "publishers" = none
      · obtain ⟨⟨t, hcheck⟩, hnone⟩ := hlate
        obtain ⟨hexit, hsent, -⟩ := @handleUnsubscribe_late id feedback r data t hcheck hnone
        simp [Outcome.Settled, Outcome.replies, hexit, hsent, ProtooMessage.answers]
      · refine (handleUnsubscribe_ending fun t hcheck hnone => ?_).settled_iff
        exact hlate ⟨⟨t, hcheck⟩, hnone⟩
    · exact (onRequest_ending hunpublish hunsubscribe).settled_iff

end Faults

theorem sidsMade_of_attached {libs : RoomLibs} {r : Room} (hnamed : Named libs r)
    (hattached : Attached r) : SidsMade libs r.made r.pid2subscribers := by
  intro p t x hx
  obtain ⟨-, hsid, uid, s, mid, hheld, -, hfind⟩ := hattached p t x hx
  exact hnamed.made _ _ s hheld t (hsid ▸ sid_mem_names hfind)

/-- **Exactly one reply per request**, or an exception, if and only if the request is not
one of those that nothing answers. -/
theorem one_reply_iff (libs : RoomLibs) (roomId : Bytes) (events : List Event) (r : Room)
    (hrun : Run.run (step libs) events { roomId } = .ok r) (id method : Bytes) (data : Json)
    (feedback : Connection) :
    (onRequest libs id method data feedback r).Settled id feedback ↔
      ¬Unanswered libs r method data := by
  obtain ⟨hnamed, hattached⟩ := run_attached hrun
  have hmade := sidsMade_of_attached hnamed hattached
  rw [settled_onRequest_iff, Unanswered, ← not_or]
  refine not_congr (or_congr_right ?_)
  by_cases hpublish : method = ascii "publish"
  · subst hpublish
    have hne : ascii "publish" ≠ ascii "subscribe" := by decide
    rw [onRequest_publish, handlePublish_faults]
    simp only [hne, true_and, false_and, or_false]
  · by_cases hsubscribe : method = ascii "subscribe"
    · subst hsubscribe
      rw [onRequest_subscribe, handleSubscribe_faults hmade]
      simp only [hpublish, true_and, false_and, false_or]
    · refine iff_of_false (onRequest_noFault hpublish hsubscribe) ?_
      simp only [hpublish, hsubscribe, false_and, or_false, not_false_eq_true]

/-- `b` gets one answer when it subscribes. -/
theorem one_reply_subscribe :
    ∃ r, Run.run (step sampleLibs) [joinOf "a" 1, joinOf "b" 2, publishOf "a" 1]
        { roomId := ascii "room" } = .ok r ∧
      (subscribedSections sampleLibs r (subscribeData "b" "a" 0 1)).isSome ∧
      (onRequest sampleLibs (ascii "3") (ascii "subscribe") (subscribeData "b" "a" 0 1) 2
        r).Settled (ascii "3") 2 := by
  obtain ⟨r, hrun, hr⟩ := Run.exists_of_map_toOption (x := Run.run (step sampleLibs)
      [joinOf "a" 1, joinOf "b" 2, publishOf "a" 1] { roomId := ascii "room" })
    (f := fun r => ((subscribedSections sampleLibs r (subscribeData "b" "a" 0 1)).isSome,
      (subscribedSections sampleLibs r (subscribeData "b" "a" 0 1)).any (subscribeFaults [])))
    (b := (true, false)) (by decide +kernel)
  rw [Prod.mk.injEq] at hr
  refine ⟨r, hrun, hr.1, ?_⟩
  refine (one_reply_iff sampleLibs (ascii "room") _ r hrun _ _ (subscribeData "b" "a" 0 1)
    2).mpr ?_
  rintro (⟨hmethod, -⟩ | ⟨hmethod, -⟩ | ⟨-, hfaults⟩)
  · exact absurd hmethod (by decide)
  · exact absurd hmethod (by decide)
  · rw [hr.2] at hfaults
    cases hfaults

/-- An unpublish request of `a` without the id of a session gets no answer. -/
theorem not_one_reply_unpublish :
    ¬∀ (events : List Event) (r : Room),
      Run.run (step sampleLibs) events { roomId := ascii "room" } = .ok r →
      ∀ id method data feedback,
        (onRequest sampleLibs id method data feedback r).Settled id feedback := by
  intro h
  obtain ⟨r, hrun, huser⟩ := Run.exists_of_map_toOption
    (x := Run.run (step sampleLibs) [joinOf "a" 1] { roomId := ascii "room" })
    (f := fun r => (r.users.find? (ascii "a")).isSome) (b := true) (by decide +kernel)
  have hsession : NamesNoSession r (object [("uid", textJson "a")]) :=
    ⟨by decide, huser, by decide⟩
  have hsettled := h _ r hrun (ascii "5") (ascii "unpublish") (object [("uid", textJson "a")]) 1
  rw [onRequest_unpublish, handleUnpublish_silent hsession] at hsettled
  simp [Outcome.Settled, Outcome.replies] at hsettled

end Room

end MediaServer
