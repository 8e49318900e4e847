import Mathlib.Tactic.Common
import MediaServer.Webrtc.RoomInvariant
import MediaServer.Webrtc.StreamFaults

/-!
# Where a subscriber stands in the map of a room

An id of a subscriber stands in the map of a room under one publisher.  It was made before,
so that no later request brings it back once it has gone.

* `Placed` is the invariant, `createSubscribers_placed` keeps it in the loop that makes the
  subscribers of a session.
* `step_entries` says what an event does to the entries: it makes new ids, or it keeps some
  of the entries that there are.
-/

namespace MediaServer

namespace Room

open RtcBaseSession

variable {libs : RoomLibs} {made made' : Nat} {m m' : Subscribers} {r r' : Room}

/-! ## One place for every id -/

/-- The ids in the map have been made, and each stands under one publisher. -/
structure Placed (libs : RoomLibs) (made : Nat) (m : Subscribers) : Prop where
  made : SidsMade libs made m
  once : ∀ p p' t x x', Subscribers.Entry m p t x → Subscribers.Entry m p' t x' → p = p'

theorem placed_empty : Placed libs made .empty := by
  refine ⟨?_, ?_⟩
  · rintro p t x ⟨subs, hsubs, -⟩
    cases hsubs
  · rintro p p' t x x' ⟨subs, hsubs, -⟩
    cases hsubs

/-- Entries can go. -/
theorem Placed.shrink (h : Placed libs made m) (hle : made ≤ made')
    (hsub : ∀ p t x, Subscribers.Entry m' p t x → Subscribers.Entry m p t x) :
    Placed libs made' m' := by
  refine ⟨fun p t x hx => ?_, fun p p' t x x' hx hx' => ?_⟩
  · obtain ⟨n, hn, heq⟩ := h.made p t x (hsub p t x hx)
    exact ⟨n, Nat.lt_of_lt_of_le hn hle, heq⟩
  · exact h.once p p' t x x' (hsub p t x hx) (hsub p' t x' hx')

/-- An id that is not made yet is not there. -/
theorem SidsMade.not_entry (h : SidsMade libs made m) {n : Nat} (hn : made ≤ n) {p : Bytes}
    {x : RtcSubscriber} : ¬Subscribers.Entry m p (libs.uuid n) x := by
  intro hx
  obtain ⟨k, hk, heq⟩ := h p _ x hx
  have := libs.uuidInjective n k heq
  omega

theorem Placed.insert (h : Placed libs made m) {pid : Bytes} {sub : RtcSubscriber}
    (hsid : sub.sid = libs.uuid made) (hinsert : m.insertSubscriber pid sub = .ok m') :
    Placed libs (made + 1) m' := by
  obtain ⟨m₁, hm₁, hmade⟩ := @SidsMade.insert libs made m h.made pid sub hsid
  rw [hinsert, Except.ok.injEq] at hm₁
  subst hm₁
  have hnew : ∀ p x, ¬Subscribers.Entry m p sub.sid x := fun p x hx =>
    h.made.not_entry (Nat.le_refl made) (hsid ▸ hx)
  refine ⟨hmade, fun p p' t x x' hx hx' => ?_⟩
  rcases (Subscribers.entry_insertSubscriber hinsert).mp hx with hx | ⟨rfl, rfl, -⟩
  · rcases (Subscribers.entry_insertSubscriber hinsert).mp hx' with hx' | ⟨-, rfl, -⟩
    · exact h.once p p' t x x' hx hx'
    · exact (hnew p x hx).elim
  · rcases (Subscribers.entry_insertSubscriber hinsert).mp hx' with hx' | ⟨rfl, -, -⟩
    · exact (hnew p' x' hx').elim
    · rfl

theorem createSubscribers_placed {remoteUid : Bytes} {medias : List MediaRtcInfo}
    {st : Subscribing} (h : Placed libs st.made st.subscribers) :
    Placed libs (createSubscribers libs remoteUid medias st).1.made
      (createSubscribers libs remoteUid medias st).1.subscribers := by
  induction medias generalizing st with
  | nil => exact h
  | cons media medias ih =>
    unfold createSubscribers
    split
    · exact h
    · rename_i session sub hcreate
      split
      · exact h.shrink (Nat.le_succ _) fun p t x hx => hx
      · rename_i subscribers hinsert
        have hnext : Placed libs (st.made + 1) subscribers :=
          h.insert (createSubscriber_cases hcreate).2.1 hinsert
        exact @ih ⟨session, subscribers, st.made + 1⟩ hnext

/-! ## What an event does to the entries -/

/-- The entries that an event leaves were there, or it has subscribed. -/
inductive Enters (libs : RoomLibs) (r r' : Room) : Prop where
  | keeps (hmade : r.made ≤ r'.made)
      (hold : ∀ p t x, Subscribers.Entry r'.pid2subscribers p t x →
        Subscribers.Entry r.pid2subscribers p t x) : Enters libs r r'
  | subscribes (uid remoteUid : Bytes) (medias : List MediaRtcInfo)
      (hmade : r'.made = (r.openSubscribe libs uid remoteUid medias).1.made)
      (hsubscribers : r'.pid2subscribers =
        (r.openSubscribe libs uid remoteUid medias).1.subscribers) : Enters libs r r'

theorem Unseen.enters (h : Unseen r r') : Enters libs r r' :=
  .keeps h.made fun _ _ _ hx => h.subscribers ▸ hx

variable {id : Bytes} {data : Json} {feedback : Connection}

theorem handleSubscribe_enters :
    Enters libs r (handleSubscribe libs id data feedback r).room := by
  have hsame : ∀ r', r'.made = r.made → r'.pid2subscribers = r.pid2subscribers →
      Enters libs r r' := fun r' hmade hsubscribers =>
    .keeps (Nat.le_of_eq hmade.symm) fun p t x hx => hsubscribers ▸ hx
  unfold handleSubscribe
  split
  · exact hsame _ (by rw [refuse_room]) (by rw [refuse_room])
  · rename_i sub hcheck
    split
    · exact hsame _ rfl rfl
    · split
      · exact hsame _ rfl rfl
      · rename_i user info support hread
        simp only
        split
        · exact hsame _ (by rw [refuse_room]; rfl) (by rw [refuse_room]; rfl)
        · rename_i medias hbind
          unfold subscribeMedias
          split
          · exact .keeps (Nat.le_succ r.made) fun p t x hx => hx
          · -- the map is that of the loop, however the loop and the answer end
            simp only
            split
            · exact .subscribes sub.uid sub.remoteUid medias rfl rfl
            · split
              · exact .subscribes sub.uid sub.remoteUid medias rfl rfl
              · exact .subscribes sub.uid sub.remoteUid medias rfl rfl

theorem handle_subscribe_of_action {e : Event} {sub : Subscription}
    (h : action e r = some (.subscribe sub)) :
    ∃ id data feedback,
      (handle libs e r).room = (handleSubscribe libs id data feedback r).room := by
  cases e with
  | request id method data feedback =>
    unfold action at h
    simp only at h
    refine ⟨id, data, feedback, ?_⟩
    split_ifs at h with h₁ h₂ h₃ h₄
    all_goals obtain ⟨_, hcheck, heq⟩ := Run.exists_of_map_toOption h
    all_goals cases heq
    simp only [handle, onRequest, if_neg h₁, if_neg h₂, if_neg h₃, if_pos h₄]
  | notification method data =>
    unfold action at h
    simp only at h
    split_ifs at h
    obtain ⟨_, -, heq⟩ := Run.exists_of_map_toOption h
    cases heq

theorem Effect.enters {a : Option Action} (hnamed : Named libs r) (h : Effect libs r a r')
    (hsubscribe : ∀ sub, a ≠ some (.subscribe sub)) : Enters libs r r' := by
  cases h with
  | refused => exact .keeps (Nat.le_refl _) fun _ _ _ hx => hx
  | join uid feedback hnew => exact .keeps (Nat.le_refl _) fun _ _ _ hx => hx
  | publishFails uid user sdp _ hunseen => exact hunseen.enters
  | publish uid user sdp s _ huser hfilled hmember hsubscribers =>
    refine .keeps ?_ fun p t x hx => hsubscribers ▸ hx
    have := hfilled.started
    omega
  | unpublish uid user pcid s _ huser hs hmember hsubscribers hannounced hmade =>
    refine .keeps (Nat.le_of_eq hmade.symm) fun p t x hx => ?_
    have hproper := hnamed.proper _ _ _ (hnamed.held_publish huser hs).1
    rw [hsubscribers, Subscribers.entry_erasePublishers, hproper.destruct_recv] at hx
    exact hx.1
  | subscribeFails sub _ hunseen => exact (hsubscribe sub rfl).elim
  | subscribe sub => exact (hsubscribe sub rfl).elim
  | unsubscribe uid user pcid s publishers _ huser hs hmember hsubscribers hannounced hmade =>
    refine .keeps (Nat.le_of_eq hmade.symm) fun p t x hx => ?_
    have hproper := hnamed.proper _ _ _ (hnamed.held_subscribe huser hs).1
    rw [hsubscribers, Subscribers.entry_erasePublishers, hproper.entry_destruct] at hx
    exact hx.1.1
  | close uid user huser =>
    exact .keeps (Nat.le_refl _) fun p t x hx => ((hnamed.entry_destruct huser).mp hx).1

theorem step_enters {e : Event} (hnamed : Named libs r) (h : step libs e r = .ok r') :
    Enters libs r r' := by
  by_cases hsubscribe : ∃ sub, action e r = some (.subscribe sub)
  · obtain ⟨sub, hsub⟩ := hsubscribe
    obtain ⟨id, data, feedback, hroom⟩ := @handle_subscribe_of_action libs r _ _ hsub
    rw [step_eq h, hroom]
    exact handleSubscribe_enters
  · exact (step_effect h).enters hnamed fun sub hsub => hsubscribe ⟨sub, hsub⟩

theorem Placed.enters (h : Placed libs r.made r.pid2subscribers) (henters : Enters libs r r') :
    Placed libs r'.made r'.pid2subscribers := by
  cases henters with
  | keeps hmade hold => exact h.shrink hmade hold
  | subscribes uid remoteUid medias hmade hsubscribers =>
    rw [hmade, hsubscribers]
    exact createSubscribers_placed (h.shrink (Nat.le_succ r.made) fun p t x hx => hx)

/-- What an event leaves of the entries: those that were there, and those of new ids. -/
theorem Enters.entry {p t : Bytes} {x : RtcSubscriber} (h : Enters libs r r')
    (hx : Subscribers.Entry r'.pid2subscribers p t x) :
    Subscribers.Entry r.pid2subscribers p t x ∨ ∃ n, r.made ≤ n ∧ t = libs.uuid n := by
  cases h with
  | keeps hmade hold => exact .inl (hold p t x hx)
  | subscribes uid remoteUid medias hmade hsubscribers =>
    rw [hsubscribers] at hx
    have hjoined := openSubscribe_joined libs r uid remoteUid medias
    rcases hjoined.entries p t x hx with hold | ⟨-, rfl, mid, hmid⟩
    · exact .inl hold
    · obtain ⟨n, hn, -, heq⟩ := hjoined.filled.fresh _ (sid_mem_names hmid)
      exact .inr ⟨n, hn, heq⟩

theorem Enters.made_le (h : Enters libs r r') : r.made ≤ r'.made := by
  cases h with
  | keeps hmade hold => exact hmade
  | subscribes uid remoteUid medias hmade hsubscribers =>
    have hstarted := (openSubscribe_joined libs r uid remoteUid medias).filled.started
    rw [hmade]
    exact hstarted

/-! ## The subscriber of an id -/

end Room

end MediaServer
