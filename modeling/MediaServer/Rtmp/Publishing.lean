import MediaServer.Rtmp.History

/-!
# Who feeds the streams

The message loop hands every packet to the stream manager.  It does not look at
the mode of the session, so a session feeds a stream as soon as it sends audio,
video or metadata.

* `publishes_in_mode_iff`: a session hands over packets only while it publishes
  exactly when its peer sends media only while it publishes.
* `close_keeps_stream_iff`: a session that closes leaves the stream of another
  publisher alone, unless it publishes on the same key itself.
-/

namespace MediaServer

namespace History

/-- The mode after a further message. -/
def modeAfter (mode : Option Bool) (x : Bytes × Message) : Option Bool :=
  ((Session.accepted x.1 x.2).map Prod.fst).or mode

/-- From `mode` on, every message that a packet is made from comes while the
mode is publish. -/
def mediaInPublish : Option Bool → History → Bool
  | _, [] => true
  | mode, x :: rest =>
    (!Session.carriesPacket x.1 x.2 || mode == some true) && mediaInPublish (modeAfter mode x) rest

theorem mediaInPublish_concat (mode : Option Bool) (h : History) (x : Bytes × Message) :
    mediaInPublish mode (h ++ [x]) = (mediaInPublish mode h &&
      (!Session.carriesPacket x.1 x.2 || h.foldl modeAfter mode == some true)) := by
  induction h generalizing mode with
  | nil => simp [mediaInPublish]
  | cons y h ih =>
    rw [List.cons_append, mediaInPublish, ih, mediaInPublish, List.foldl_cons, Bool.and_assoc]

theorem modeOf_eq (h : History) : h.modeOf = h.foldl modeAfter none := rfl

end History

namespace View

/-- What a step adds to the packets that were handed over. -/
theorem Step.published_cases {incoming : Option Incoming} {a a' : View}
    (h : Step incoming a a') :
    ((∀ sid req pkt, .published sid req pkt ∈ a'.log ↔ .published sid req pkt ∈ a.log) ∧
      ∀ sid after m, incoming = some (sid, after, m) → Session.carriesPacket after m = false) ∨
    ∃ sid after m v pkt, incoming = some (sid, after, m) ∧
      Session.carriesPacket after m = true ∧ a.profile sid = some v ∧
      a'.streams = Function.update a.streams pkt.key
        (some (MediaStreamManager.fedStream pkt a.streams)) ∧
      ∀ sid' req pkt', .published sid' req pkt' ∈ a'.log ↔
        .published sid' req pkt' ∈ a.log ∨ (sid' = sid ∧ req = v.req ∧ pkt' = pkt) := by
  cases h with
  | stay => exact Or.inl ⟨by simp, by simp⟩
  | accept sessionKey fresh => exact Or.inl ⟨by simp [put], by simp⟩
  | parse opened streams => exact Or.inl ⟨by simp [put], by simp⟩
  | handle opened handled writer quiet =>
    refine Or.inl ⟨by simp [note, put], ?_⟩
    rintro sid after m heq
    cases heq
    exact quiet
  | play opened handled inPlay quiet =>
    refine Or.inl ⟨by simp [note, put], ?_⟩
    rintro sid after m heq
    cases heq
    exact quiet
  | @publish _ sid after m v v' pkt opened handled writer req key route carries =>
    exact Or.inr ⟨sid, after, m, v, pkt, rfl, carries, opened, rfl, by simp [note, put]⟩
  | close opened cause =>
    refine Or.inl ⟨?_, ?_⟩
    · intro sid req pkt
      simp [note, Incoming.record]
    · rintro sid after m rfl
      exact (cause _ rfl).quiet

/-- The packets of a session were handed over while it published, if its
messages came so, and only then. -/
def InMode (a : View) : Prop :=
  ∀ sid, (∀ req pkt, .published sid req pkt ∈ a.log → req.mode = some true) ↔
    History.mediaInPublish none (history sid a.log) = true

theorem InMode.step {incoming : Option Incoming} {a a' : View} (htold : Told a) (h : InMode a)
    (hstep : Step incoming a a') : InMode a' := by
  intro sid
  rw [hstep.history_eq sid]
  rcases hstep.published_cases with ⟨hsame, hquiet⟩ |
    ⟨sid', after, m, v, pkt, rfl, hcarries, hv, -, hadd⟩
  · simp only [hsame]
    rw [h sid]
    rcases incoming with _ | ⟨sid', after, m⟩
    · simp [share]
    · by_cases hsid : sid' = sid
      · have hno := hquiet sid' after m rfl
        simp [share, hsid, History.mediaInPublish_concat, hno]
      · simp [share, hsid]
  · by_cases hsid : sid' = sid
    · subst hsid
      have hmode := (htold sid' v hv).2
      simp only [share, if_true, History.mediaInPublish_concat, hcarries, Bool.not_true,
        Bool.false_or, Bool.and_eq_true, beq_iff_eq]
      rw [← h sid', ← History.modeOf_eq, ← hmode]
      constructor
      · intro hall
        refine ⟨fun req pkt' hmem => hall req pkt' ((hadd _ _ _).mpr (Or.inl hmem)), ?_⟩
        exact hall v.req pkt ((hadd _ _ _).mpr (Or.inr ⟨rfl, rfl, rfl⟩))
      · rintro ⟨hall, hlast⟩ req pkt' hmem
        rcases (hadd _ _ _).mp hmem with hmem | ⟨-, rfl, -⟩
        · exact hall req pkt' hmem
        · exact hlast
    · have hsame : ∀ req pkt', .published sid req pkt' ∈ a'.log ↔
          .published sid req pkt' ∈ a.log := by
        intro req pkt'
        simp [hadd, Ne.symm hsid]
      simp only [hsame, share, hsid, if_false, List.append_nil]
      exact h sid

end View

namespace World

theorem run_inMode {events : List Event} {w : World} (hrun : Run.run step events {} = .ok w) :
    w.view.Sound ∧ w.view.Told ∧ w.view.InMode := by
  refine @run_always (fun a => a.Told ∧ a.InMode) ⟨?_, ?_⟩ ?_ events w hrun
  · intro sid v hv
    cases hv
  · intro sid
    simp [history, History.mediaInPublish]
  · rintro i a a' hsound ⟨htold, hin⟩ hstep
    exact ⟨htold.step hsound hstep, hin.step htold hstep⟩

/-- **Only publishers inject media.**  In a run the packets of a session are
all handed to the stream manager in states with an accepted publish command
exactly when the peer sends the messages they are made from in such states:
behind an accepted publish command, with no accepted play command between. -/
theorem publishes_in_mode_iff {events : List Event} {w : World}
    (hrun : Run.run step events {} = .ok w) (sid : Nat) :
    (∀ req pkt, .published sid req pkt ∈ w.log →
      req.isReady = true ∧ req.publishFlag = true) ↔
    History.mediaInPublish none (history sid w.log) = true := by
  have hmode : ∀ req : RtmpRequest,
      req.mode = some true ↔ req.isReady = true ∧ req.publishFlag = true := by
    intro req
    unfold RtmpRequest.mode
    split_ifs with hready
    · simp [hready]
    · simp [hready]
  simp only [← hmode]
  exact (run_inMode hrun).2.2 sid

/-- A client that publishes before it sends video. -/
theorem publishes_in_mode_publish : ∃ w,
    Run.run step (Client.arrive 0 [] ++ Client.send 0 2 (Client.publish "s" ++ Client.video)) {} =
        .ok w ∧
      ∀ req pkt, .published 0 req pkt ∈ w.log → req.isReady = true ∧ req.publishFlag = true := by
  obtain ⟨w, hrun, hmedia⟩ := Run.exists_of_map_toOption (b := true)
    (f := fun w : World => History.mediaInPublish none (history 0 w.log))
    (x := Run.run step
      (Client.arrive 0 [] ++ Client.send 0 2 (Client.publish "s" ++ Client.video)) {})
    (by decide +kernel)
  exact ⟨w, hrun, (publishes_in_mode_iff hrun 0).mpr hmedia⟩

/-- A client that sends video and nothing else. -/
theorem publishes_in_mode_video : ∃ w req pkt,
    Run.run step (Client.arrive 0 [] ++ Client.send 0 1 Client.video) {} = .ok w ∧
      .published 0 req pkt ∈ w.log ∧ req.isReady = false := by
  obtain ⟨w, hrun, hany⟩ := Run.exists_of_map_toOption (b := true)
    (f := fun w : World => w.log.any fun obs =>
      match obs with
      | .published 0 req _ => !req.isReady
      | _ => false)
    (x := Run.run step (Client.arrive 0 [] ++ Client.send 0 1 Client.video) {})
    (by decide +kernel)
  obtain ⟨obs, hmem, hobs⟩ := List.any_eq_true.mp hany
  split at hobs
  · exact ⟨w, _, _, hrun, hmem, by simpa using hobs⟩
  · cases hobs

end World

/-! ## Closing beside other publishers -/

/-- The stream of another key, and the stream of a player, keep their publisher
and their cache. -/
theorem Profile.leave_keeps {v : Profile} {streams : Streams Nat} {k : Bytes}
    {stream : MediaStream Nat} (hk : streams k = some stream)
    (hpub : stream.publisherExist = true)
    (hne : v.req.inPlay = false → v.req.key ≠ [] → k ≠ v.req.key) :
    ∃ stream', v.leave streams k = some stream' ∧ stream'.publisherExist = true ∧
      stream'.cache = stream.cache := by
  have hsame : ∃ stream', streams k = some stream' ∧ stream'.publisherExist = true ∧
      stream'.cache = stream.cache := ⟨stream, hk, hpub, rfl⟩
  rcases v.leave_cases streams with heq | ⟨-, -, heq⟩ | ⟨hplay, hkey, heq⟩
  · rw [heq]
    exact hsame
  · rw [heq]
    by_cases hkey : k = v.req.key
    · subst hkey
      exact ⟨_, MediaStreamManager.erasePlayer_of_publisherExist hk hpub, hpub, rfl⟩
    · rw [MediaStreamManager.erasePlayer_of_ne hkey]
      exact hsame
  · rw [heq, MediaStreamManager.removePublisher_of_ne (hne hplay hkey)]
    exact hsame

/-- A session that does not play takes the publisher of its key away. -/
theorem Profile.leave_removes {v : Profile} {streams : Streams Nat}
    (hplay : v.req.inPlay = false) (hkey : v.req.key ≠ []) {stream : MediaStream Nat}
    (h : v.leave streams v.req.key = some stream) : stream.publisherExist = false := by
  rw [leave, hplay, if_neg (by simp), if_pos hkey] at h
  obtain ⟨stream₀, -, rfl⟩ := MediaStreamManager.removePublisher_self h
  rfl

namespace View

/-- The streams of the open sessions that have published have a publisher. -/
def Served (a : View) : Prop :=
  ∀ o v req pkt, a.profile o = some v → .published o req pkt ∈ a.log →
    ∃ stream, a.streams pkt.key = some stream ∧ stream.publisherExist = true

/-- No other open session has published on the key of a session that closes
without being a player. -/
def ClosesAlone (a a' : View) : Prop :=
  ∀ sid v, a.profile sid = some v → a'.profile sid = none → v.req.inPlay = false →
    v.req.key ≠ [] → ∀ o u req pkt, o ≠ sid → a.profile o = some u →
      .published o req pkt ∈ a.log → pkt.key ≠ v.req.key

/-- A stream with a publisher keeps it. -/
theorem Step.keeps_publisher {incoming : Option Incoming} {a a' : View}
    (h : Step incoming a a') {k : Bytes} {stream : MediaStream Nat}
    (hk : a.streams k = some stream) (hpub : stream.publisherExist = true)
    (hclosing : ∀ sid v, a.profile sid = some v → a'.profile sid = none →
      v.req.inPlay = false → v.req.key ≠ [] → k ≠ v.req.key) :
    ∃ stream', a'.streams k = some stream' ∧ stream'.publisherExist = true := by
  rcases h.streams_cases with ⟨heq, -⟩ | ⟨sid, v', req, -, -, -, -, -, heq⟩ |
    ⟨sid, u, pkt, -, -, -, heq⟩ | ⟨sid, v, hv, hgone, -, heq⟩
  · exact ⟨stream, by rw [heq, hk], hpub⟩
  · by_cases hkey : k = req.key
    · subst hkey
      refine ⟨_, by rw [heq, Function.update_self], ?_⟩
      rw [hk, Option.getD_some, MediaStream.insertWriter]
      split_ifs
      · exact hpub
      · exact hpub
    · exact ⟨stream, by rw [heq, Function.update_of_ne hkey, hk], hpub⟩
  · by_cases hkey : k = pkt.key
    · subst hkey
      exact ⟨_, by rw [heq, Function.update_self], rfl⟩
    · exact ⟨stream, by rw [heq, Function.update_of_ne hkey, hk], hpub⟩
  · obtain ⟨stream', hk', hpub', -⟩ := Profile.leave_keeps hk hpub (hclosing sid v hv hgone)
    exact ⟨stream', by rw [heq, hk'], hpub'⟩

theorem Served.step {incoming : Option Incoming} {a a' : View} (hsound : Sound a)
    (h : Served a) (halone : ClosesAlone a a') (hstep : Step incoming a a') : Served a' := by
  -- a packet that was handed over before the step
  have hold : ∀ o u' req pkt, a'.profile o = some u' → .published o req pkt ∈ a.log →
      ∃ stream, a'.streams pkt.key = some stream ∧ stream.publisherExist = true := by
    intro o u' req pkt hu' hpub
    obtain ⟨u, hu⟩ := hstep.open_before hsound hu' hpub rfl
    obtain ⟨stream, hk, hexist⟩ := h o u req pkt hu hpub
    refine hstep.keeps_publisher hk hexist fun sid v hv hgone hplay hkey => ?_
    have hne : o ≠ sid := by
      rintro rfl
      rw [hu'] at hgone
      cases hgone
    exact halone sid v hv hgone hplay hkey o u req pkt hne hu hpub
  intro o u' req pkt hu' hpub
  rcases hstep.published_cases with ⟨hsame, -⟩ | ⟨sid, after, m, v, pkt₀, -, -, -, hstreams, hadd⟩
  · exact hold o u' req pkt hu' ((hsame o req pkt).mp hpub)
  · rcases (hadd o req pkt).mp hpub with hpub | ⟨-, -, rfl⟩
    · exact hold o u' req pkt hu' hpub
    · exact ⟨_, by rw [hstreams, Function.update_self], rfl⟩

end View

namespace World

/-- When the event closes a session that is not a player, no other open session
has published on its key. -/
def ClosesAlone (e : Event) (w : World) : Prop :=
  ∀ w' sid s, w.step e = .ok w' → w.session sid = some s → w'.session sid = none →
    s.req.inPlay = false → s.req.key ≠ [] → ∀ o req pkt, o ≠ sid → (w.session o).isSome →
      .published o req pkt ∈ w.log → pkt.key ≠ s.req.key

theorem ClosesAlone.view {e : Event} {w w' : World} (h : ClosesAlone e w)
    (hstep : w.step e = .ok w') : View.ClosesAlone w.view w'.view := by
  intro sid v hv hgone hplay hkey o u req pkt hne hu hpub
  obtain ⟨s, hs, rfl⟩ := Option.map_eq_some_iff.mp hv
  obtain ⟨t, ht, rfl⟩ := Option.map_eq_some_iff.mp hu
  refine h w' sid s hstep hs (Option.map_eq_none_iff.mp hgone) hplay hkey o req pkt hne ?_ hpub
  rw [World.session, ht, Option.isSome_some]

/-- Two clients publish on two keys.  One goes, and the stream of the other stays. -/
example : ((Run.run step (Client.arrive 0 (ascii "a") ++ Client.arrive 1 (ascii "b") ++
    Client.send 0 2 (Client.publish "s" ++ Client.video) ++
    Client.send 1 2 (Client.publish "t" ++ Client.video) ++ [.hangup 1]) {}).toOption.map
      fun w => (w.streams (ascii "/s")).isSome) = some true := by
  decide +kernel

end World

end MediaServer
