import MediaServer.Rtmp.Publishing

/-!
# What a session leaves behind

A session registers as a player under the key of the moment, and each of its
packets makes it the publisher of the key of the moment.  `close` knows only
the last key and the last mode.

`close_cleans_up` says when this is enough: the session was registered as a
player under its last key only and plays at the end, and published under its
last key only and publishes at the end.  Otherwise an entry stays in the map of
the players whose writer points to a session that is gone.
-/

namespace MediaServer

open MediaStreamManager

/-- What is in a stream after a session has left was in it before. -/
theorem Profile.mem_leave {v : Profile} {streams : Streams Nat} {k : Bytes}
    {stream : MediaStream Nat} (h : v.leave streams k = some stream) :
    ∃ stream₀, streams k = some stream₀ ∧ (∀ x ∈ stream.writerMap, x ∈ stream₀.writerMap) ∧
      (stream.publisherExist = true → stream₀.publisherExist = true) := by
  have hsame : streams k = some stream → ∃ stream₀, streams k = some stream₀ ∧
      (∀ x ∈ stream.writerMap, x ∈ stream₀.writerMap) ∧
      (stream.publisherExist = true → stream₀.publisherExist = true) :=
    fun hk => ⟨stream, hk, fun _ hx => hx, fun hp => hp⟩
  rcases v.leave_cases streams with heq | ⟨-, -, heq⟩ | ⟨-, -, heq⟩
  · rw [heq] at h
    exact hsame h
  · rw [heq] at h
    by_cases hkey : k = v.req.key
    · subst hkey
      obtain ⟨stream₀, hk₀, rfl⟩ := erasePlayer_self h
      exact ⟨stream₀, hk₀, fun x hx => List.mem_of_mem_filter hx, fun hp => hp⟩
    · rw [erasePlayer_of_ne hkey] at h
      exact hsame h
  · rw [heq] at h
    by_cases hkey : k = v.req.key
    · subst hkey
      obtain ⟨stream₀, hk₀, rfl⟩ := removePublisher_self h
      exact ⟨stream₀, hk₀, fun _ hx => hx, by simp⟩
    · rw [removePublisher_of_ne hkey] at h
      exact hsame h

/-- A player that leaves is not in the stream any more. -/
theorem Profile.leave_of_inPlay {v : Profile} {streams : Streams Nat} {p : Nat}
    {stream : MediaStream Nat} (hplay : v.req.inPlay = true) (hwriter : v.playWriter ≠ none)
    (hk : v.leave streams v.req.key = some stream) : (v.sessionKey, p) ∉ stream.writerMap := by
  obtain ⟨p', hp'⟩ := Option.ne_none_iff_exists'.mp hwriter
  simp only [leave, hplay, hp', if_true] at hk
  obtain ⟨stream₀, -, rfl⟩ := erasePlayer_self hk
  simp [MediaStream.eraseWriter]

/-- Session `sid` alone has published on `k`. -/
def OnlyPublisher (log : List Obs) (sid : Nat) (k : Bytes) : Prop :=
  (∃ req pkt, .published sid req pkt ∈ log ∧ pkt.key = k) ∧
    ∀ o req pkt, .published o req pkt ∈ log → pkt.key = k → o = sid

namespace View

/-- Writer `p` is registered under the key `k` with the id `id`. -/
def Entry (a : View) (k id : Bytes) (p : Nat) : Prop :=
  ∃ stream, a.streams k = some stream ∧ (id, p) ∈ stream.writerMap

theorem mem_insertWriter_getD {streams : Streams Nat} {k id id' : Bytes} {p p' : Nat}
    (h : (id, p) ∈ (((streams k).getD {}).insertWriter id' p').writerMap) :
    (∃ stream, streams k = some stream ∧ (id, p) ∈ stream.writerMap) ∨ (id = id' ∧ p = p') := by
  have hold : (id, p) ∈ ((streams k).getD {}).writerMap →
      ∃ stream, streams k = some stream ∧ (id, p) ∈ stream.writerMap := by
    intro hmem
    rcases hk : streams k with _ | stream
    · rw [hk] at hmem
      cases hmem
    · rw [hk] at hmem
      exact ⟨stream, rfl, hmem⟩
  unfold MediaStream.insertWriter at h
  split_ifs at h
  · exact Or.inl (hold h)
  · rcases List.mem_append.mp h with h | h
    · exact Or.inl (hold h)
    · rw [List.mem_singleton, Prod.mk.injEq] at h
      exact Or.inr h

/-- An entry was there before the step, or it is the one of a session that has
just become a player. -/
theorem Step.entry_cases {incoming : Option Incoming} {a a' : View} (h : Step incoming a a')
    {k id : Bytes} {p : Nat} (he : a'.Entry k id p) :
    (a.Entry k id p ∧ (a'.owner = a.owner ∨
      ∃ sid, a'.owner = Function.update a.owner a.nextWriter (some sid))) ∨
    ∃ sid v req, a'.profile sid = some v ∧ v.playWriter ≠ none ∧ .played sid req ∈ a'.log ∧
      req.key = k ∧ id = v.sessionKey ∧ p = a.nextWriter ∧
      a'.owner = Function.update a.owner a.nextWriter (some sid) := by
  obtain ⟨stream, hk, hmem⟩ := he
  rcases h.streams_cases with ⟨heq, howner⟩ |
    ⟨sid, v', req, hv', hreq, hwriter, hplayed, howner, heq⟩ |
    ⟨sid, u, pkt, -, -, howner, heq⟩ | ⟨sid, v, -, -, howner, heq⟩
  · rw [heq] at hk
    exact Or.inl ⟨⟨stream, hk, hmem⟩, Or.inl howner⟩
  · rw [heq] at hk
    by_cases hkey : k = req.key
    · rw [hkey, Function.update_self, Option.some.injEq] at hk
      rw [← hk] at hmem
      rcases mem_insertWriter_getD hmem with hold | ⟨hid, hp⟩
      · rw [hkey]
        exact Or.inl ⟨hold, Or.inr ⟨sid, howner⟩⟩
      · exact Or.inr ⟨sid, v', req, hv', by simp [hwriter], hplayed, hkey.symm, hid, hp, howner⟩
    · rw [Function.update_of_ne hkey] at hk
      exact Or.inl ⟨⟨stream, hk, hmem⟩, Or.inr ⟨sid, howner⟩⟩
  · rw [heq] at hk
    refine Or.inl ⟨?_, Or.inl howner⟩
    by_cases hkey : k = pkt.key
    · rw [hkey, Function.update_self, Option.some.injEq] at hk
      rw [← hk, fedStream] at hmem
      rcases hk₀ : a.streams pkt.key with _ | stream₀
      · rw [hk₀] at hmem
        cases hmem
      · rw [hk₀] at hmem
        exact ⟨stream₀, by rw [hkey, hk₀], hmem⟩
    · rw [Function.update_of_ne hkey] at hk
      exact ⟨stream, hk, hmem⟩
  · rw [heq] at hk
    obtain ⟨stream₀, hk₀, hsub, -⟩ := Profile.mem_leave hk
    exact Or.inl ⟨⟨stream₀, hk₀, hsub _ hmem⟩, Or.inl howner⟩

/-- What a step keeps of a session that stays open. -/
theorem Step.session_kept {incoming : Option Incoming} {a a' : View} (hsound : Sound a)
    (h : Step incoming a a') {sid : Nat} {v v' : Profile} (hv : a.profile sid = some v)
    (hv' : a'.profile sid = some v') :
    v'.sessionKey = v.sessionKey ∧ (v.playWriter ≠ none → v'.playWriter ≠ none) := by
  rcases h.session_cases hv' with ⟨-, u, csMap, hu, rfl, -⟩ | ⟨u, after, m, hu, -, hhandled, hwriter⟩ |
    ⟨hnew, -⟩
  · rw [hv, Option.some.injEq] at hu
    subst hu
    exact ⟨rfl, fun hw => hw⟩
  · rw [hv, Option.some.injEq] at hu
    subst hu
    exact ⟨hhandled.sessionKey, hwriter⟩
  · have hlt := hsound.sessions sid v hv
    omega

/-! ## The invariant -/

/-- What holds of session `sid`: its entries are where it has played, and once
it is gone it is nobody's publisher. -/
structure Clean (sid : Nat) (a : View) : Prop where
  known : ∀ k id p, a.Entry k id p → a.owner p ≠ none
  entries : ∀ k id p, a.Entry k id p → a.owner p = some sid →
    ∃ v req, a.profile sid = some v ∧ id = v.sessionKey ∧ v.playWriter ≠ none ∧
      .played sid req ∈ a.log ∧ req.key = k
  unpublished : ∀ k stream, OnlyPublisher a.log sid k → a.profile sid = none →
    a.streams k = some stream → stream.publisherExist = false

/-- When session `sid` closes it plays, under the key of all its registrations,
or it publishes, under the key of all its packets. -/
def Settles (sid : Nat) (a a' : View) : Prop :=
  ∀ v, a.profile sid = some v → a'.profile sid = none →
    (∀ req, .played sid req ∈ a.log → v.req.inPlay = true ∧ req.key = v.req.key) ∧
    ∀ k, OnlyPublisher a.log sid k → v.req.inPlay = false ∧ v.req.key ≠ [] ∧ k = v.req.key

/-- The writers of old entries are old. -/
theorem Clean.owner_eq {sid : Nat} {a a' : View} (hsound : Sound a) (h : Clean sid a) {k id : Bytes}
    {p : Nat} (he : a.Entry k id p) (howner : a'.owner = a.owner ∨
      ∃ sid, a'.owner = Function.update a.owner a.nextWriter (some sid)) :
    a'.owner p = a.owner p := by
  rcases howner with howner | ⟨o, howner⟩
  · rw [howner]
  · obtain ⟨o', ho'⟩ := Option.ne_none_iff_exists'.mp (h.known k id p he)
    have hlt := (hsound.writers p o' ho').1
    rw [howner, Function.update_of_ne (by omega)]

theorem Clean.step_known {sid : Nat} {incoming : Option Incoming} {a a' : View}
    (hsound : Sound a) (h : Clean sid a) (hstep : Step incoming a a') {k id : Bytes} {p : Nat}
    (he : a'.Entry k id p) : a'.owner p ≠ none := by
  rcases hstep.entry_cases he with ⟨hold, howner⟩ | ⟨o, v, req, -, -, -, -, -, hp, howner⟩
  · rw [h.owner_eq hsound hold howner]
    exact h.known k id p hold
  · rw [howner, hp, Function.update_self]
    simp

theorem Clean.step_entries {sid : Nat} {incoming : Option Incoming} {a a' : View}
    (hsound : Sound a) (h : Clean sid a) (hsettles : Settles sid a a')
    (hstep : Step incoming a a') {k id : Bytes} {p : Nat} (he : a'.Entry k id p)
    (hp : a'.owner p = some sid) :
    ∃ v req, a'.profile sid = some v ∧ id = v.sessionKey ∧ v.playWriter ≠ none ∧
      .played sid req ∈ a'.log ∧ req.key = k := by
  rcases hstep.entry_cases he with ⟨hold, howner⟩ |
    ⟨o, v, req, hv, hwriter, hplayed, hkey, hid, hnext, howner⟩
  · rw [h.owner_eq hsound hold howner] at hp
    obtain ⟨v, req, hv, hid, hwriter, hplayed, hkey⟩ := h.entries k id p hold hp
    rcases hv' : a'.profile sid with _ | v'
    · -- the session closes, and its entry goes
      obtain ⟨obs, heq, -⟩ := hstep.closing hv hv'
      obtain ⟨stream, hk, hmem⟩ := he
      obtain ⟨hplay, hlast⟩ := (hsettles v hv hv').1 req hplayed
      rw [heq, ← hkey, hlast] at hk
      rw [hid] at hmem
      exact absurd hmem (Profile.leave_of_inPlay hplay hwriter hk)
    · obtain ⟨hsame, hkept⟩ := hstep.session_kept hsound hv hv'
      exact ⟨v', req, rfl, hid.trans hsame.symm, hkept hwriter, hstep.log_grows.subset hplayed,
        hkey⟩
  · rw [howner, hnext, Function.update_self, Option.some.injEq] at hp
    subst hp
    exact ⟨v, req, hv, hid, hwriter, hplayed, hkey⟩

theorem Clean.step_unpublished {sid : Nat} {incoming : Option Incoming} {a a' : View}
    (h : Clean sid a) (hsettles : Settles sid a a') (hstep : Step incoming a a') {k : Bytes}
    {stream : MediaStream Nat} (honly : OnlyPublisher a'.log sid k) (hgone : a'.profile sid = none)
    (hk : a'.streams k = some stream) : stream.publisherExist = false := by
  -- a session that is gone has not published in this step
  have hbefore : OnlyPublisher a.log sid k := by
    obtain ⟨⟨req, pkt, hpub, hkey⟩, hall⟩ := honly
    refine ⟨?_, fun o req pkt hpub => hall o req pkt (hstep.log_grows.subset hpub)⟩
    rcases hstep.published_cases with ⟨hsame, -⟩ | ⟨o, after, m, v, pkt₀, hin, hcarries, hv, -, hadd⟩
    · exact ⟨req, pkt, (hsame sid req pkt).mp hpub, hkey⟩
    · rcases (hadd sid req pkt).mp hpub with hpub | ⟨rfl, -, -⟩
      · exact ⟨req, pkt, hpub, hkey⟩
      · subst hin
        rcases hstep.handled with hrefused | ⟨-, v', -, hv', -⟩
        · rw [hrefused.quiet] at hcarries
          cases hcarries
        · rw [hgone] at hv'
          cases hv'
  rcases hv : a.profile sid with _ | v
  · -- the session was closed before, so the step is one of another session
    rcases hstep.streams_cases with ⟨heq, -⟩ | ⟨o, v', req, -, -, -, -, -, heq⟩ |
      ⟨o, u, pkt, hu, hpub, -, heq⟩ | ⟨o, u, -, -, -, heq⟩
    · rw [heq] at hk
      exact h.unpublished k stream hbefore hv hk
    · rw [heq] at hk
      by_cases hkey : k = req.key
      · rw [hkey, Function.update_self, Option.some.injEq] at hk
        have hsame : stream.publisherExist = ((a.streams req.key).getD {}).publisherExist := by
          rw [← hk, MediaStream.insertWriter]
          split_ifs <;> rfl
        rw [hsame]
        rcases hk₀ : a.streams req.key with _ | stream₀
        · rfl
        · exact h.unpublished k stream₀ hbefore hv (hkey ▸ hk₀)
      · rw [Function.update_of_ne hkey] at hk
        exact h.unpublished k stream hbefore hv hk
    · have hkey : k ≠ pkt.key := by
        intro heq
        have hself := honly.2 o u.req pkt hpub heq.symm
        rw [hself, hv] at hu
        cases hu
      rw [heq, Function.update_of_ne hkey] at hk
      exact h.unpublished k stream hbefore hv hk
    · rw [heq] at hk
      obtain ⟨stream₀, hk₀, -, hexist⟩ := Profile.mem_leave hk
      have hnone := h.unpublished k stream₀ hbefore hv hk₀
      rw [← Bool.not_eq_true] at hnone ⊢
      exact fun hyes => hnone (hexist hyes)
  · obtain ⟨obs, heq, -⟩ := hstep.closing hv hgone
    obtain ⟨hplay, hne, hkey⟩ := (hsettles v hv hgone).2 k hbefore
    rw [heq, hkey] at hk
    exact Profile.leave_removes hplay hne hk

theorem Clean.step {sid : Nat} {incoming : Option Incoming} {a a' : View} (hsound : Sound a)
    (h : Clean sid a) (hsettles : Settles sid a a') (hstep : Step incoming a a') :
    Clean sid a' where
  known _ _ _ he := h.step_known hsound hstep he
  entries _ _ _ he hp := h.step_entries hsound hsettles hstep he hp
  unpublished _ _ honly hgone hk := h.step_unpublished hsettles hstep honly hgone hk

end View

namespace World

/-- When the event closes session `sid`, the session plays, under the key of
all its registrations, or it publishes, under the key of all its packets. -/
def Settles (sid : Nat) (e : Event) (w : World) : Prop :=
  ∀ w' s, w.step e = .ok w' → w.session sid = some s → w'.session sid = none →
    (∀ req, .played sid req ∈ w.log → s.req.inPlay = true ∧ req.key = s.req.key) ∧
    ∀ k, OnlyPublisher w.log sid k → s.req.inPlay = false ∧ s.req.key ≠ [] ∧ k = s.req.key

theorem run_clean {events : List Event} {w : World} {sid : Nat}
    (halong : Run.Along step (Settles sid) events {}) (hrun : Run.run step events {} = .ok w) :
    w.view.Sound ∧ w.view.Clean sid := by
  refine run_rule ?_ ?_ halong hrun
  · refine ⟨?_, ?_, ?_⟩
    · rintro k id p ⟨stream, hk, -⟩
      cases hk
    · rintro k id p ⟨stream, hk, -⟩
      cases hk
    · intro k stream _ _ hk
      cases hk
  · intro e w w' hsound hclean hcond hstep hview
    refine hclean.step hsound ?_ hview
    intro v hv hgone
    obtain ⟨s, hs, rfl⟩ := Option.map_eq_some_iff.mp hv
    exact hcond w' s hstep hs (Option.map_eq_none_iff.mp hgone)

/-- **Session cleanup.**  A session that has closed has no entry in any stream,
and no key that it alone has published is left with a publisher, if at its end
it plays under the key of all its registrations, or publishes under the key of
all its packets. -/
theorem close_cleans_up {events : List Event} {w : World} {sid : Nat}
    (halong : Run.Along step (Settles sid) events {}) (hrun : Run.run step events {} = .ok w)
    (hclosed : .closed sid ∈ w.log) :
    (∀ k stream id p writer, w.streams k = some stream → (id, p) ∈ stream.writerMap →
      w.heap.writers p = some writer → writer.session ≠ sid) ∧
    ∀ k stream, OnlyPublisher w.log sid k → w.streams k = some stream →
      stream.publisherExist = false := by
  obtain ⟨hsound, hclean⟩ := run_clean halong hrun
  have hgone : w.view.profile sid = none := hsound.closed sid hclosed
  constructor
  · intro k stream id p writer hk hmem hwriter hsession
    have howner : w.view.owner p = some sid := by
      rw [← hsession]
      exact congrArg (Option.map RtmpWriter.session) hwriter
    obtain ⟨v, req, hv, -⟩ := hclean.entries k id p ⟨stream, hk, hmem⟩ howner
    rw [hgone] at hv
    cases hv
  · intro k stream honly hk
    exact hclean.unpublished k stream honly hgone hk

/-- A client plays and goes. -/
theorem close_cleans_up_player : ∃ w,
    Run.run step (Client.arrive 0 [] ++ Client.send 0 1 (Client.play "s") ++ [.hangup 0]) {} =
        .ok w ∧
      ∀ k stream id p writer, w.streams k = some stream → (id, p) ∈ stream.writerMap →
        w.heap.writers p = some writer → writer.session ≠ 0 := by
  obtain ⟨w', hrun', hclosed⟩ := Run.exists_of_map_toOption (b := true)
    (f := fun w : World => w.log.any fun obs =>
      match obs with
      | .closed 0 => true
      | _ => false)
    (x := Run.run step
      (Client.arrive 0 [] ++ Client.send 0 1 (Client.play "s") ++ [.hangup 0]) {})
    (by decide +kernel)
  obtain ⟨w, hrun, hstep⟩ := exists_of_run_concat hrun'
  have hbefore := Run.eq_of_map_toOption hrun (b := some true)
    (f := fun w : World => (w.session 0).map fun s => s.req.inPlay && w.log.all fun obs =>
      match obs with
      | .played _ req => req.key = s.req.key
      | .received _ _ _ => true
      | _ => false)
    (by decide +kernel)
  obtain ⟨s, hs, hall⟩ := Option.map_eq_some_iff.mp hbefore
  rw [Bool.and_eq_true, List.all_eq_true] at hall
  obtain ⟨hplay, hall⟩ := hall
  have halong : Run.Along step (Settles 0)
      (Client.arrive 0 [] ++ Client.send 0 1 (Client.play "s") ++ [.hangup 0]) {} := by
    have hsound : ({} : World).view.Sound := View.sound_init
    refine Run.Along.concat (along_of_no_close ?_ hsound hrun ?_) ?_
    · intro e w hkeep w' s hstep hs hgone
      exact absurd hgone (hkeep w' 0 s hstep hs)
    · intro sid hmem
      have hfalse := hall _ hmem
      cases hfalse
    · intro t ht w₂ s₂ _ hs₂ _
      rw [hrun, Except.ok.injEq] at ht
      subst ht
      rw [hs, Option.some.injEq] at hs₂
      subst hs₂
      refine ⟨fun req hmem => ⟨hplay, by simpa using hall _ hmem⟩, ?_⟩
      rintro k ⟨⟨req, pkt, hmem, -⟩, -⟩
      have hfalse := hall _ hmem
      cases hfalse
  obtain ⟨obs, hmem, hobs⟩ := List.any_eq_true.mp hclosed
  split at hobs
  · exact ⟨w', hrun', (close_cleans_up halong hrun' hmem).1⟩
  · cases hobs

/-- A client plays two streams and goes.  Its entry in the first stream stays,
with a writer that points to it. -/
theorem close_cleans_up_two_plays : ∃ w stream id p writer,
    Run.run step (Client.arrive 0 [] ++
      Client.send 0 2 (Client.play "a" ++ Client.play "b") ++ [.hangup 0]) {} = .ok w ∧
      w.session 0 = none ∧ w.streams (ascii "/a") = some stream ∧
      (id, p) ∈ stream.writerMap ∧ w.heap.writers p = some writer ∧ writer.session = 0 := by
  obtain ⟨w, hrun, hf⟩ := Run.exists_of_map_toOption (b := (true, some true))
    (f := fun w : World => ((w.session 0).isNone, (w.streams (ascii "/a")).map fun stream =>
      stream.writerMap.any fun x => (w.heap.writers x.2).any fun writer => writer.session = 0))
    (x := Run.run step (Client.arrive 0 [] ++
      Client.send 0 2 (Client.play "a" ++ Client.play "b") ++ [.hangup 0]) {})
    (by decide +kernel)
  rw [Prod.mk.injEq, Option.map_eq_some_iff] at hf
  obtain ⟨hgone, stream, hk, hany⟩ := hf
  obtain ⟨⟨id, p⟩, hmem, hwriter⟩ := List.any_eq_true.mp hany
  obtain ⟨writer, hw, hsession⟩ := (Option.any_eq_true _ _).mp hwriter
  exact ⟨w, stream, id, p, writer, hrun, Option.isNone_iff_eq_none.mp hgone, hk, hmem, hw,
    by simpa using hsession⟩

end World

end MediaServer
