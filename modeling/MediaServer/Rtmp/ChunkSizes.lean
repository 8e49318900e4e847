import MediaServer.Rtmp.History

/-!
# Chunk sizes

One field of a session, `chunk_size_`, is the size that a chunk stream gets
when it is first seen, and the size by which responses are cut.  Each chunk
stream keeps the size it got.  This file says when the sizes agree with what
the peer has announced.

* `one_chunk_size_iff`: all chunk streams have the size of the session as long
  as no message changes that size, and not longer.
* `first_seen_size_iff`: a new chunk stream gets the last announced size unless
  a connect command has been answered since.
-/

namespace MediaServer

/-! ## One size for all chunk streams -/

/-- The chunk streams of a session all have the session's chunk size. -/
def SessionBase.OneSize (s : SessionBase) : Prop :=
  ∀ k cs, s.csMap k = some cs → cs.chunkSize = s.chunkSize

/-- The message leaves a session with the default chunk size as it is. -/
def History.KeepsDefault (x : Bytes × Message) : Prop :=
  (∀ n, Session.announced x.2 = some n → n = CHUNK_DEF_SIZE) ∧
    Session.answersConnect x.1 x.2 = false

namespace History

theorem answersConnect_of_announced {after : Bytes} {m : Message} {n : UInt32}
    (h : Session.announced m = some n) : Session.answersConnect after m = false := by
  have htype : m.typeId = 1 := by
    unfold Session.announced at h
    split_ifs at h with hcond
    exact hcond.1
  have hcmd : Session.command after m = none := Session.command_eq_none after (by simp [htype])
  simp [Session.answersConnect, hcmd]

theorem keepsDefault_iff (x : Bytes × Message) :
    KeepsDefault x ↔ Session.chunkSizeAfter x.1 x.2 CHUNK_DEF_SIZE = CHUNK_DEF_SIZE := by
  unfold KeepsDefault Session.chunkSizeAfter
  rcases hann : Session.announced x.2 with _ | n
  · have hne : Session.CONFIG_CHUNK_SIZE ≠ CHUNK_DEF_SIZE := by decide
    simp [hne]
  · simp [answersConnect_of_announced hann]

theorem keepsDefault_of_not_changes {after : Bytes} {m : Message}
    (h : Session.changes after m = false) : KeepsDefault (after, m) := by
  simp only [Session.changes, Bool.or_eq_false_iff, Option.isSome_eq_false_iff,
    Option.isNone_iff_eq_none] at h
  refine ⟨?_, h.1.2⟩
  simp [h.2]

end History

namespace Profile

/-- The chunk streams of a profile all have its chunk size. -/
def OneSize (v : Profile) : Prop := ∀ k cs, v.csMap k = some cs → cs.chunkSize = v.chunkSize

/-- New chunk streams get the size that the others have. -/
theorem OneSize.of_streamsFrom {v v' : Profile} (h : v.OneSize)
    (hstreams : StreamsFrom v.csMap v.chunkSize v'.csMap) (hsize : v'.chunkSize = v.chunkSize) :
    v'.OneSize := by
  intro k cs hk
  rw [hsize]
  rcases hstreams k cs hk with ⟨cs₀, hk₀, heq⟩ | ⟨-, heq⟩
  · rw [heq]
    exact h k cs₀ hk₀
  · exact heq

end Profile

namespace View

/-- As long as no message changes the default size, every chunk stream has it. -/
def Uniform (a : View) : Prop :=
  ∀ sid v, a.profile sid = some v → (∀ x ∈ history sid a.log, History.KeepsDefault x) →
    v.OneSize ∧ v.chunkSize = CHUNK_DEF_SIZE

theorem Uniform.step {incoming : Option Incoming} {a a' : View} (h : Uniform a)
    (hstep : Step incoming a a') : Uniform a' := by
  intro sid v' hv' hkeeps
  rw [hstep.history_eq sid] at hkeeps
  have hbefore : ∀ x ∈ history sid a.log, History.KeepsDefault x :=
    fun x hx => hkeeps x (List.mem_append_left _ hx)
  rcases hstep.session_cases hv' with ⟨-, v, csMap, hv, rfl, hstreams⟩ |
    ⟨v, after, m, hv, rfl, hhandled, -⟩ | ⟨-, -, hfresh⟩
  · obtain ⟨hone, hdef⟩ := h sid v hv hbefore
    exact ⟨hone.of_streamsFrom hstreams rfl, hdef⟩
  · obtain ⟨hone, hdef⟩ := h sid v hv hbefore
    have hlast : History.KeepsDefault (after, m) := hkeeps _ (by simp [share])
    have hsize : v'.chunkSize = CHUNK_DEF_SIZE := by
      rw [hhandled.chunkSize, hdef]
      exact (History.keepsDefault_iff _).mp hlast
    exact ⟨hone.of_streamsFrom hhandled.streams (hsize.trans hdef.symm), hsize⟩
  · rw [hfresh]
    refine ⟨?_, rfl⟩
    intro k cs hk
    cases hk

end View

namespace World

theorem run_uniform {events : List Event} {w : World} (hrun : Run.run step events {} = .ok w) :
    w.view.Sound ∧ w.view.Uniform := by
  refine run_always ?_ (fun _ h hstep => h.step hstep) hrun
  intro sid v hv
  cases hv

/-- **One chunk size per session.**  The chunk streams of a session have the
session's chunk size in all states of a run exactly when no message that the
session has handled changed the default size. -/
theorem one_chunk_size_iff {events : List Event} {w : World}
    (hrun : Run.run step events {} = .ok w) (sid : Nat) :
    (∀ pre w' s, pre <+: events → Run.run step pre {} = .ok w' → w'.session sid = some s →
      s.base.OneSize) ↔
    ∀ x ∈ history sid w.log, History.KeepsDefault x := by
  constructor
  · intro hall
    refine run_history_induction (fun w' => ∀ s, w'.session sid = some s → s.base.OneSize) ?_ hrun
      (fun pre w' hpre hrun' s hs => hall pre w' s hpre hrun' hs)
    intro pre w₁ w₂ after m _ hrun₁ hbefore hone hstep
    rcases hstep.handled with hrefused | ⟨v, v', hv, hv', hhandled⟩
    · exact History.keepsDefault_of_not_changes hrefused.changes
    -- the stream of the message has the default size, so the session has it too
    obtain ⟨honesize, hdef⟩ := (run_uniform hrun₁).2 sid v hv hbefore
    obtain ⟨s₂, hs₂, rfl⟩ := Option.map_eq_some_iff.mp hv'
    obtain ⟨k, cs, hk⟩ := hhandled.filed
    have hcs : cs.chunkSize = CHUNK_DEF_SIZE := by
      rcases hhandled.streams k cs hk with ⟨cs₀, hk₀, heq⟩ | ⟨-, heq⟩
      · rw [heq, honesize k cs₀ hk₀, hdef]
      · rw [heq, hdef]
    have hsize : s₂.profile.chunkSize = CHUNK_DEF_SIZE := by
      rw [← hcs]
      exact (hone s₂ hs₂ k cs hk).symm
    rw [History.keepsDefault_iff, ← hdef, ← hhandled.chunkSize, hsize, hdef]
  · intro hkeeps pre w' s hpre hrun' hs
    have hlog := run_history_grows hpre hrun' hrun sid
    have hv : w'.view.profile sid = some s.profile := Heap.profile_eq_some hs
    exact ((run_uniform hrun').2 sid s.profile hv (fun x hx => hkeeps x (hlog.subset hx))).1

/-- A client that announces the default size. -/
theorem one_chunk_size_default : ∃ w,
    Run.run step (Client.arrive 0 [] ++ Client.send 0 1 (Client.message 2 1 [0, 0, 0, 128])) {} =
        .ok w ∧
      ∀ s, w.session 0 = some s → s.base.OneSize := by
  obtain ⟨w, hrun, hlog⟩ := Run.exists_of_map_toOption
    (f := fun w : World => history 0 w.log)
    (b := [([], ⟨2, 0, 1, 0, [0, 0, 0, 128]⟩)])
    (x := Run.run step
      (Client.arrive 0 [] ++ Client.send 0 1 (Client.message 2 1 [0, 0, 0, 128])) {})
    (by decide +kernel)
  refine ⟨w, hrun, fun s hs => ?_⟩
  refine (one_chunk_size_iff hrun 0).mpr ?_ _ w s (List.prefix_refl _) hrun hs
  rw [hlog]
  simp only [List.mem_singleton, forall_eq, History.keepsDefault_iff]
  decide

/-- The stream on which a new size is announced keeps the old one. -/
theorem one_chunk_size_announced : ∃ w s cs,
    Run.run step (Client.arrive 0 [] ++ Client.send 0 1 (Client.message 2 1 [0, 0, 16, 0])) {} =
        .ok w ∧
      w.session 0 = some s ∧ s.base.csMap 2 = some cs ∧ cs.chunkSize ≠ s.base.chunkSize := by
  obtain ⟨w, hrun, hf⟩ := Run.exists_of_map_toOption (b := some (4096, some 128))
    (f := fun w : World =>
      (w.session 0).map fun s => (s.base.chunkSize, (s.base.csMap 2).map (·.chunkSize)))
    (x := Run.run step
      (Client.arrive 0 [] ++ Client.send 0 1 (Client.message 2 1 [0, 0, 16, 0])) {})
    (by decide +kernel)
  obtain ⟨s, hs, hsizes⟩ := Option.map_eq_some_iff.mp hf
  rw [Prod.mk.injEq, Option.map_eq_some_iff] at hsizes
  obtain ⟨hsize, cs, hcs, hcsize⟩ := hsizes
  refine ⟨w, s, cs, hrun, hs, hcs, ?_⟩
  rw [hsize, hcsize]
  decide

/-! ## The size of a new chunk stream -/

/-- **Chunk sizes and directions.**  The size that a chunk stream gets when it
is first seen is the session's chunk size.  This is the last size that the peer
has announced exactly when no connect command has been answered since, or when
the announced size is the one that the answer sets. -/
theorem first_seen_size_iff {events : List Event} {w : World} {sid : Nat} {s : ServerSession}
    (hrun : Run.run step events {} = .ok w) (hs : w.session sid = some s) :
    (s.base.chunkSize = (history sid w.log).lastAnnounced ↔
      ((history sid w.log).connectedSince = true →
        (history sid w.log).lastAnnounced = Session.CONFIG_CHUNK_SIZE)) ∧
    ∀ base, s.base.readBasicHeader = (.ok, base) →
      s.base.csMap (SessionBase.mapKey base.csid) = none →
        base.currentStream.chunkSize = s.base.chunkSize := by
  constructor
  · have hv : w.view.profile sid = some s.profile := Heap.profile_eq_some hs
    have hsize : s.base.chunkSize = (history sid w.log).chunkSizeOf :=
      ((run_told hrun).2 sid s.profile hv).1
    rw [hsize, History.chunkSizeOf_eq]
    by_cases hconnected : (history sid w.log).connectedSince = true
    · simp [hconnected, eq_comm]
    · simp [hconnected]
  · intro base hbase hnew
    obtain ⟨hmap, hsize⟩ := SessionBase.readBasicHeader_frame hbase
    rw [SessionBase.currentStream, hmap, hnew, Option.getD_none, ← hsize]
    rfl

/-- A client that announces a size after its connect command. -/
theorem first_seen_size_announced : ∃ w s,
    Run.run step (Client.arrive 0 [] ++ Client.send 0 2
      (Client.command 3 "connect" (Client.app "live") ++ Client.message 2 1 [0, 0, 1, 0])) {} =
        .ok w ∧
      w.session 0 = some s ∧ s.base.chunkSize = (history 0 w.log).lastAnnounced := by
  obtain ⟨w, hrun, hf⟩ := Run.exists_of_map_toOption (b := (true, false))
    (f := fun w : World => ((w.session 0).isSome, (history 0 w.log).connectedSince))
    (x := Run.run step (Client.arrive 0 [] ++ Client.send 0 2
      (Client.command 3 "connect" (Client.app "live") ++ Client.message 2 1 [0, 0, 1, 0])) {})
    (by decide +kernel)
  rw [Prod.mk.injEq, Option.isSome_iff_exists] at hf
  obtain ⟨⟨s, hs⟩, hconnected⟩ := hf
  refine ⟨w, s, hrun, hs, (first_seen_size_iff hrun hs).1.mpr ?_⟩
  simp [hconnected]

/-- A client that announces no size and is read with another than 128 after
its connect command. -/
theorem first_seen_size_connected : ∃ w s cs,
    Run.run step (Client.arrive 0 [] ++ Client.send 0 2
      (Client.command 3 "connect" (Client.app "live") ++
        Client.command 5 "createStream" [0x05])) {} = .ok w ∧
      w.session 0 = some s ∧ s.base.csMap 5 = some cs ∧
        cs.chunkSize ≠ (history 0 w.log).lastAnnounced := by
  obtain ⟨w, hrun, hf⟩ := Run.exists_of_map_toOption (b := some (some 4096, 128))
    (f := fun w : World => (w.session 0).map fun s =>
      ((s.base.csMap 5).map (·.chunkSize), (history 0 w.log).lastAnnounced))
    (x := Run.run step (Client.arrive 0 [] ++ Client.send 0 2
      (Client.command 3 "connect" (Client.app "live") ++
        Client.command 5 "createStream" [0x05])) {})
    (by decide +kernel)
  obtain ⟨s, hs, hsizes⟩ := Option.map_eq_some_iff.mp hf
  rw [Prod.mk.injEq, Option.map_eq_some_iff] at hsizes
  obtain ⟨⟨cs, hcs, hcsize⟩, hlast⟩ := hsizes
  refine ⟨w, s, cs, hrun, hs, hcs, ?_⟩
  rw [hlast, hcsize]
  decide

end World

end MediaServer
