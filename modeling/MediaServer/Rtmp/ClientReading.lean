import MediaServer.Rtmp.ClientSteps
import MediaServer.Rtmp.History

/-!
# A client session keeps reading

`handle_message` asks for more data at the end of every phase, with one
exception: when `receive_resp_message` has run for the answer to `connect` and
returns `RTMP_NEED_READ_MORE`, the callback returns and nothing else is done.
`stalls` is that step, and `keeps_reading_iff` says that it is the only one
that leaves an open connection without a read.
-/

namespace MediaServer

namespace ClientSession

/-- An open connection waits for data, or its callback is in progress. -/
def Reads (s : ClientSession) : Prop :=
  s.connected = true → s.reading = true ∨ ∃ p, s.control = .receiving p

/-- The pass ends the loop for the answer to `connect` with a message that is
not complete. -/
def stalls (s : ClientSession) : Event → Bool
  | .pass _ => s.control = .receiving .connectResp && s.waits
  | _ => false

/-! ## The end of a callback -/

theorem Resumed.reads {s s' : ClientSession} (h : Resumed s s')
    (hphase : s.clientPhase = .createStream ∨ awaitsStatus s.clientPhase = true) :
    s'.control = .idle ∧ s'.reading = true := by
  cases h with
  | creates _ _ _ _ hreading hcontrol => exact ⟨hcontrol, hreading⟩
  | requests _ _ _ _ _ hreading hcontrol => exact ⟨hcontrol, hreading⟩
  | loops hp =>
    rcases hp with ⟨hs, -⟩ | ⟨hs, -⟩
    · simp [hs, awaitsStatus] at hphase
    · simp [hs, awaitsStatus] at hphase
  | rests hp =>
    rcases hp with hs | hs | hs | hs <;> simp [hs, awaitsStatus] at hphase

/-- A callback returns when its loop has ended.  It has closed the connection
or asked for data, unless the answer to `connect` is not complete. -/
theorem endLoop_reads {p : RespPhase} {ret : RtmpRet} {s s' : ClientSession}
    (hfollows : follows p s.clientPhase = true) (h : s.endLoop p ret = .ok s') :
    s'.control = .idle ∧
      ((p = .connectResp ∧ ret = .needReadMore ∧ s' = s.done) ∨
        ((p ≠ .connectResp ∨ ret ≠ .needReadMore) ∧
          (s'.connected = false ∨ s'.reading = true))) := by
  unfold endLoop at h
  split at h
  · cases h
    exact ⟨rfl, Or.inr ⟨Or.inr (by simp), Or.inl rfl⟩⟩
  · cases h
    exact ⟨rfl, Or.inl ⟨rfl, rfl, rfl⟩⟩
  · split_ifs at h with hresp
    · -- the connection waits for the answer to `connect`
      have hs' : s' = s.tryRead.done := by
        have hphase : s.tryRead.clientPhase = .connectResp := hresp
        rw [resume, hphase] at h
        cases h
        rfl
      subst hs'
      exact ⟨rfl, Or.inr ⟨Or.inr (by simp), Or.inr rfl⟩⟩
    · have hphase : s.clientPhase = .createStream ∨ awaitsStatus s.clientPhase = true := by
        simpa [follows, hresp] using hfollows
      obtain ⟨hcontrol, hreading⟩ := (resume_resumed h).reads hphase
      exact ⟨hcontrol, Or.inr ⟨Or.inr (by simp), Or.inr hreading⟩⟩
  · cases h
    exact ⟨rfl, Or.inr ⟨Or.inl (by simp), Or.inr rfl⟩⟩
  · obtain ⟨hcontrol, hreading⟩ :=
      (resume_resumed h).reads (Or.inr (awaitsStatus_requestPhase s))
    exact ⟨hcontrol, Or.inr ⟨Or.inl (by simp), Or.inr hreading⟩⟩
  · cases h
    exact ⟨rfl, Or.inr ⟨Or.inl (by simp), Or.inr rfl⟩⟩

/-- What a pass does for the reads of its connection. -/
theorem pass_reads {after : Bytes} {p : RespPhase} {s s' : ClientSession} (h : Regular s)
    (hcontrol : s.control = .receiving p) (hpass : s.receivePass after = .ok s') :
    (s'.control = .receiving p ∧ s'.base.pending < s.base.pending ∧
        s.stalls (.pass after) = false) ∨
      (s'.control = .idle ∧ (s'.Reads ↔ s.stalls (.pass after) = false)) := by
  obtain ⟨hconnected, hreading, hfollows⟩ := h.busy p hcontrol
  have hstalls : s.stalls (.pass after) = (decide (p = .connectResp) && s.waits) := by
    simp [stalls, hcontrol]
  obtain ⟨ret, s₁, hpassed, ⟨hret, rfl⟩ | ⟨r, hret, hend⟩⟩ := receivePass_cases hcontrol hpass
  · left
    have hwaits : s.waits = false := by simpa [hret] using hpassed.waits
    exact ⟨hpassed.kept.control.trans hcontrol, hpassed.less hret, by simp [hstalls, hwaits]⟩
  · right
    have hwaits : r = .needReadMore ↔ s.waits = true := by
      simpa [hret] using hpassed.waits
    obtain ⟨hidle, ⟨hp, hmore, hs'⟩ | ⟨hother, hend'⟩⟩ :=
      endLoop_reads (hpassed.follows hfollows) hend
    · refine ⟨hidle, ?_⟩
      have hopen : s'.connected = true := by
        rw [hs']
        exact hpassed.kept.connected.trans hconnected
      have hno : s'.reading = false := by
        rw [hs']
        exact hpassed.kept.reading.trans hreading
      simp [Reads, hopen, hno, hidle, hstalls, hp, hwaits.mp hmore]
    · refine ⟨hidle, ?_⟩
      have hreads : s'.Reads := by
        intro hopen
        left
        rcases hend' with hclosed | hyes
        · rw [hopen] at hclosed
          cases hclosed
        · exact hyes
      have hno : (decide (p = .connectResp) && s.waits) = false := by
        rcases hother with hp | hr
        · simp [hp]
        · simp [mt hwaits.mpr hr]
      simp [hreads, hstalls, hno]

/-! ## The steps -/

theorem onRead_reads {data : Bytes} {s s' : ClientSession} (h : Regular s)
    (hconnected : s.connected = true) (hread : s.onRead data = .ok s') : s'.Reads := by
  have hphase := h.idle hconnected
  unfold onRead at hread
  simp only at hread
  intro _
  split at hread
  · rcases handleS0s1s2_cases hread with hs' | ⟨-, -, -, hreading, -⟩
    · subst hs'
      exact Or.inl rfl
    · exact Or.inl hreading
  · cases hread
    exact Or.inr ⟨_, rfl⟩
  · rename_i hc0c1 hresp
    cases resume_resumed hread with
    | creates _ _ _ _ hreading _ => exact Or.inl hreading
    | requests _ _ _ _ _ hreading _ => exact Or.inl hreading
    | loops _ hs' =>
      subst hs'
      exact Or.inr ⟨_, rfl⟩
    | rests hp =>
      rcases hp with hs | hs | hs | hs
      · exact absurd hs hphase.1
      · exact absurd hs hc0c1
      · exact absurd hs hphase.2
      · exact absurd hs hresp

theorem stalls_of_disabled {e : Event} {s : ClientSession} (h : s.enabled e = false) :
    s.stalls e = false := by
  cases e with
  | pass after =>
    have hidle : s.control = .idle := by simpa [enabled] using h
    simp [stalls, hidle]
  | _ => rfl

theorem step_reads_iff {e : Event} {s s' : ClientSession} (h : Regular s) (hreads : s.Reads)
    (hstep : s.step e = .ok s') : s'.Reads ↔ s.stalls e = false := by
  rcases step_cases hstep with ⟨hdisabled, rfl⟩ | ⟨c1, rfl, -, rfl⟩ | ⟨data, rfl, hconnected, hread⟩ |
    ⟨after, p, rfl, hcontrol, hpass⟩ | ⟨rfl, rfl⟩ | ⟨pkt, sent, rfl, rfl⟩
  · simp [hreads, stalls_of_disabled hdisabled]
  · cases c1 with
    | none => simp [Reads, stalls, onConnect, close]
    | some c1 => simp [Reads, stalls, onConnect, tryRead]
  · simp [onRead_reads h hconnected hread, stalls]
  · rcases pass_reads h hcontrol hpass with ⟨hcontrol', -, hstalls⟩ | ⟨-, hiff⟩
    · simp [Reads, hcontrol', hstalls]
    · exact hiff
  · simp [Reads, stalls, close]
  · have hsame : ({ s with sent := sent } : ClientSession).Reads := hreads
    simp [hsame, stalls]

/-! ## Runs -/

/-- How much the callback in progress has to read. -/
def toRead (s : ClientSession) : Nat :=
  match s.control with
  | .receiving _ => s.base.pending
  | .idle => 0

/-- No pass is made when no callback is in progress. -/
theorem step_pass_idle {s s' : ClientSession} {after : Bytes} (hidle : s.control = .idle)
    (h : s.step (.pass after) = .ok s') : s' = s := by
  simp only [ClientSession.step, enabled, hidle] at h
  cases h
  rfl

/-- A callback returns: every pass but the last one leaves less to read. -/
theorem run_passes_return {s s' : ClientSession} {afters : List Bytes} (h : Regular s)
    (hlen : s.toRead < afters.length)
    (hrun : Run.run step (afters.map .pass) s = .ok s') : s'.control = .idle := by
  refine @Run.run_settles ClientSession Fault Event step Bytes .pass Regular
    (fun s => s.control = .idle) toRead ?_ ?_ afters s s' h hlen hrun
  · intro after s s' hidle hstep
    rw [step_pass_idle hidle hstep]
    exact hidle
  · intro after s s' h hstep
    rcases hcontrol : s.control with _ | p
    · rw [step_pass_idle hcontrol hstep]
      exact Or.inl hcontrol
    have hpass : s.receivePass after = .ok s' := by
      simpa [ClientSession.step, enabled, hcontrol] using hstep
    rcases pass_reads h hcontrol hpass with ⟨hcontrol₁, hless, -⟩ | ⟨hidle, -⟩
    · right
      have hn : s.toRead = s.base.pending := by simp [toRead, hcontrol]
      have hn₁ : s'.toRead = s'.base.pending := by simp [toRead, hcontrol₁]
      exact ⟨h.step hstep, by omega⟩
    · exact Or.inl hidle

theorem run_regular {publish : Bool} {tcurl app streamName : Bytes} {events : List Event}
    {s : ClientSession} (hrun : Run.run step events (start publish tcurl app streamName) = .ok s) :
    Regular s :=
  Run.run_preserves (fun _ _ _ h hstep => h.step hstep)
    (regular_start publish tcurl app streamName) hrun

/-- **The client keeps reading.**  Every callback returns, unless it ends in a
fault.  In all states of a run an open connection waits for data or has its
callback in progress, if and only if the loop for the answer to `connect` never
ends on a message that is not complete. -/
theorem keeps_reading_replies_iff {publish : Bool} {tcurl app streamName : Bytes}
    {events : List Event} {s : ClientSession}
    (hrun : Run.run step events (start publish tcurl app streamName) = .ok s) :
    (∀ (afters : List Bytes) (s' : ClientSession), s.toRead < afters.length →
      Run.run step (afters.map .pass) s = .ok s' → s'.control = .idle) ∧
    ((∀ pre s', pre <+: events →
        Run.run step pre (start publish tcurl app streamName) = .ok s' → s'.Reads) ↔
      Run.Along step (fun e s => s.stalls e = false) events
        (start publish tcurl app streamName)) := by
  refine ⟨fun afters s' hlen hpasses => run_passes_return (run_regular hrun) hlen hpasses, ?_⟩
  refine @Run.forall_prefix_iff_along ClientSession Fault Event step _ Regular Reads ?_ ?_ events
    _ s (regular_start publish tcurl app streamName) ?_ hrun
  · exact fun _ _ _ h hstep => h.step hstep
  · exact fun _ _ _ h hreads hstep => step_reads_iff h hreads hstep
  · intro hconnected
    cases hconnected

end ClientSession

/-! ## Servers

What a server sends, for runs on fixed inputs.
-/

namespace Server

/-- The answer to a command. -/
def result : Bytes := Client.command 3 "_result" []

/-- The command `onBWDone`. -/
def bwDone : Bytes := Client.command 3 "onBWDone" []

/-- A message that sets the chunk size to 4096. -/
def setChunkSize : Bytes := Client.message 2 1 [0, 0, 0x10, 0]

/-- The server accepts the connection and completes the handshake. -/
def accept : List ClientSession.Event :=
  [.connect (some (List.replicate 1536 0)), .read (List.replicate 3073 0)]

/-- The client receives `data`, in `passes` passes. -/
def send (passes : Nat) (data : Bytes) : List ClientSession.Event :=
  .read data :: List.replicate passes (.pass [])

end Server

namespace ClientSession

/-- The callback for one answer returns after one pass. -/
example : ((Run.run step (Server.accept ++ Server.send 1 Server.result)
    (start false [] (ascii "live") (ascii "s"))).toOption.map (·.control)) = some .idle := by
  decide +kernel

/-- A client that plays, and whose server sends each answer in one piece. -/
theorem keeps_reading_replies_play : ∃ s,
    Run.run step (Server.accept ++ Server.send 1 Server.result ++ Server.send 1 Server.result)
        (start false [] (ascii "live") (ascii "s")) = .ok s ∧
      ∀ pre s', pre <+: Server.accept ++ Server.send 1 Server.result ++ Server.send 1 Server.result →
        Run.run step pre (start false [] (ascii "live") (ascii "s")) = .ok s' → s'.Reads := by
  obtain ⟨s, hrun, -⟩ := Run.exists_of_map_toOption (b := ClientPhase.mediaHandle)
    (f := fun s : ClientSession => s.clientPhase)
    (x := Run.run step (Server.accept ++ Server.send 1 Server.result ++ Server.send 1 Server.result)
      (start false [] (ascii "live") (ascii "s")))
    (by decide +kernel)
  exact ⟨s, hrun, (keeps_reading_replies_iff hrun).2.mpr (by decide +kernel)⟩

/-- The answer to `connect` arrives in two pieces.  After the first one the
connection is open, nothing is in progress, and no read is outstanding. -/
theorem keeps_reading_replies_split : ∃ s,
    Run.run step (Server.accept ++ Server.send 1 (Server.result.take 20))
        (start false [] (ascii "live") (ascii "s")) = .ok s ∧
      s.connected = true ∧ s.control = .idle ∧ s.reading = false := by
  obtain ⟨s, hrun, hs⟩ := Run.exists_of_map_toOption (b := (true, ClientControl.idle, false))
    (f := fun s : ClientSession => (s.connected, s.control, s.reading))
    (x := Run.run step (Server.accept ++ Server.send 1 (Server.result.take 20))
      (start false [] (ascii "live") (ascii "s")))
    (by decide +kernel)
  simp only [Prod.mk.injEq] at hs
  exact ⟨s, hrun, hs⟩

end ClientSession

end MediaServer
