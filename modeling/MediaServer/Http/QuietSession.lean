import MediaServer.Http.HttpSession
import MediaServer.Lib.Run

/-!
# A closed session

A session that is closed should issue no read and call no handler, and since it has
one request, it should call a handler at most once.  `Quiet` says this of its log.

`on_read` breaks both parts.  It goes on behind the `close()` of an error, and every
read looks at the request again when it is complete already.  `Allowed` is the
condition on a callback, and `quiet_step` shows that a callback keeps a quiet log
quiet exactly when it meets the condition.  `quiet_iff` is the result about runs.
-/

namespace MediaServer

namespace HttpSession

open HttpInput

variable {getHandle : HttpRequest → Option HttpHandler} {s s' : HttpSession}

/-- Behind a close there are closes only, and there is at most one call of a handler. -/
def Quiet (log : List HttpObs) : Prop :=
  log.Pairwise (fun a b => a = .close → b = .close) ∧ log.count .handle ≤ 1

instance (log : List HttpObs) : Decidable (Quiet log) := inferInstanceAs (Decidable (_ ∧ _))

/-- What the members say about the log. -/
structure Tracked (s : HttpSession) : Prop where
  closed : s.isClosed = true ↔ .close ∈ s.log
  handled : s.response.isSome = true ↔ .handle ∈ s.log

/-- A read without an error, on a session that is not closed. -/
def Live (retCode : Int) (s : HttpSession) : Prop := retCode = 0 ∧ s.isClosed = false

/-- The condition of a callback. -/
def Allowed (getHandle : HttpRequest → Option HttpHandler) : Event → HttpSession → Prop
  | .read retCode data, s =>
    match s.toHttpInput.takeData data with
    | .ok (.incomplete, _) => Live retCode s
    | .ok (.complete _, input) =>
      getHandle input.request = none ∨ (Live retCode s ∧ s.response = none)
    | _ => True
  | _, _ => True

/-! ## The log -/

theorem quiet_concat {log : List HttpObs} {x : HttpObs} :
    Quiet (log ++ [x]) ↔
      Quiet log ∧ (x ≠ .close → .close ∉ log) ∧ (x = .handle → .handle ∉ log) := by
  have hpairs : (log ++ [x]).Pairwise (fun a b => a = .close → b = .close) ↔
      log.Pairwise (fun a b => a = .close → b = .close) ∧ (x ≠ .close → .close ∉ log) := by
    rw [List.pairwise_append]
    simp only [List.pairwise_singleton, true_and, List.mem_singleton, forall_eq]
    refine and_congr_right fun _ => ⟨fun h hx hmem => hx (h _ hmem rfl), ?_⟩
    intro h a ha hclose
    subst hclose
    by_contra hx
    exact h hx ha
  have hcount : (log ++ [x]).count .handle ≤ 1 ↔
      log.count .handle ≤ 1 ∧ (x = .handle → .handle ∉ log) := by
    rw [List.count_append, List.count_singleton, ← List.count_eq_zero]
    by_cases hx : x = .handle
    · simp only [hx, beq_self_eq_true, if_true, true_implies]
      omega
    · simp only [hx, beq_iff_eq, if_false, false_implies, and_true]
      omega
  rw [Quiet, Quiet, hpairs, hcount]
  tauto

theorem quiet_read : Quiet s.tryRead.log ↔ Quiet s.log ∧ .close ∉ s.log := by
  simp [tryRead, quiet_concat]

/-! ## Closing -/

@[simp] theorem close_isClosed : s.close.isClosed = true := by
  rw [close]
  split <;> simp_all

@[simp] theorem close_toHttpInput : s.close.toHttpInput = s.toHttpInput := by
  rw [close]
  split <;> rfl

@[simp] theorem close_isSome : s.close.response.isSome = s.response.isSome := by
  rw [close]
  split <;> simp

theorem Tracked.close (hs : Tracked s) : Tracked s.close := by
  refine ⟨?_, ?_⟩
  · rw [close_isClosed, HttpSession.close]
    split
    · rename_i hclosed
      simpa using hs.closed.mp hclosed
    · simp
  · rw [close_isSome, hs.handled, HttpSession.close]
    split
    · rfl
    · simp

theorem quiet_close : Quiet s.close.log ↔ Quiet s.log := by
  rw [close]
  split
  · rfl
  · simp [quiet_concat]

theorem Tracked.respond (hs : Tracked s) (call : ResponseCall) : Tracked (s.respond call) := by
  cases call with
  | write data => exact hs
  | close =>
    rw [HttpSession.respond]
    split
    · rename_i hopen
      refine Tracked.close ⟨hs.closed, ?_⟩
      rw [← hs.handled, hopen]
      rfl
    · exact hs

theorem quiet_respond (call : ResponseCall) : Quiet (s.respond call).log ↔ Quiet s.log := by
  cases call with
  | write data => rfl
  | close =>
    rw [respond]
    split
    · exact quiet_close
    · rfl

/-- What a handler does with its response neither reads nor calls a handler. -/
theorem Tracked.responds (hs : Tracked s) (calls : List ResponseCall) :
    Tracked (calls.foldl HttpSession.respond s) := by
  induction calls generalizing s with
  | nil => exact hs
  | cons call calls ih => exact ih (hs.respond call)

theorem quiet_responds (calls : List ResponseCall) :
    Quiet (calls.foldl respond s).log ↔ Quiet s.log := by
  induction calls generalizing s with
  | nil => rfl
  | cons call calls ih =>
    rw [List.foldl_cons, ih]
    exact quiet_respond call

/-! ## The callbacks -/

theorem Tracked.tryRead (hs : Tracked s) : Tracked s.tryRead := by
  refine ⟨?_, ?_⟩
  · simpa [HttpSession.tryRead] using hs.closed
  · simpa [HttpSession.tryRead] using hs.handled

theorem Tracked.handle (hs : Tracked s) (body : HttpRequest → HttpRequest) :
    Tracked (s.handle getHandle body) := by
  rw [HttpSession.handle]
  split
  · exact hs.close
  · apply Tracked.responds
    refine ⟨?_, ?_⟩
    · simpa using hs.closed
    · simp

/-- A complete request.  The log stays quiet when there is no handler, and when the
session is open and has not called one. -/
theorem quiet_handle (hs : Tracked s) (body : HttpRequest → HttpRequest) :
    Quiet (s.handle getHandle body).log ↔
      Quiet s.log ∧ (getHandle s.request = none ∨ (s.isClosed = false ∧ s.response = none)) := by
  rw [handle]
  split
  · rename_i hnone
    simp [quiet_close, hnone]
  · rename_i handler hsome
    have hopen : .close ∉ s.log ↔ s.isClosed = false := by
      rw [← hs.closed, Bool.not_eq_true]
    have hfirst : .handle ∉ s.log ↔ s.response = none := by
      rw [← hs.handled, Bool.not_eq_true, Option.isSome_eq_false_iff, Option.isNone_iff_eq_none]
    rw [quiet_responds, quiet_concat, hsome, hopen, hfirst]
    simp

theorem Tracked.onWrite (hs : Tracked s) (retCode : Int) : Tracked (s.onWrite retCode) := by
  rw [HttpSession.onWrite]
  split
  · exact hs.close
  · exact hs

theorem quiet_onWrite (s : HttpSession) (retCode : Int) : Quiet (s.onWrite retCode).log ↔ Quiet s.log := by
  rw [onWrite]
  split
  · exact quiet_close
  · rfl

theorem live_iff (retCode : Int) : Live retCode s ↔ (s.onWrite retCode).isClosed = false := by
  rw [Live, onWrite]
  split
  · rename_i hret
    simp [hret]
  · rename_i hret
    rw [not_not] at hret
    simp [hret]

theorem onWrite_toHttpInput (retCode : Int) : (s.onWrite retCode).toHttpInput = s.toHttpInput := by
  rw [onWrite]
  split
  · exact close_toHttpInput
  · rfl

theorem onWrite_response (s : HttpSession) (retCode : Int) :
    (s.onWrite retCode).response = none ↔ s.response = none := by
  rw [onWrite]
  split
  · rw [← Option.isNone_iff_eq_none, ← Option.isSome_eq_false_iff, close_isSome,
      Option.isSome_eq_false_iff, Option.isNone_iff_eq_none]
  · rfl

/-- The session with what `take_data` leaves of the input. -/
theorem Tracked.withInput (hs : Tracked s) (input : HttpInput) :
    Tracked { s with toHttpInput := input } :=
  ⟨hs.closed, hs.handled⟩

/-- What `on_read` does, by what it finds of the request.  It looks at its code as
`on_write` does, and goes on. -/
theorem onRead_cases {retCode : Int} {data : Bytes} (h : s.onRead getHandle retCode data = .ok s') :
    ∃ found input, s.toHttpInput.takeData data = .ok (found, input) ∧
      (found = .rejected ∧ s' = onClose { s.onWrite retCode with toHttpInput := input } ∨
       found = .incomplete ∧ s' = tryRead { s.onWrite retCode with toHttpInput := input } ∨
       ∃ body, found = .complete body ∧
        s' = handle getHandle body { s.onWrite retCode with toHttpInput := input }) := by
  obtain ⟨⟨found, input⟩, htake, hs'⟩ := Run.exists_of_bind_ok h
  replace htake : (s.onWrite retCode).takeData data = .ok (found, input) := htake
  rw [onWrite_toHttpInput] at htake
  refine ⟨found, input, htake, ?_⟩
  cases found with
  | rejected =>
    cases hs'
    exact .inl ⟨rfl, rfl⟩
  | incomplete =>
    cases hs'
    exact .inr (.inl ⟨rfl, rfl⟩)
  | complete body =>
    cases hs'
    exact .inr (.inr ⟨body, rfl, rfl⟩)

theorem tracked_onRead {retCode : Int} {data : Bytes} (hs : Tracked s)
    (h : s.onRead getHandle retCode data = .ok s') : Tracked s' := by
  obtain ⟨found, input, -, hcases⟩ := onRead_cases h
  have htaken := (hs.onWrite retCode).withInput input
  rcases hcases with ⟨-, rfl⟩ | ⟨-, rfl⟩ | ⟨body, -, rfl⟩
  · exact ⟨htaken.close.closed, htaken.close.handled⟩
  · exact htaken.tryRead
  · exact htaken.handle body

theorem quiet_onRead {retCode : Int} {data : Bytes} (hs : Tracked s)
    (h : s.onRead getHandle retCode data = .ok s') :
    Quiet s'.log ↔ Quiet s.log ∧ Allowed getHandle (.read retCode data) s := by
  obtain ⟨found, input, htake, hcases⟩ := onRead_cases h
  have htaken := (hs.onWrite retCode).withInput input
  simp only [Allowed, htake]
  rcases hcases with ⟨rfl, rfl⟩ | ⟨rfl, rfl⟩ | ⟨body, rfl, rfl⟩
  · rw [and_true, ← quiet_onWrite s retCode]
    exact quiet_close
  · rw [live_iff, quiet_read, ← htaken.closed, Bool.not_eq_true]
    exact and_congr_left fun _ => quiet_onWrite s retCode
  · rw [live_iff, quiet_handle htaken, ← onWrite_response s retCode]
    exact and_congr_left fun _ => quiet_onWrite s retCode

/-- A callback, on a session that has not been erased. -/
theorem step_cases {e : Event} (h : step getHandle e s = .ok s') :
    (∃ retCode data, e = .read retCode data ∧ s.onRead getHandle retCode data = .ok s') ∨
    (∃ retCode, e = .write retCode ∧ s' = s.onWrite retCode) ∨
    (e = .closeResponse ∧ s' = s.respond .close) := by
  unfold step at h
  split at h
  · cases h
  · cases e with
    | read retCode data => exact .inl ⟨retCode, data, rfl, h⟩
    | write retCode =>
      cases h
      exact .inr (.inl ⟨retCode, rfl, rfl⟩)
    | closeResponse =>
      cases h
      exact .inr (.inr ⟨rfl, rfl⟩)

theorem Tracked.step {e : Event} (hs : Tracked s) (h : step getHandle e s = .ok s') :
    Tracked s' := by
  rcases step_cases h with ⟨retCode, data, -, hread⟩ | ⟨retCode, -, rfl⟩ | ⟨-, rfl⟩
  · exact tracked_onRead hs hread
  · exact hs.onWrite retCode
  · exact hs.respond .close

/-- **Step.**  A callback keeps the log quiet exactly when it is allowed. -/
theorem quiet_step {e : Event} (hs : Tracked s) (h : step getHandle e s = .ok s') :
    Quiet s'.log ↔ Quiet s.log ∧ Allowed getHandle e s := by
  rcases step_cases h with ⟨retCode, data, rfl, hread⟩ | ⟨retCode, rfl, rfl⟩ | ⟨rfl, rfl⟩
  · exact quiet_onRead hs hread
  · exact (quiet_onWrite s retCode).trans (and_iff_left trivial).symm
  · exact (quiet_respond .close).trans (and_iff_left trivial).symm

theorem tracked_new : Tracked new := by
  refine ⟨?_, ?_⟩ <;> decide

/-- **Run.**  The log of a session is quiet exactly when each of its callbacks was
allowed. -/
theorem quiet_iff (getHandle : HttpRequest → Option HttpHandler) (events : List Event)
    (s : HttpSession) (hrun : Run.run (step getHandle) events new = .ok s) :
    Quiet s.log ↔ Run.Along (step getHandle) (Allowed getHandle) events new := by
  have hkept := Run.holds_iff_along (P := fun s => Quiet s.log)
    (fun _ _ _ (hs : Tracked _) h => hs.step h)
    (fun _ _ _ hs h => quiet_step hs h) tracked_new hrun
  rw [hkept]
  exact and_iff_right (by decide)

/-- A server with one handler, which answers every request. -/
def answers (_ : HttpRequest) : Option HttpHandler := some fun _ => [.write (ascii "ok")]

/-- `POST /a HTTP/1.1` with a body of two bytes. -/
def postRequest : Bytes :=
  ascii "POST /a HTTP/1.1" ++ crlf ++ ascii "Content-Length: 2" ++ crlf ++ crlf ++ ascii "hi"

/-- A request in two parts, and the end of the write of its answer. -/
theorem quiet_iff_post : ∃ s,
    Run.run (step answers)
      [.read 0 (postRequest.take 20), .read 0 (postRequest.drop 20), .write 0] new = .ok s ∧
      s.log = [.read, .read, .handle] ∧
      Run.Along (step answers) (Allowed answers)
        [.read 0 (postRequest.take 20), .read 0 (postRequest.drop 20), .write 0] new := by
  obtain ⟨s, hrun, hlog⟩ := Run.exists_of_map_toOption (f := log) (b := [.read, .read, .handle])
    (x := Run.run (step answers)
      [.read 0 (postRequest.take 20), .read 0 (postRequest.drop 20), .write 0] new)
    (by decide +kernel)
  have hquiet : Quiet s.log := by
    rw [hlog]
    decide
  exact ⟨s, hrun, hlog, (quiet_iff answers _ s hrun).mp hquiet⟩

/-- A read with an error closes the session, and the next read is issued.  A request
that is there twice is handled twice. -/
theorem not_quiet :
    (∃ s, Run.run (step answers) [.read (-1) []] new = .ok s ∧ s.log = [.read, .close, .read] ∧
      ¬Quiet s.log) ∧
    ∃ s, Run.run (step answers) [.read 0 postRequest, .read 0 postRequest] new = .ok s ∧
      s.log = [.read, .handle, .handle] ∧ ¬Quiet s.log := by
  obtain ⟨s, hrun, hlog⟩ := Run.exists_of_map_toOption (f := log) (b := [.read, .close, .read])
    (x := Run.run (step answers) [.read (-1) []] new) (by decide +kernel)
  obtain ⟨t, hrun', hlog'⟩ := Run.exists_of_map_toOption (f := log) (b := [.read, .handle, .handle])
    (x := Run.run (step answers) [.read 0 postRequest, .read 0 postRequest] new)
    (by decide +kernel)
  refine ⟨⟨s, hrun, hlog, ?_⟩, t, hrun', hlog', ?_⟩
  · rw [hlog]
    decide
  · rw [hlog']
    decide

end HttpSession

end MediaServer
