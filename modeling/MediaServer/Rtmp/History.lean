import Mathlib.Data.List.Induction
import MediaServer.Rtmp.ServerSteps

/-!
# Sessions and their histories

The history of a session is the list of the messages that it has handled, each
with the memory behind its payload.  What a session knows of its peer is a
function of its history: the chunk size (`chunkSizeOf`) and whether it
publishes or plays (`modeOf`).  `World.session_told` proves both for all
sessions in all runs.

`View.Step.session_cases` says what a step does to one session.
-/

namespace MediaServer

/-- The messages that a session has handled, with the memory behind each. -/
abbrev History := List (Bytes × Message)

/-- The messages that session `sid` has handled. -/
def history (sid : Nat) (log : List Obs) : History :=
  log.filterMap fun
    | .received sid' after m => if sid' = sid then some (after, m) else none
    | _ => none

theorem history_append (sid : Nat) (log log' : List Obs) :
    history sid (log ++ log') = history sid log ++ history sid log' :=
  List.filterMap_append

namespace History

/-- The chunk size of a session with this history. -/
def chunkSizeOf (h : History) : UInt32 :=
  h.foldl (fun size x => Session.chunkSizeAfter x.1 x.2 size) CHUNK_DEF_SIZE

/-- The size in the last SET_CHUNK_SIZE message. -/
def lastAnnounced (h : History) : UInt32 :=
  h.foldl (fun size x => (Session.announced x.2).getD size) CHUNK_DEF_SIZE

/-- A connect command was answered after the last SET_CHUNK_SIZE message. -/
def connectedSince (h : History) : Bool :=
  h.foldl (fun b x => !(Session.announced x.2).isSome && (b || Session.answersConnect x.1 x.2))
    false

/-- The mode of the last accepted command, `true` for publish. -/
def modeOf (h : History) : Option Bool :=
  h.foldl (fun mode x => ((Session.accepted x.1 x.2).map Prod.fst).or mode) none

/-- The size of a session is the last announced one unless a connect command
has been answered since. -/
theorem chunkSizeOf_eq (h : History) : h.chunkSizeOf =
    if h.connectedSince then Session.CONFIG_CHUNK_SIZE else h.lastAnnounced := by
  induction h using List.reverseRecOn with
  | nil => rfl
  | append_singleton h x ih =>
    simp only [chunkSizeOf, connectedSince, lastAnnounced, List.foldl_append, List.foldl_cons,
      List.foldl_nil] at ih ⊢
    rw [ih, Session.chunkSizeAfter]
    rcases Session.announced x.2 with _ | size
    · rcases Session.answersConnect x.1 x.2 with _ | _
      · simp
      · simp
    · simp

end History

/-- The mode in a request. -/
def RtmpRequest.mode (r : RtmpRequest) : Option Bool := if r.isReady then some r.publishFlag else none

theorem RtmpRequest.mode_congr {r r' : RtmpRequest} (h : Session.SameMode r r') :
    r'.mode = r.mode := by
  rw [mode, mode, h.isReady, h.publishFlag]

namespace View

/-- The part of a step's message that is for session `sid`. -/
def share (sid : Nat) : Option Incoming → History
  | some (sid', after, m) => if sid' = sid then [(after, m)] else []
  | none => []

theorem history_received (sid sid' : Nat) (after : Bytes) (m : Message) (rest : List Obs) :
    history sid (.received sid' after m :: rest) =
      share sid (some (sid', after, m)) ++ history sid rest := by
  unfold history share
  by_cases hsid : sid' = sid
  · simp [hsid]
  · simp [hsid]

theorem Step.history_eq {incoming : Option Incoming} {a a' : View} (h : Step incoming a a')
    (sid : Nat) : history sid a'.log = history sid a.log ++ share sid incoming := by
  cases h with
  | stay => simp [share]
  | accept sessionKey fresh => simp [put, share]
  | parse opened streams => simp [put, share]
  | handle opened handled writer quiet =>
    simp only [note, put, history_append, history_received]
    simp [history]
  | play opened handled inPlay quiet =>
    simp only [note, put, history_append, history_received]
    simp [history]
  | publish opened handled writer req key route carries =>
    simp only [note, put, history_append, history_received]
    simp [history]
  | @close _ _ _ incoming opened cause =>
    rcases incoming with _ | ⟨sid', after, m⟩
    · simp [note, history, share]
    · simp only [note, Option.toList_some, List.map_cons, List.map_nil, Incoming.record,
        List.cons_append, List.nil_append, history_append, history_received]
      simp [history]

/-- What a step does to one session that is open after it. -/
theorem Step.session_cases {incoming : Option Incoming} {a a' : View} (h : Step incoming a a')
    {sid : Nat} {v' : Profile} (hv' : a'.profile sid = some v') :
    (share sid incoming = [] ∧ ∃ v csMap, a.profile sid = some v ∧
      v' = { v with csMap := csMap } ∧ StreamsFrom v.csMap v.chunkSize csMap) ∨
    (∃ v after m, a.profile sid = some v ∧ incoming = some (sid, after, m) ∧
      v.Handled after m v' ∧ (v.playWriter ≠ none → v'.playWriter ≠ none)) ∨
    (sid = a.nextSession ∧ incoming = none ∧ v' = { sessionKey := v'.sessionKey }) := by
  have hsame : a.profile sid = some v' → share sid incoming = [] →
      share sid incoming = [] ∧ ∃ v csMap, a.profile sid = some v ∧
        v' = { v with csMap := csMap } ∧ StreamsFrom v.csMap v.chunkSize csMap :=
    fun hv hshare => ⟨hshare, v', v'.csMap, hv, rfl, streamsFrom_refl _ _⟩
  -- the session of the step, and the others
  have hother : ∀ {sid' : Nat} {u : Option Profile}, sid ≠ sid' →
      Function.update a.profile sid' u sid = some v' → a.profile sid = some v' := by
    intro sid' u hsid hu
    rw [Function.update_of_ne hsid] at hu
    exact hu
  cases h with
  | stay => exact Or.inl (hsame hv' rfl)
  | accept sessionKey fresh =>
    by_cases hsid : sid = a.nextSession
    · subst hsid
      simp only [put_profile_self, Option.some.injEq] at hv'
      exact Or.inr (Or.inr ⟨rfl, rfl, by rw [← hv']⟩)
    · exact Or.inl (hsame (hother hsid hv') rfl)
  | @parse _ sid' v csMap opened streams =>
    by_cases hsid : sid = sid'
    · subst hsid
      simp only [put_profile_self, Option.some.injEq] at hv'
      subst hv'
      exact Or.inl ⟨rfl, v, csMap, opened, rfl, streams⟩
    · exact Or.inl (hsame (hother hsid hv') rfl)
  | @handle _ sid' after m v v₁ opened handled writer quiet =>
    by_cases hsid : sid = sid'
    · subst hsid
      simp only [note, put_profile_self, Option.some.injEq] at hv'
      subst hv'
      exact Or.inr (Or.inl ⟨v, after, m, opened, rfl, handled, by simp [writer]⟩)
    · exact Or.inl (hsame (hother hsid hv') (by simp [share, Ne.symm hsid]))
  | @play _ sid' after m v v₁ opened handled inPlay quiet =>
    by_cases hsid : sid = sid'
    · subst hsid
      simp only [note, put_profile_self, Option.some.injEq] at hv'
      subst hv'
      exact Or.inr (Or.inl ⟨v, after, m, opened, rfl, { handled with }, by simp⟩)
    · exact Or.inl (hsame (hother hsid hv') (by simp [share, Ne.symm hsid]))
  | @publish _ sid' after m v v₁ pkt opened handled writer req key route carries =>
    by_cases hsid : sid = sid'
    · subst hsid
      simp only [note, put_profile_self, Option.some.injEq] at hv'
      subst hv'
      exact Or.inr (Or.inl ⟨v, after, m, opened, rfl, handled, by simp [writer]⟩)
    · exact Or.inl (hsame (hother hsid hv') (by simp [share, Ne.symm hsid]))
  | @close _ sid' v incoming opened cause =>
    by_cases hsid : sid = sid'
    · subst hsid
      simp at hv'
    · refine Or.inl (hsame (hother hsid hv') ?_)
      rcases incoming with _ | ⟨sid₁, after, m⟩
      · rfl
      · have heq : sid₁ = sid' := (cause _ rfl).sid_eq
        simp [share, heq, Ne.symm hsid]

/-- The session of a message that is not refused stays open. -/
theorem Step.handled {a a' : View} {sid : Nat} {after : Bytes} {m : Message}
    (h : Step (some (sid, after, m)) a a') :
    Incoming.Refused sid (sid, after, m) ∨
      ∃ v v', a.profile sid = some v ∧ a'.profile sid = some v' ∧ v.Handled after m v' := by
  cases h with
  | @handle _ _ _ _ v v₁ opened handled writer quiet =>
    exact Or.inr ⟨v, v₁, opened, by simp [note], handled⟩
  | @play _ _ _ _ v v₁ opened handled inPlay quiet =>
    exact Or.inr ⟨v, { v₁ with playWriter := some a.nextWriter }, opened, by simp [note],
      { handled with }⟩
  | @publish _ _ _ _ v v₁ _ opened handled writer req key route carries =>
    exact Or.inr ⟨v, v₁, opened, by simp [note], handled⟩
  | @close _ sid' _ _ opened cause =>
    have hrefused := cause _ rfl
    have heq : sid = sid' := hrefused.sid_eq
    exact Or.inl (heq ▸ hrefused)

/-- What a step does that closes a session. -/
theorem Step.closing {incoming : Option Incoming} {a a' : View} (h : Step incoming a a')
    {sid : Nat} {v : Profile} (hv : a.profile sid = some v) (hgone : a'.profile sid = none) :
    ∃ obs, a' = { a.note (obs ++ [.closed sid]) with
      profile := Function.update a.profile sid none
      streams := v.leave a.streams } ∧ ∀ o ∈ obs, ∃ i : Incoming, o = i.record := by
  -- every other step leaves the session open
  have hopen : ∀ {sid' : Nat} {u u' : Profile}, a.profile sid' = some u →
      Function.update a.profile sid' (some u') sid ≠ none := by
    intro sid' u u' hu
    by_cases hsid : sid = sid'
    · simp [hsid]
    · simp [hsid, hv]
  cases h with
  | stay =>
    rw [hv] at hgone
    cases hgone
  | accept sessionKey fresh =>
    by_cases hsid : sid = a.nextSession
    · simp [put, hsid] at hgone
    · simp [put, hsid, hv] at hgone
  | parse opened streams => exact absurd hgone (hopen opened)
  | handle opened handled writer quiet => exact absurd hgone (hopen opened)
  | play opened handled inPlay quiet => exact absurd hgone (hopen opened)
  | publish opened handled writer req key route carries => exact absurd hgone (hopen opened)
  | @close _ sid' v' incoming opened cause =>
    by_cases hsid : sid = sid'
    · subst hsid
      rw [hv, Option.some.injEq] at opened
      subst opened
      refine ⟨_, rfl, ?_⟩
      intro o ho
      obtain ⟨i, -, rfl⟩ := List.mem_map.mp ho
      exact ⟨i, rfl⟩
    · simp [hsid, hv] at hgone

/-- What a step does to the streams. -/
theorem Step.streams_cases {incoming : Option Incoming} {a a' : View} (h : Step incoming a a') :
    (a'.streams = a.streams ∧ a'.owner = a.owner) ∨
    (∃ sid v' req, a'.profile sid = some v' ∧ v'.req = req ∧ v'.playWriter = some a.nextWriter ∧
      .played sid req ∈ a'.log ∧ a'.owner = Function.update a.owner a.nextWriter (some sid) ∧
      a'.streams = Function.update a.streams req.key
        (some (((a.streams req.key).getD {}).insertWriter v'.sessionKey a.nextWriter))) ∨
    (∃ sid v pkt, a.profile sid = some v ∧ .published sid v.req pkt ∈ a'.log ∧
      a'.owner = a.owner ∧ a'.streams = Function.update a.streams pkt.key
        (some (MediaStreamManager.fedStream pkt a.streams))) ∨
    (∃ sid v, a.profile sid = some v ∧ a'.profile sid = none ∧ a'.owner = a.owner ∧
      a'.streams = v.leave a.streams) := by
  cases h with
  | stay => exact Or.inl ⟨rfl, rfl⟩
  | accept sessionKey fresh => exact Or.inl ⟨rfl, rfl⟩
  | parse opened streams => exact Or.inl ⟨rfl, rfl⟩
  | handle opened handled writer quiet => exact Or.inl ⟨rfl, rfl⟩
  | @play _ sid after m v v' opened handled inPlay quiet =>
    exact Or.inr (Or.inl ⟨sid, { v' with playWriter := some a.nextWriter }, v'.req,
      by simp [note], rfl, rfl, by simp [note], rfl, rfl⟩)
  | @publish _ sid after m v v' pkt opened handled writer req key route carries =>
    exact Or.inr (Or.inr (Or.inl ⟨sid, v, pkt, opened, by simp [note], rfl, rfl⟩))
  | @close _ sid v incoming opened cause =>
    exact Or.inr (Or.inr (Or.inr ⟨sid, v, opened, by simp, rfl, rfl⟩))

/-- A session that is in the record is not new. -/
theorem Step.open_before {incoming : Option Incoming} {a a' : View} (hsound : Sound a)
    (h : Step incoming a a') {sid : Nat} {v' : Profile} (hv' : a'.profile sid = some v')
    {obs : Obs} (hobs : obs ∈ a.log) (hsid : obs.sid = sid) : ∃ v, a.profile sid = some v := by
  rcases h.session_cases hv' with ⟨-, v, -, hv, -⟩ | ⟨v, -, -, hv, -⟩ | ⟨hnew, -⟩
  · exact ⟨v, hv⟩
  · exact ⟨v, hv⟩
  · have hlt := hsound.logged obs hobs
    omega

/-- The sessions are as their histories say. -/
def Told (a : View) : Prop :=
  ∀ sid v, a.profile sid = some v →
    v.chunkSize = (history sid a.log).chunkSizeOf ∧ v.req.mode = (history sid a.log).modeOf

/-- A new session has no history. -/
theorem Sound.history_nextSession {a : View} (h : Sound a) : history a.nextSession a.log = [] := by
  rw [history, List.filterMap_eq_nil_iff]
  intro obs hobs
  have hlt := h.logged obs hobs
  rcases obs with ⟨sid, after, m⟩ | _ | _ | _
  · replace hlt : sid < a.nextSession := hlt
    simp [Nat.ne_of_lt hlt]
  · rfl
  · rfl
  · rfl

theorem mode_of_handled {after : Bytes} {m : Message} {v v' : Profile}
    (h : v.Handled after m v') :
    v'.req.mode = ((Session.accepted after m).map Prod.fst).or v.req.mode := by
  rcases hacc : Session.accepted after m with _ | ⟨publish, items⟩
  · exact RtmpRequest.mode_congr (h.other hacc)
  · rw [h.accepted publish items hacc]
    rfl

theorem Told.step {incoming : Option Incoming} {a a' : View} (hsound : Sound a) (h : Told a)
    (hstep : Step incoming a a') : Told a' := by
  intro sid v' hv'
  rw [hstep.history_eq sid]
  rcases hstep.session_cases hv' with ⟨hshare, v, csMap, hv, rfl, -⟩ |
    ⟨v, after, m, hv, rfl, hhandled, -⟩ | ⟨hsid, rfl, hfresh⟩
  · rw [hshare, List.append_nil]
    exact h sid v hv
  · obtain ⟨hsize, hmode⟩ := h sid v hv
    have hshare : share sid (some (sid, after, m)) = [(after, m)] := by simp [share]
    rw [hshare, History.chunkSizeOf, History.modeOf, List.foldl_append, List.foldl_append]
    simp only [List.foldl_cons, List.foldl_nil]
    rw [hhandled.chunkSize, mode_of_handled hhandled, hsize, hmode]
    exact ⟨rfl, rfl⟩
  · rw [hsid, hsound.history_nextSession, hfresh]
    exact ⟨rfl, rfl⟩

theorem Step.log_grows {incoming : Option Incoming} {a a' : View} (h : Step incoming a a') :
    a.log <+: a'.log := by
  cases h with
  | stay => exact List.prefix_refl _
  | accept sessionKey fresh => exact List.prefix_refl _
  | parse opened streams => exact List.prefix_refl _
  | handle opened handled writer quiet => exact List.prefix_append _ _
  | play opened handled inPlay quiet => exact List.prefix_append _ _
  | publish opened handled writer req key route carries => exact List.prefix_append _ _
  | close opened cause => exact List.prefix_append _ _

end View

namespace World

/-- In every run the sessions are as their histories say. -/
theorem run_told {events : List Event} {w : World} (hrun : Run.run step events {} = .ok w) :
    w.view.Sound ∧ w.view.Told := by
  refine run_always ?_ (fun hsound htold hstep => htold.step hsound hstep) hrun
  intro sid v hv
  cases hv

/-- The record of a run begins with the record of each of its parts. -/
theorem run_log_grows {events : List Event} {w w' : World} (hsound : w.view.Sound)
    (hrun : Run.run step events w = .ok w') : w.log <+: w'.log := by
  induction events generalizing w with
  | nil =>
    cases hrun
    exact List.prefix_refl _
  | cons e events ih =>
    obtain ⟨w₁, hstep, hrest⟩ := Run.exists_of_run_cons hrun
    have hview := step_view hsound hstep
    exact hview.log_grows.trans (ih (hsound.step hview) hrest)

/-- The last step of a run. -/
theorem exists_of_run_concat {events : List Event} {e : Event} {w w' : World}
    (h : Run.run step (events ++ [e]) w = .ok w') :
    ∃ w₁, Run.run step events w = .ok w₁ ∧ w₁.step e = .ok w' := by
  obtain ⟨w₁, hfirst, hlast⟩ := Run.exists_of_run_append h
  obtain ⟨w₂, hstep, hend⟩ := Run.exists_of_run_cons hlast
  cases hend
  exact ⟨w₁, hfirst, hstep⟩

/-- The history of a session after a part of a run. -/
theorem run_history_grows {pre events : List Event} {w w' : World} (hpre : pre <+: events)
    (hrun' : Run.run step pre {} = .ok w') (hrun : Run.run step events {} = .ok w) (sid : Nat) :
    history sid w'.log <+: history sid w.log := by
  obtain ⟨rest, rfl⟩ := hpre
  rw [Run.run_append hrun'] at hrun
  obtain ⟨log, hlog⟩ := run_log_grows (run_told hrun').1 hrun
  rw [← hlog, history_append]
  exact List.prefix_append _ _

/-- Induction over the history of a session in a run whose states have `Q`. -/
theorem run_history_induction {P : Bytes × Message → Prop} (Q : World → Prop) {sid : Nat}
    (hkeep : ∀ pre w₁ w₂ after m, Q w₁ → Run.run step pre {} = .ok w₁ →
      (∀ x ∈ history sid w₁.log, P x) → Q w₂ →
      View.Step (some (sid, after, m)) w₁.view w₂.view → P (after, m))
    {events : List Event} {w : World} (hrun : Run.run step events {} = .ok w)
    (hQ : ∀ pre w', pre <+: events → Run.run step pre {} = .ok w' → Q w') :
    ∀ x ∈ history sid w.log, P x := by
  induction events using List.reverseRecOn generalizing w with
  | nil =>
    cases hrun
    intro x hx
    cases hx
  | append_singleton events e ih =>
    obtain ⟨w₁, hfirst, hstep⟩ := exists_of_run_concat hrun
    have hview := step_view (run_told hfirst).1 hstep
    have hpre : events <+: events ++ [e] := List.prefix_append _ _
    have hbefore := ih hfirst (fun pre w' hp hrun' => hQ pre w' (hp.trans hpre) hrun')
    have hlog := hview.history_eq sid
    simp only [view_log] at hlog
    rw [hlog]
    intro x hx
    rcases List.mem_append.mp hx with hx | hx
    · exact hbefore x hx
    · rcases hi : w₁.incoming e with _ | ⟨sid', after, m⟩
      · rw [hi] at hx
        cases hx
      · rw [hi] at hx hview
        by_cases hsid : sid' = sid
        · subst hsid
          simp only [View.share, if_true, List.mem_singleton] at hx
          rw [hx]
          exact hkeep events w₁ w after m (hQ events w₁ hpre hfirst) hfirst hbefore
            (hQ _ w (List.prefix_refl _) hrun) hview
        · simp [View.share, hsid] at hx

/-- A condition on closing steps holds along a run that closes no session. -/
theorem along_of_no_close {cond : Event → World → Prop}
    (hcond : ∀ e w, (∀ w' sid s, w.step e = .ok w' → w.session sid = some s →
      w'.session sid ≠ none) → cond e w)
    {events : List Event} {w w' : World} (hsound : w.view.Sound)
    (hrun : Run.run step events w = .ok w') (hlog : ∀ sid, .closed sid ∉ w'.log) :
    Run.Along step cond events w := by
  induction events generalizing w with
  | nil => trivial
  | cons e events ih =>
    obtain ⟨w₁, hstep, hrest⟩ := Run.exists_of_run_cons hrun
    have hview := step_view hsound hstep
    have hsound₁ := hsound.step hview
    refine ⟨hcond e w ?_, ?_⟩
    · intro w₂ sid s hw₂ hs hgone
      rw [hstep, Except.ok.injEq] at hw₂
      subst hw₂
      have hv : w.view.profile sid = some s.profile := Heap.profile_eq_some hs
      obtain ⟨obs, heq, -⟩ := hview.closing hv (Option.map_eq_none_iff.mpr hgone)
      have hclosed : .closed sid ∈ w₁.view.log := by
        rw [heq]
        simp [View.note]
      exact hlog sid ((run_log_grows hsound₁ hrest).subset hclosed)
    · intro w₂ hw₂
      rw [hstep, Except.ok.injEq] at hw₂
      subst hw₂
      exact ih hsound₁ hrest

end World

/-! ## Clients

What a client sends, for runs on fixed inputs.
-/

namespace Client

/-- A message in one chunk with a header of format 0. -/
def message (csid typeId : UInt8) (payload : Bytes) : Bytes :=
  [csid, 0, 0, 0] ++ write3bytes (UInt32.ofNat payload.length) ++ [typeId, 0, 0, 0, 0] ++ payload

/-- A command with the transaction id 1 and further values. -/
def command (csid : UInt8) (name : String) (values : Bytes) : Bytes :=
  message csid 20 (AmfEncoder.encodeNumber Session.DOUBLE_ONE
    (AmfEncoder.encodeString (ascii name) false []) ++ values)

/-- A string as a value of a command. -/
def string (s : String) : Bytes := AmfEncoder.encodeString (ascii s) false []

/-- The object of a connect command. -/
def app (name : String) : Bytes := (AmfEncoder.encodeObject [(ascii "app", .string (ascii name))] []).2

/-- A publish command. -/
def publish (name : String) : Bytes := command 3 "publish" (0x05 :: string name)

/-- A play command. -/
def play (name : String) : Bytes := command 3 "play" (0x05 :: string name)

/-- A video sequence header. -/
def video : Bytes := message 6 9 [0x17, 0, 0, 0, 0]

/-- A client connects and completes the handshake. -/
def arrive (sid : Nat) (sessionKey : Bytes) : List Event :=
  [.accept sessionKey, .read sid (List.replicate 1537 0) (some []),
    .read sid (List.replicate 1536 0) none]

/-- The server receives `data` from a client, `passes` messages. -/
def send (sid passes : Nat) (data : Bytes) : List Event :=
  .read sid data none :: List.replicate passes (.pass [])

end Client

end MediaServer
