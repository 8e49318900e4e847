import Mathlib.Data.List.Induction
import MediaServer.Rtmp.ClientReading

/-!
# The order of the client's commands

The client may send `createStream` when `connect` has been answered, and
`publish` or `play` when `createStream` has been answered.  An answer is a
command with the name `_result`.

`Dialogue` is what this is about: the phase of the session, and the record of
what was sent and received.  `Dialogue.Ordered` says that every command was
sent after the answer that it needs, and that the session is in no phase whose
answer is missing.  The session changes its dialogue by the moves `receive`,
`force`, `create` and `request`.  `force` is the assignment that
`handle_message` makes when the loop for the answer to `createStream` returns
zero, whatever the last message was.

`strays` is the condition on a step under which the order is lost.
-/

namespace MediaServer

/-! ## Answers -/

/-- The message is a `_result` command. -/
def isResult (after : Bytes) (m : Message) : Bool :=
  (Session.command after m).map Prod.fst = some (ascii "_result")

namespace ClientObs

/-- A `_result` command was received. -/
def answer : ClientObs → Bool
  | .received after m => isResult after m
  | _ => false

/-- The command that was sent. -/
def command : ClientObs → Option ClientCommand
  | .sent c => some c
  | _ => none

end ClientObs

/-- A `_result` was received after the command was sent. -/
def Answered (c : ClientCommand) (log : List ClientObs) : Prop :=
  ∃ pre post, log = pre ++ .sent c :: post ∧ ∃ o ∈ post, o.answer = true

/-- The command whose answer is needed before a command is sent. -/
def ClientCommand.needs : ClientCommand → Option ClientCommand
  | .connect => none
  | .createStream => some .connect
  | .play => some .createStream
  | .publish => some .createStream

/-- Every command was sent after the answer that it needs. -/
def InOrder (log : List ClientObs) : Prop :=
  ∀ pre c post, log = pre ++ .sent c :: post → ∀ c', c.needs = some c' → Answered c' pre

/-- Where a list with a last element can be cut. -/
theorem cut_of_concat {α : Type} {l pre post : List α} {a b : α} (h : l ++ [a] = pre ++ b :: post) :
    (l = pre ∧ a = b ∧ post = []) ∨ ∃ post', post = post' ++ [a] ∧ l = pre ++ b :: post' := by
  induction post using List.reverseRecOn with
  | nil =>
    obtain ⟨hl, ha⟩ := List.append_inj' h rfl
    exact Or.inl ⟨hl, List.singleton_inj.mp ha, rfl⟩
  | append_singleton post' last _ =>
    rw [← List.cons_append, ← List.append_assoc] at h
    obtain ⟨hl, ha⟩ := List.append_inj' h rfl
    rw [List.singleton_inj.mp ha]
    exact Or.inr ⟨post', rfl, hl⟩

theorem mem_of_any_command {c : ClientCommand} {log : List ClientObs}
    (h : (log.any fun o => o.command = some c) = true) : .sent c ∈ log := by
  obtain ⟨o, ho, hcommand⟩ := List.any_eq_true.mp h
  cases o with
  | sent c' =>
    have hc : c' = c := by simpa [ClientObs.command] using hcommand
    exact hc ▸ ho
  | received => simp [ClientObs.command] at hcommand
  | delivered => simp [ClientObs.command] at hcommand

theorem inOrder_nil : InOrder [] := by
  intro pre c post heq
  simp at heq

theorem mem_of_answered {c : ClientCommand} {log : List ClientObs} (h : Answered c log) :
    .sent c ∈ log := by
  obtain ⟨pre, post, rfl, -⟩ := h
  simp

theorem answered_concat (c : ClientCommand) (log : List ClientObs) (o : ClientObs) :
    Answered c (log ++ [o]) ↔ Answered c log ∨ (o.answer = true ∧ .sent c ∈ log) := by
  constructor
  · rintro ⟨pre, post, heq, o', ho', hanswer⟩
    rcases cut_of_concat heq with ⟨-, -, rfl⟩ | ⟨post', rfl, hlog⟩
    · cases ho'
    · rcases List.mem_append.mp ho' with hmem | hmem
      · exact Or.inl ⟨pre, post', hlog, o', hmem, hanswer⟩
      · rw [List.mem_singleton.mp hmem] at hanswer
        exact Or.inr ⟨hanswer, by simp [hlog]⟩
  · rintro (⟨pre, post, rfl, o', ho', hanswer⟩ | ⟨hanswer, hmem⟩)
    · exact ⟨pre, post ++ [o], by simp, o', by simp [ho'], hanswer⟩
    · obtain ⟨pre, post, rfl⟩ := List.append_of_mem hmem
      exact ⟨pre, post ++ [o], by simp, o, by simp, hanswer⟩

/-- What is sent answers nothing. -/
theorem answered_concat_sent (c c' : ClientCommand) (log : List ClientObs) :
    Answered c (log ++ [.sent c']) ↔ Answered c log := by
  simp [answered_concat, ClientObs.answer]

theorem answered_cons (c : ClientCommand) (o : ClientObs) (log : List ClientObs) :
    Answered c (o :: log) ↔
      (o.command = some c ∧ ∃ a ∈ log, a.answer = true) ∨ Answered c log := by
  constructor
  · rintro ⟨pre, post, heq, hanswer⟩
    rcases pre with _ | ⟨o', pre⟩
    · obtain ⟨rfl, rfl⟩ := List.cons.inj heq
      exact Or.inl ⟨rfl, hanswer⟩
    · obtain ⟨rfl, rfl⟩ := List.cons.inj heq
      exact Or.inr ⟨pre, post, rfl, hanswer⟩
  · rintro (⟨hcommand, hanswer⟩ | ⟨pre, post, rfl, hanswer⟩)
    · cases o with
      | sent c' =>
        cases hcommand
        exact ⟨[], log, rfl, hanswer⟩
      | received => cases hcommand
      | delivered => cases hcommand
    · exact ⟨o :: pre, post, rfl, hanswer⟩

instance decidableAnswered (c : ClientCommand) : ∀ log, Decidable (Answered c log)
  | [] => isFalse fun h => by cases mem_of_answered h
  | o :: log =>
    have : Decidable (Answered c log) := decidableAnswered c log
    decidable_of_iff _ (answered_cons c o log).symm

theorem inOrder_concat (log : List ClientObs) (o : ClientObs) :
    InOrder (log ++ [o]) ↔ InOrder log ∧
      ∀ c c', o.command = some c → c.needs = some c' → Answered c' log := by
  constructor
  · intro h
    constructor
    · rintro pre c post rfl c' hneeds
      exact h pre c (post ++ [o]) (by simp) c' hneeds
    · intro c c' hc hneeds
      cases o with
      | sent c₁ =>
        cases hc
        exact h log c [] rfl c' hneeds
      | received => cases hc
      | delivered => cases hc
  · rintro ⟨hlog, hlast⟩ pre c post heq c' hneeds
    rcases cut_of_concat heq with ⟨rfl, ho, -⟩ | ⟨post', -, rfl⟩
    · exact hlast c c' (by rw [ho]; rfl) hneeds
    · exact hlog pre c post' rfl c' hneeds

theorem inOrder_concat_sent {c c' : ClientCommand} (hneeds : c.needs = some c')
    (log : List ClientObs) : InOrder (log ++ [.sent c]) ↔ InOrder log ∧ Answered c' log := by
  rw [inOrder_concat]
  constructor
  · rintro ⟨hlog, hlast⟩
    exact ⟨hlog, hlast c c' rfl hneeds⟩
  · rintro ⟨hlog, hlast⟩
    refine ⟨hlog, ?_⟩
    intro c₁ c₁' hc₁ hneeds₁
    cases hc₁
    rw [hneeds, Option.some.injEq] at hneeds₁
    exact hneeds₁ ▸ hlast

/-- Packets that are delivered change nothing. -/
theorem answered_append_delivered (c : ClientCommand) (log : List ClientObs)
    (pkts : List MediaPacket) :
    Answered c (log ++ pkts.map .delivered) ↔ Answered c log := by
  induction pkts using List.reverseRecOn with
  | nil => simp
  | append_singleton pkts pkt ih =>
    rw [List.map_append, ← List.append_assoc, List.map_singleton, answered_concat, ih]
    simp [ClientObs.answer]

theorem inOrder_append_delivered (log : List ClientObs) (pkts : List MediaPacket) :
    InOrder (log ++ pkts.map .delivered) ↔ InOrder log := by
  induction pkts using List.reverseRecOn with
  | nil => simp
  | append_singleton pkts pkt ih =>
    rw [List.map_append, ← List.append_assoc, List.map_singleton, inOrder_concat, ih]
    simp [ClientObs.command]

/-- A message with the packets that were delivered from it. -/
theorem answered_append_received (c : ClientCommand) (log : List ClientObs) (after : Bytes)
    (m : Message) (pkts : List MediaPacket) :
    Answered c (log ++ [.received after m] ++ pkts.map .delivered) ↔
      Answered c log ∨ (isResult after m = true ∧ .sent c ∈ log) := by
  rw [answered_append_delivered, answered_concat]
  rfl

theorem inOrder_append_received (log : List ClientObs) (after : Bytes) (m : Message)
    (pkts : List MediaPacket) :
    InOrder (log ++ [.received after m] ++ pkts.map .delivered) ↔ InOrder log := by
  rw [inOrder_append_delivered, inOrder_concat]
  simp [ClientObs.command]

theorem mem_append_received (c : ClientCommand) (log : List ClientObs) (after : Bytes)
    (m : Message) (pkts : List MediaPacket) :
    .sent c ∈ log ++ [.received after m] ++ pkts.map .delivered ↔ .sent c ∈ log := by
  simp

/-! ## Dialogues -/

/-- The command whose answer is needed in a phase. -/
def ClientPhase.needs : ClientPhase → Option ClientCommand
  | .createStream => some .connect
  | .createStreamResp => some .connect
  | .createPlay => some .createStream
  | .createPublish => some .createStream
  | .mediaHandle => some .createStream
  | _ => none

/-- The dialogue with a server: a phase, and what was recorded. -/
structure Dialogue where
  phase : ClientPhase
  log : List ClientObs

namespace Dialogue

open ClientSession

/-- Every command was sent after the answer that it needs, and the answer that
the phase needs has been received. -/
def Ordered (d : Dialogue) : Prop :=
  InOrder d.log ∧ ∀ c, d.phase.needs = some c → Answered c d.log

theorem ordered_iff {d : Dialogue} {c : ClientCommand} (h : d.phase.needs = some c) :
    d.Ordered ↔ InOrder d.log ∧ Answered c d.log := by
  simp [Ordered, h]

/-- `createStream` has not been sent in these phases. -/
def beforeCreate (phase : ClientPhase) : Bool :=
  phase = .c0c1 || phase = .connectResp || phase = .createStream

/-- The dialogues of a connection that is open. -/
structure Open (d : Dialogue) : Prop where
  fresh : d.phase = .c0c1 → d.log = []
  connect : d.phase = .connectResp → .sent .connect ∈ d.log ∧ ¬ Answered .connect d.log
  create : d.phase = .createStreamResp →
    .sent .createStream ∈ d.log ∧ ¬ Answered .createStream d.log
  unsent : beforeCreate d.phase = true → .sent .createStream ∉ d.log

/-- The phases without an answer to come make no demand on the record. -/
theorem open_of_requested {d : Dialogue}
    (h : awaitsStatus d.phase = true ∨ d.phase = .mediaHandle) : d.Open := by
  have hphase : d.phase = .createPublish ∨ d.phase = .createPlay ∨ d.phase = .mediaHandle := by
    simpa [awaitsStatus, or_assoc] using h
  rcases hphase with hs | hs | hs
  · exact ⟨by simp [hs], by simp [hs], by simp [hs], by simp [hs, beforeCreate]⟩
  · exact ⟨by simp [hs], by simp [hs], by simp [hs], by simp [hs, beforeCreate]⟩
  · exact ⟨by simp [hs], by simp [hs], by simp [hs], by simp [hs, beforeCreate]⟩

theorem needs_of_awaitsStatus {phase : ClientPhase} (h : awaitsStatus phase = true) :
    phase.needs = some .createStream := by
  have hphase : phase = .createPublish ∨ phase = .createPlay := by simpa [awaitsStatus] using h
  rcases hphase with rfl | rfl
  · rfl
  · rfl

/-- A message that is handled. -/
def receive (after : Bytes) (m : Message) (request : ClientPhase) (pkts : List MediaPacket)
    (d : Dialogue) : Dialogue :=
  { phase := phaseAfter after m request d.phase
    log := d.log ++ [.received after m] ++ pkts.map .delivered }

/-- The phase that is set when the answer to `createStream` is taken for
granted. -/
def force (request : ClientPhase) (d : Dialogue) : Dialogue := { d with phase := request }

/-- `createStream` is sent. -/
def create (d : Dialogue) : Dialogue :=
  { phase := .createStreamResp, log := d.log ++ [.sent .createStream] }

/-- `play` or `publish` is sent. -/
def request (command : ClientCommand) (d : Dialogue) : Dialogue :=
  { phase := .mediaHandle, log := d.log ++ [.sent command] }

/-- The message brings a `_result` before `createStream` was sent, or as another
value than its name. -/
def misleads (after : Bytes) (m : Message) (phase : ClientPhase) : Bool :=
  bringsResult after m &&
    (phase = .createStream ||
      ((phase = .connectResp || phase = .createStreamResp) && !isResult after m))

/-- The name of a command is one of its values. -/
theorem bringsResult_of_isResult {after : Bytes} {m : Message} (h : isResult after m = true) :
    bringsResult after m = true := by
  simp only [isResult, decide_eq_true_eq] at h
  obtain ⟨⟨name, items⟩, hcommand, hname⟩ := Option.map_eq_some_iff.mp h
  have htype := Session.command_typeId hcommand
  unfold Session.command at hcommand
  rw [if_pos htype] at hcommand
  split at hcommand
  · rename_i name' rest hdecode
    simp only [Option.some.injEq, Prod.mk.injEq] at hcommand
    have hname' : name' = ascii "_result" := hcommand.1.trans hname
    simp [bringsResult, htype, decoded, hdecode, saysResult, hname']
  · cases hcommand

theorem phaseAfter_of_not_bringsResult {after : Bytes} {m : Message}
    (h : bringsResult after m = false) (request phase : ClientPhase) :
    phaseAfter after m request phase = phase := by
  simp [phaseAfter, h]

/-- What a message does to the phase of an open connection. -/
theorem receive_phase_cases {after : Bytes} {m : Message} {p : RespPhase} {d : Dialogue}
    (hfollows : follows p d.phase = true) (request : ClientPhase) (pkts : List MediaPacket) :
    ((d.receive after m request pkts).phase = d.phase ∧
        (isResult after m = true → d.phase ≠ .connectResp ∧ d.phase ≠ .createStreamResp) ∧
        misleads after m d.phase = false) ∨
      (bringsResult after m = true ∧
        ((d.phase = .connectResp ∧ (d.receive after m request pkts).phase = .createStream) ∨
          (d.phase = .createStream ∧ (d.receive after m request pkts).phase = request) ∨
          (d.phase = .createStreamResp ∧ (d.receive after m request pkts).phase = request))) := by
  rcases hbrings : bringsResult after m with _ | _
  · left
    refine ⟨phaseAfter_of_not_bringsResult hbrings request d.phase, ?_, by simp [misleads, hbrings]⟩
    intro hresult
    rw [bringsResult_of_isResult hresult] at hbrings
    cases hbrings
  · have hne := (ne_of_follows hfollows).2
    rcases hphase : d.phase
    case connect => exact absurd hphase hne
    case connectResp =>
      right
      exact ⟨rfl, Or.inl ⟨rfl, by simp [receive, phaseAfter, hbrings, hphase, awaitsResult, resultPhase]⟩⟩
    case createStream =>
      right
      exact ⟨rfl, Or.inr (Or.inl ⟨rfl, by simp [receive, phaseAfter, hbrings, hphase, awaitsResult, resultPhase]⟩)⟩
    case createStreamResp =>
      right
      exact ⟨rfl, Or.inr (Or.inr ⟨rfl, by simp [receive, phaseAfter, hbrings, hphase, awaitsResult, resultPhase]⟩)⟩
    all_goals
      left
      simp [receive, phaseAfter, hphase, awaitsResult, misleads]

theorem Open.receive {after : Bytes} {m : Message} {p : RespPhase} {request : ClientPhase}
    {d : Dialogue} (h : d.Open) (hfollows : follows p d.phase = true)
    (hrequest : awaitsStatus request = true) (pkts : List MediaPacket) :
    (d.receive after m request pkts).Open := by
  have hanswered := fun c => answered_append_received c d.log after m pkts
  have hmem := fun c => mem_append_received c d.log after m pkts
  rcases receive_phase_cases hfollows request pkts with
    ⟨hphase, hresult, -⟩ | ⟨-, ⟨hphase, hnext⟩ | ⟨-, hnext⟩ | ⟨-, hnext⟩⟩
  · refine ⟨?_, ?_, ?_, ?_⟩
    · intro hc0c1
      rw [hphase] at hc0c1
      rw [hc0c1] at hfollows
      cases p <;> cases hfollows
    · intro hresp
      rw [hphase] at hresp
      obtain ⟨hsent, hnot⟩ := h.connect hresp
      refine ⟨(hmem _).mpr hsent, ?_⟩
      intro hyes
      rcases (hanswered _).mp hyes with hyes | ⟨hyes, -⟩
      · exact hnot hyes
      · exact (hresult hyes).1 hresp
    · intro hresp
      rw [hphase] at hresp
      obtain ⟨hsent, hnot⟩ := h.create hresp
      refine ⟨(hmem _).mpr hsent, ?_⟩
      intro hyes
      rcases (hanswered _).mp hyes with hyes | ⟨hyes, -⟩
      · exact hnot hyes
      · exact (hresult hyes).2 hresp
    · intro hbefore hsent
      rw [hphase] at hbefore
      exact h.unsent hbefore ((hmem _).mp hsent)
  · have hunsent := h.unsent (by simp [hphase, beforeCreate])
    exact ⟨by simp [hnext], by simp [hnext], by simp [hnext], fun _ hsent => hunsent ((hmem _).mp hsent)⟩
  · exact open_of_requested (Or.inl (by rw [hnext, hrequest]))
  · exact open_of_requested (Or.inl (by rw [hnext, hrequest]))

/-- A message keeps the order unless it misleads. -/
theorem Ordered.receive_iff {after : Bytes} {m : Message} {p : RespPhase} {request : ClientPhase}
    {d : Dialogue} (hopen : d.Open) (h : d.Ordered) (hfollows : follows p d.phase = true)
    (hrequest : awaitsStatus request = true) (pkts : List MediaPacket) :
    (d.receive after m request pkts).Ordered ↔ misleads after m d.phase = false := by
  have hanswered := fun c => answered_append_received c d.log after m pkts
  have horder : InOrder (d.receive after m request pkts).log :=
    (inOrder_append_received d.log after m pkts).mpr h.1
  -- the new phase needs the answer to `c`, which is due and has been asked for
  have hanswer : ∀ c, (d.receive after m request pkts).phase.needs = some c →
      ¬ Answered c d.log →
      ((d.receive after m request pkts).Ordered ↔
        (isResult after m = true ∧ .sent c ∈ d.log)) := by
    intro c hneeds hnot
    rw [ordered_iff hneeds, and_iff_right horder]
    show Answered c (d.log ++ [.received after m] ++ pkts.map .delivered) ↔ _
    rw [hanswered c]
    simp [hnot]
  rcases receive_phase_cases hfollows request pkts with
    ⟨hphase, -, hnot⟩ | ⟨hbrings, ⟨hphase, hnext⟩ | ⟨hphase, hnext⟩ | ⟨hphase, hnext⟩⟩
  · refine ⟨fun _ => hnot, fun _ => ⟨horder, ?_⟩⟩
    intro c hc
    rw [hphase] at hc
    exact (hanswered c).mpr (Or.inl (h.2 c hc))
  · obtain ⟨hsent, hno⟩ := hopen.connect hphase
    rw [hanswer .connect (by rw [hnext]; rfl) hno]
    simp [misleads, hbrings, hphase, hsent]
  · have hunsent := hopen.unsent (by simp [hphase, beforeCreate])
    rw [hanswer .createStream (by rw [hnext]; exact needs_of_awaitsStatus hrequest)
      (fun hyes => hunsent (mem_of_answered hyes))]
    simp [misleads, hbrings, hphase, hunsent]
  · obtain ⟨hsent, hno⟩ := hopen.create hphase
    rw [hanswer .createStream (by rw [hnext]; exact needs_of_awaitsStatus hrequest) hno]
    simp [misleads, hbrings, hphase, hsent]

theorem ordered_force_iff {request : ClientPhase} {d : Dialogue} (hopen : d.Open)
    (hrequest : awaitsStatus request = true)
    (hfollows : follows .createStreamResp d.phase = true) :
    (d.force request).Ordered ↔ d.Ordered ∧ d.phase ≠ .createStreamResp := by
  have hneeds := needs_of_awaitsStatus hrequest
  by_cases hphase : d.phase = .createStreamResp
  · have hno := (hopen.create hphase).2
    constructor
    · intro h
      exact absurd (h.2 .createStream hneeds) hno
    · intro h
      exact absurd hphase h.2
  · have hstatus : awaitsStatus d.phase = true := by simpa [follows, hphase] using hfollows
    have hsame : (d.force request).Ordered ↔ d.Ordered := by
      rw [ordered_iff (needs_of_awaitsStatus hstatus)]
      exact ordered_iff hneeds
    simp [hsame, hphase]

theorem open_create {d : Dialogue} (h : d.Open) (hphase : d.phase = .createStream) :
    d.create.Open := by
  have hunsent := h.unsent (by simp [hphase, beforeCreate])
  refine ⟨by simp [Dialogue.create], by simp [Dialogue.create], fun _ => ⟨?_, ?_⟩,
    by simp [Dialogue.create, beforeCreate]⟩
  · simp [Dialogue.create]
  · intro hyes
    exact hunsent (mem_of_answered ((answered_concat_sent _ _ d.log).mp hyes))

/-- A command is sent in a phase that needs the same answer. -/
theorem ordered_sent_iff {command c : ClientCommand} {phase : ClientPhase} {d : Dialogue}
    (hcommand : command.needs = some c) (hphase : d.phase.needs = some c)
    (hphase' : phase.needs = some c) :
    ({ phase := phase, log := d.log ++ [.sent command] } : Dialogue).Ordered ↔ d.Ordered := by
  rw [ordered_iff hphase, ordered_iff hphase', inOrder_concat_sent hcommand,
    answered_concat_sent, and_assoc, and_self]

theorem ordered_create_iff {d : Dialogue} (hphase : d.phase = .createStream) :
    d.create.Ordered ↔ d.Ordered :=
  ordered_sent_iff rfl (by rw [hphase]; rfl) rfl

theorem ordered_request_iff {command : ClientCommand} {d : Dialogue}
    (hcommand : command = .play ∨ command = .publish) (hphase : awaitsStatus d.phase = true) :
    (d.request command).Ordered ↔ d.Ordered := by
  have hneeds : command.needs = some .createStream := by
    rcases hcommand with rfl | rfl
    · rfl
    · rfl
  exact ordered_sent_iff hneeds (needs_of_awaitsStatus hphase) rfl

end Dialogue

/-! ## The steps -/

namespace ClientSession

/-- The dialogue of a session. -/
def dialogue (s : ClientSession) : Dialogue := { phase := s.clientPhase, log := s.log }

/-- The rest of a callback keeps the order. -/
theorem Resumed.dialogue {s s' : ClientSession} (h : Resumed s s') :
    (s.dialogue.Open → s'.dialogue.Open) ∧ (s'.dialogue.Ordered ↔ s.dialogue.Ordered) := by
  cases h with
  | creates hphase hphase' hlog =>
    have hd : s'.dialogue = s.dialogue.create := by
      rw [ClientSession.dialogue, hphase', hlog]
      rfl
    rw [hd]
    exact ⟨fun hopen => Dialogue.open_create hopen hphase, Dialogue.ordered_create_iff hphase⟩
  | @requests command hcommand hphase hphase' hlog =>
    have hd : s'.dialogue = s.dialogue.request command := by
      rw [ClientSession.dialogue, hphase', hlog]
      rfl
    rw [hd]
    exact ⟨fun _ => Dialogue.open_of_requested (Or.inr rfl),
      Dialogue.ordered_request_iff hcommand hphase⟩
  | loops _ hs' =>
    subst hs'
    exact ⟨id, Iff.rfl⟩
  | rests _ hs' =>
    subst hs'
    exact ⟨id, Iff.rfl⟩

/-- The loop for the answer to `createStream` has returned zero without an
answer. -/
def Forces (p : RespPhase) (ret : RtmpRet) (phase : ClientPhase) : Prop :=
  p = .createStreamResp ∧ ret = .ok ∧ phase = .createStreamResp

theorem endLoop_dialogue {p : RespPhase} {ret : RtmpRet} {s s' : ClientSession}
    (hopen : s.dialogue.Open) (hfollows : follows p s.clientPhase = true) (hret : ret ≠ .error)
    (h : s.endLoop p ret = .ok s') :
    s'.dialogue.Open ∧
      (s'.dialogue.Ordered ↔ s.dialogue.Ordered ∧ ¬ Forces p ret s.clientPhase) := by
  unfold endLoop at h
  split at h
  · exact absurd rfl hret
  · cases h
    refine ⟨hopen, ?_⟩
    show s.dialogue.Ordered ↔ _
    simp [Forces]
  · have hresumed : ∃ t : ClientSession, t.dialogue = s.dialogue ∧ Resumed t s' := by
      split_ifs at h
      · exact ⟨s.tryRead, rfl, resume_resumed h⟩
      · exact ⟨s, rfl, resume_resumed h⟩
    obtain ⟨t, ht, hresumed⟩ := hresumed
    obtain ⟨hopen', hiff⟩ := hresumed.dialogue
    rw [ht] at hopen' hiff
    exact ⟨hopen' hopen, by simp [Forces, hiff]⟩
  · cases h
    refine ⟨hopen, ?_⟩
    show s.dialogue.Ordered ↔ _
    simp [Forces]
  · obtain ⟨hopen', hiff⟩ := (resume_resumed h).dialogue
    have hforce : ({ s.resetBuffer with clientPhase := s.requestPhase } : ClientSession).dialogue =
        s.dialogue.force s.requestPhase := rfl
    rw [hforce] at hopen' hiff
    have hrequest := awaitsStatus_requestPhase s
    refine ⟨hopen' (Dialogue.open_of_requested (Or.inl hrequest)), ?_⟩
    rw [hiff, Dialogue.ordered_force_iff hopen hrequest hfollows]
    simp [Forces, ClientSession.dialogue]
  · cases h
    refine ⟨hopen, ?_⟩
    show s.dialogue.Ordered ↔ _
    simp [Forces]

/-- A step that loses the order.  An accepted command brings a `_result` that is
no answer, or the loop for the answer to `createStream` ends on an accepted
message that brings none. -/
def strays (s : ClientSession) : Event → Bool
  | .pass after =>
    match s.control, s.base.nextMessage with
    | .receiving p, some m =>
      acceptedIn s.clientPhase after m &&
        (Dialogue.misleads after m s.clientPhase ||
          (p = .createStreamResp && s.clientPhase = .createStreamResp &&
            !bringsResult after m && endsLoop m && s.base.readChunkStream.2.recvBuffer.isEmpty))
    | _, _ => false
  | _ => false

/-- The phase stays only when no `_result` comes. -/
theorem phaseAfter_eq_createStreamResp {after : Bytes} {m : Message} {request phase : ClientPhase}
    (hrequest : awaitsStatus request = true) (hfollows : follows .createStreamResp phase = true) :
    phaseAfter after m request phase = .createStreamResp ↔
      phase = .createStreamResp ∧ bringsResult after m = false := by
  by_cases hphase : phase = .createStreamResp
  · subst hphase
    rcases hbrings : bringsResult after m with _ | _
    · simp [phaseAfter, hbrings]
    · have hne : request ≠ .createStreamResp := by
        intro heq
        rw [heq] at hrequest
        cases hrequest
      simp [phaseAfter, hbrings, awaitsResult, resultPhase, hne]
  · have hstatus : phase = .createPublish ∨ phase = .createPlay := by
      simpa [follows, hphase, awaitsStatus] using hfollows
    rcases hstatus with rfl | rfl
    · simp [phaseAfter, awaitsResult]
    · simp [phaseAfter, awaitsResult]

/-- What a step has to do: the dialogue of a connection that is open is one of
`Dialogue.Open`, and the order is lost only by straying. -/
structure Keeps (strays : Bool) (s s' : ClientSession) : Prop where
  opens : s'.connected = true → s'.dialogue.Open
  ordered : s.dialogue.Ordered → (s'.dialogue.Ordered ↔ strays = false)

theorem keeps_of_eq {s s' : ClientSession} (hopen : s'.connected = true → s.dialogue.Open)
    (hd : s'.dialogue = s.dialogue) : Keeps false s s' where
  opens hconnected := hd ▸ hopen hconnected
  ordered hordered := by simp [hd, hordered]

/-- A pass that completes no message. -/
theorem quiet_keeps {after : Bytes} {p : RespPhase} {ret : Option RtmpRet} {s s₁ s' : ClientSession}
    (hopen : s.dialogue.Open) (hfollows : follows p s.clientPhase = true)
    (hpassed : Passed after ret s s₁) (hm : s.base.nextMessage = none)
    (hend : (ret = none ∧ s' = s₁) ∨ ∃ r, ret = some r ∧ s₁.endLoop p r = .ok s') :
    Keeps false s s' := by
  obtain ⟨hphase, hlog, hret⟩ := hpassed.quiet hm
  have hd : s₁.dialogue = s.dialogue := by
    rw [dialogue, hphase, hlog]
    rfl
  rcases hend with ⟨-, rfl⟩ | ⟨r, hr, hend⟩
  · exact keeps_of_eq (fun _ => hopen) hd
  · cases r with
    | error =>
      cases hend
      exact keeps_of_eq (fun _ => hopen) hd
    | ok => exact absurd hr hret
    | needReadMore =>
      obtain ⟨hopen', hiff⟩ := endLoop_dialogue (by rwa [hd]) (by rwa [hphase]) (by simp) hend
      rw [hd] at hiff
      exact ⟨fun _ => hopen', fun hordered => by simp [hiff, hordered, Forces]⟩

/-- A pass that refuses its message, which closes the connection. -/
theorem refused_keeps {after : Bytes} {m : Message} {p : RespPhase} {s s₁ s' : ClientSession}
    (hhandled : Handled after m (some .error) (s.complete after m) s₁)
    (hacc : acceptedIn s.clientPhase after m = false) (hend : s₁.endLoop p .error = .ok s') :
    Keeps false s s' := by
  obtain ⟨pkts, hlog⟩ := hhandled.log
  replace hlog : s₁.log = s.log ++ [.received after m] ++ pkts.map .delivered := hlog
  have hphase : s₁.clientPhase = s.clientPhase := (hhandled.refused hacc).1
  cases hend
  refine ⟨fun hconnected => (by cases hconnected), ?_⟩
  rintro ⟨horder, hneeded⟩
  refine ⟨fun _ => rfl, fun _ => ⟨?_, ?_⟩⟩
  · show InOrder s₁.log
    rw [hlog]
    exact (inOrder_append_received s.log after m pkts).mpr horder
  · intro c hc
    show Answered c s₁.log
    rw [hlog]
    refine (answered_append_received c s.log after m pkts).mpr (Or.inl (hneeded c ?_))
    show s.clientPhase.needs = some c
    rw [← hphase]
    exact hc

/-- A pass that handles its message. -/
theorem handled_keeps {after : Bytes} {m : Message} {p : RespPhase} {ret : Option RtmpRet}
    {s s₁ s' : ClientSession} (hopen : s.dialogue.Open) (hfollows : follows p s.clientPhase = true)
    (hpassed : Passed after ret s s₁) (hm : s.base.nextMessage = some m)
    (hacc : acceptedIn s.clientPhase after m = true)
    (hend : (ret = none ∧ s' = s₁) ∨ ∃ r, ret = some r ∧ s₁.endLoop p r = .ok s') :
    Keeps (Dialogue.misleads after m s.clientPhase ||
      (p = .createStreamResp && s.clientPhase = .createStreamResp && !bringsResult after m &&
        endsLoop m && s.base.readChunkStream.2.recvBuffer.isEmpty)) s s' := by
  have hhandled := hpassed.message m hm
  obtain ⟨pkts, hlog⟩ := hhandled.log
  obtain ⟨hphase, hret⟩ := hhandled.accepted hacc
  replace hlog : s₁.log = s.log ++ [.received after m] ++ pkts.map .delivered := hlog
  replace hphase : s₁.clientPhase = phaseAfter after m s.requestPhase s.clientPhase := hphase
  replace hret : ret = if endsLoop m && s.base.readChunkStream.2.recvBuffer.isEmpty
    then some .ok else none := hret
  have hrequest := awaitsStatus_requestPhase s
  have hd : s₁.dialogue = s.dialogue.receive after m s.requestPhase pkts := by
    rw [dialogue, hphase, hlog]
    rfl
  have hopen₁ : s₁.dialogue.Open := hd ▸ hopen.receive hfollows hrequest pkts
  have hiff₁ : s.dialogue.Ordered →
      (s₁.dialogue.Ordered ↔ Dialogue.misleads after m s.clientPhase = false) := by
    intro hordered
    rw [hd]
    exact hordered.receive_iff hopen hfollows hrequest pkts
  rcases hend with ⟨hnone, rfl⟩ | ⟨r, hr, hend⟩
  · -- the loop goes on
    have hgoes : (endsLoop m && s.base.readChunkStream.2.recvBuffer.isEmpty) = false := by
      rw [hnone] at hret
      split_ifs at hret with hends
      simpa using hends
    refine ⟨fun _ => hopen₁, fun hordered => ?_⟩
    rw [hiff₁ hordered]
    simp [Bool.and_assoc, hgoes]
  · -- the loop ends with this message
    rw [hr] at hret
    split_ifs at hret with hends
    rw [Option.some.injEq] at hret
    subst hret
    obtain ⟨hopen', hiff⟩ := endLoop_dialogue hopen₁ (hpassed.follows hfollows) (by simp) hend
    have hforces : Forces p .ok s₁.clientPhase ↔ p = .createStreamResp ∧
        s.clientPhase = .createStreamResp ∧ bringsResult after m = false := by
      by_cases hp : p = .createStreamResp
      · subst hp
        rw [Forces, hphase, phaseAfter_eq_createStreamResp hrequest hfollows]
        simp
      · simp [Forces, hp]
    refine ⟨fun _ => hopen', fun hordered => ?_⟩
    rw [hiff, hiff₁ hordered, hforces]
    simp [Bool.and_assoc, hends]

theorem receivePass_keeps {after : Bytes} {p : RespPhase} {s s' : ClientSession} (h : Regular s)
    (hopen : s.dialogue.Open) (hcontrol : s.control = .receiving p)
    (hpass : s.receivePass after = .ok s') : Keeps (s.strays (.pass after)) s s' := by
  obtain ⟨-, -, hfollows⟩ := h.busy p hcontrol
  obtain ⟨ret, s₁, hpassed, hend⟩ := receivePass_cases hcontrol hpass
  simp only [strays, hcontrol]
  rcases hm : s.base.nextMessage with _ | m
  · exact quiet_keeps hopen hfollows hpassed hm hend
  · simp only
    rcases hacc : acceptedIn s.clientPhase after m with _ | _
    · have hhandled := hpassed.message m hm
      have hret := (hhandled.refused hacc).2
      rcases hend with ⟨hnone, -⟩ | ⟨r, hr, hend⟩
      · rw [hret] at hnone
        cases hnone
      · rw [hret, Option.some.injEq] at hr
        subst hr
        rw [hret] at hhandled
        exact refused_keeps hhandled hacc hend
    · exact handled_keeps hopen hfollows hpassed hm hacc hend

theorem onRead_keeps {data : Bytes} {s s' : ClientSession} (hopen : s.dialogue.Open)
    (hread : s.onRead data = .ok s') : Keeps false s s' := by
  unfold onRead at hread
  simp only at hread
  split at hread
  · rename_i hc0c1
    rcases handleS0s1s2_cases hread with hs' | ⟨hphase, hlog, -⟩
    · subst hs'
      exact keeps_of_eq (fun _ => hopen) rfl
    · have hempty : s.log = [] := hopen.fresh hc0c1
      have hd : s'.dialogue = { phase := .connectResp, log := [.sent .connect] } := by
        rw [dialogue, hphase, hlog]
        simp [hempty]
      have hno : ∀ c, ¬ Answered c [.sent .connect] := by
        intro c
        rw [← List.nil_append [ClientObs.sent .connect], answered_concat_sent]
        intro hyes
        cases mem_of_answered hyes
      refine ⟨fun _ => ?_, fun _ => ⟨fun _ => rfl, fun _ => ?_⟩⟩
      · rw [hd]
        exact ⟨by simp, fun _ => ⟨by simp, hno _⟩, by simp, by simp⟩
      · rw [hd, ← List.nil_append [ClientObs.sent .connect]]
        refine ⟨(inOrder_concat _ _).mpr ⟨inOrder_nil, ?_⟩, by simp [ClientPhase.needs]⟩
        intro c c' hc hneeds
        cases hc
        cases hneeds
  · cases hread
    exact keeps_of_eq (fun _ => hopen) rfl
  · obtain ⟨hopen', hiff⟩ := (resume_resumed hread).dialogue
    refine ⟨fun _ => hopen' hopen, fun hordered => ?_⟩
    rw [hiff]
    exact ⟨fun _ => rfl, fun _ => hordered⟩

theorem strays_of_disabled {e : Event} {s : ClientSession} (h : s.enabled e = false) :
    s.strays e = false := by
  cases e with
  | pass after =>
    have hidle : s.control = .idle := by simpa [enabled] using h
    simp [strays, hidle]
  | _ => rfl

theorem step_keeps {e : Event} {s s' : ClientSession} (h : Regular s)
    (hopen : s.connected = true → s.dialogue.Open) (hstep : s.step e = .ok s') :
    Keeps (s.strays e) s s' := by
  rcases step_cases hstep with ⟨hdisabled, rfl⟩ | ⟨c1, rfl, -, rfl⟩ | ⟨data, rfl, hconnected, hread⟩ |
    ⟨after, p, rfl, hcontrol, hpass⟩ | ⟨rfl, rfl⟩ | ⟨pkt, sent, rfl, rfl⟩
  · rw [strays_of_disabled hdisabled]
    exact keeps_of_eq hopen rfl
  · cases c1 with
    | none => exact keeps_of_eq (fun hconnected => (by cases hconnected)) rfl
    | some c1 =>
      refine ⟨fun _ => ⟨fun _ => rfl, ?_, ?_, ?_⟩, fun _ => ⟨fun _ => rfl, fun _ => ⟨?_, ?_⟩⟩⟩
      · intro hphase
        cases hphase
      · intro hphase
        cases hphase
      · intro _ hsent
        cases hsent
      · exact inOrder_nil
      · intro c hc
        cases hc
  · exact onRead_keeps (hopen hconnected) hread
  · exact receivePass_keeps h (hopen (h.busy p hcontrol).1) hcontrol hpass
  · exact keeps_of_eq (fun hconnected => (by cases hconnected)) rfl
  · exact keeps_of_eq hopen rfl

/-! ## Runs -/

/-- **The order of the commands.**  In all states of a run every `createStream`
was sent after an answer to `connect`, every `publish` or `play` after an answer
to `createStream`, and the session is in no phase whose answer is missing, if
and only if no step of the run strays. -/
theorem commands_in_order_iff {publish : Bool} {tcurl app streamName : Bytes}
    {events : List Event} {s : ClientSession}
    (hrun : Run.run step events (start publish tcurl app streamName) = .ok s) :
    (∀ pre s', pre <+: events →
        Run.run step pre (start publish tcurl app streamName) = .ok s' → s'.dialogue.Ordered) ↔
      Run.Along step (fun e s => s.strays e = false) events
        (start publish tcurl app streamName) := by
  refine @Run.forall_prefix_iff_along ClientSession Fault Event step _
    (fun s => Regular s ∧ (s.connected = true → s.dialogue.Open)) (fun s => s.dialogue.Ordered)
    ?_ ?_ events _ s ⟨regular_start publish tcurl app streamName, ?_⟩ ⟨?_, ?_⟩ hrun
  · intro e s s' hinv hstep
    exact ⟨hinv.1.step hstep, (step_keeps hinv.1 hinv.2 hstep).opens⟩
  · intro e s s' hinv hordered hstep
    exact (step_keeps hinv.1 hinv.2 hstep).ordered hordered
  · intro hconnected
    cases hconnected
  · exact inOrder_nil
  · intro c hc
    cases hc

/-- The server answers `connect` and `createStream`, and sends SET_CHUNK_SIZE and
`onBWDone` before the answers. -/
def answeredInTurn : List Event :=
  Server.accept ++ Server.send 3 (Server.setChunkSize ++ Server.bwDone ++ Server.result) ++
    Server.send 2 (Server.setChunkSize ++ Server.result)

theorem commands_in_order_publish : ∃ s,
    Run.run step answeredInTurn (start true [] (ascii "live") (ascii "s")) = .ok s ∧
      .sent .publish ∈ s.log ∧ ∀ pre s', pre <+: answeredInTurn →
        Run.run step pre (start true [] (ascii "live") (ascii "s")) = .ok s' →
          s'.dialogue.Ordered := by
  obtain ⟨s, hrun, hsent⟩ := Run.exists_of_map_toOption (b := true)
    (f := fun s : ClientSession => s.log.any fun o => o.command = some .publish)
    (x := Run.run step answeredInTurn (start true [] (ascii "live") (ascii "s")))
    (by decide +kernel)
  exact ⟨s, hrun, mem_of_any_command hsent, (commands_in_order_iff hrun).mpr (by decide +kernel)⟩

/-- The server answers `connect`, and then sends SET_CHUNK_SIZE alone. -/
def chunkSizeForAnswer : List Event :=
  Server.accept ++ Server.send 1 Server.result ++ Server.send 1 Server.setChunkSize

/-- Then `publish` has been sent, and `createStream` has not been answered. -/
theorem commands_in_order_setChunkSize : ∃ s,
    Run.run step chunkSizeForAnswer (start true [] (ascii "live") (ascii "s")) = .ok s ∧
      .sent .publish ∈ s.log ∧ ¬ Answered .createStream s.log := by
  obtain ⟨s, hrun, hs⟩ := Run.exists_of_map_toOption (b := (true, false))
    (f := fun s : ClientSession => (s.log.any fun o => o.command = some .publish,
      decide (Answered .createStream s.log)))
    (x := Run.run step chunkSizeForAnswer (start true [] (ascii "live") (ascii "s")))
    (by decide +kernel)
  simp only [Prod.mk.injEq, decide_eq_false_iff_not] at hs
  exact ⟨s, hrun, mem_of_any_command hs.1, hs.2⟩

end ClientSession

end MediaServer
