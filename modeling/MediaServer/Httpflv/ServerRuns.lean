import Mathlib.Tactic.Common
import MediaServer.Av.StreamMap
import MediaServer.Httpflv.WriterTimer

/-!
# Runs of the HTTP-FLV server

`Effect` is what one event does to the heap: it makes a writer, it is a check of the writers,
or it is quiet (`step_spec`).  Every run keeps the invariant, so that no pointer between the
sessions, the responses and the writers is followed to something that is gone.  The pointer
of a socket to its session is: a run ends in a use after free exactly when a socket calls back
whose session has been destroyed (`never_faults`).

The results are about runs in which the socket of a session that has failed a read brings
nothing more (`Event.Steady`), and about the states that are reached: a late callback ends the
run.
-/

namespace MediaServer

namespace HttpflvServer

namespace World

open HttpflvServer.Heap MediaStreamManager

variable {τ V : Type} {others : AvWriterBase τ V} {uuid : Nat → Bytes} {w w' : World τ V}
  {f : Fault}

/-- No read succeeds on a socket that has failed one. -/
def Event.Steady : Event V → World τ V → Prop
  | .read c _, w => (w.heap.sessions c).all fun s => !s.failed
  | .accept _, _ | .readFailed _, _ | .wrote _ _, _ | .timer, _ | .checkAlive, _ | .packet _, _
  | .addPublisher _, _ | .removePublisher _, _ | .addOther _, _ | .removeOther _, _ => True

instance (e : Event V) (w : World τ V) : Decidable (e.Steady w) := by
  cases e <;> unfold Event.Steady <;> infer_instance

/-- A callback of a socket finds its session. -/
def Event.Timely : Event V → World τ V → Prop
  | .read c _, w | .readFailed c, w | .wrote c _, w => w.heap.sessions c ≠ none
  | .accept _, _ | .timer, _ | .checkAlive, _ | .packet _, _ | .addPublisher _, _
  | .removePublisher _, _ | .addOther _, _ | .removeOther _, _ => True

instance (e : Event V) (w : World τ V) : Decidable (e.Timely w) := by
  cases e <;> unfold Event.Timely <;> infer_instance

/-- What an event records of the sockets and of the timer of the sessions. -/
def Event.Records (h : Heap) : Event V → Obs → Prop
  | .accept _, o => o = .accepted h.nextSession
  | .read c _, o | .readFailed c, o | .wrote c _, o => o = .heard c
  | .timer, o => o = .ticked
  | .checkAlive, _ | .packet _, _ | .addPublisher _, _ | .removePublisher _, _ | .addOther _, _
  | .removeOther _, _ => False

/-- The timer of the sessions runs. -/
def Event.isTimer : Event V → Bool
  | .timer => true
  | .accept _ | .read _ _ | .readFailed _ | .wrote _ _ | .checkAlive | .packet _
  | .addPublisher _ | .removePublisher _ | .addOther _ | .removeOther _ => false

/-- The timer of the writers runs. -/
def Event.isCheckAlive : Event V → Bool
  | .checkAlive => true
  | .accept _ | .read _ _ | .readFailed _ | .wrote _ _ | .timer | .packet _
  | .addPublisher _ | .removePublisher _ | .addOther _ | .removeOther _ => false

/-- A callback of the socket of the session `c`. -/
def Event.About (c : Nat) : Event V → Prop
  | .read d _ | .readFailed d | .wrote d _ => d = c
  | .accept _ | .timer | .checkAlive | .packet _ | .addPublisher _ | .removePublisher _
  | .addOther _ | .removeOther _ => False

instance (c : Nat) (e : Event V) : Decidable (e.About c) := by
  cases e <;> unfold Event.About <;> infer_instance

theorem Event.Records.cases {h : Heap} {e : Event V} {o : Obs} (ho : e.Records h o) :
    o = .accepted h.nextSession ∨ (∃ c, e.About c ∧ o = .heard c) ∨ o = .ticked := by
  cases e with
  | accept _ => exact Or.inl ho
  | read c _ | readFailed c | wrote c _ => exact Or.inr (Or.inl ⟨c, rfl, ho⟩)
  | timer => exact Or.inr (Or.inr ho)
  | checkAlive | packet _ | addPublisher _ | removePublisher _ | addOther _ | removeOther _ =>
    exact False.elim ho

/-- What an event does to the heap. -/
inductive Effect (uuid : Nat → Bytes) (e : Event V) (h h' : Heap) : Prop where
  | quiet (hcheck : e.isCheckAlive = false) (hquiet : Quiet (e.Records h) h h')
      (htimer : e.isTimer = true → h'.log = h.log ++ [.ticked])
  | made {c : Nat} {h₁ : Heap} (hcheck : e.isCheckAlive = false) (htimer : e.isTimer = false)
      (hset : Settled h₁) (hquiet : Quiet (e.Records h) h h₁) (hmade : Made uuid c h₁ h')
  | checked (htimer : e.isTimer = false) (hchecked : Checked [] h h')

/-- An event that is not a timer. -/
theorem Effect.still {uuid : Nat → Bytes} {e : Event V} {h h' : Heap}
    (hcheck : e.isCheckAlive = false) (htimer : e.isTimer = false)
    (hquiet : Quiet (e.Records h) h h') : Effect uuid e h h' :=
  .quiet hcheck hquiet fun htrue => by
    rw [htimer] at htrue
    cases htrue

theorem Sound.within {streams : Streams (Nat ⊕ V)} (hw : Sound w)
    (hwithin : Within w.streams streams) : Sound { w with streams } :=
  ⟨hw.settled, hw.entries.within hwithin⟩

theorem onRead_late {c : Nat} (hc : w.heap.sessions c = none) (read : Option Bytes) :
    onRead others uuid c read w = .error (.fault .useAfterFree) := by
  rw [onRead, hc]

theorem onWrite_late {c : Nat} (hc : w.heap.sessions c = none) (retCode : Int) :
    onWrite c retCode w = .error (.fault .useAfterFree) := by
  rw [onWrite, hc]

/-- A socket whose session is gone calls through a stale pointer. -/
theorem step_late {e : Event V} (h : ¬ e.Timely w) :
    step others uuid e w = .error (.fault .useAfterFree) := by
  cases e with
  | read c data => exact onRead_late (not_not.mp h) (some data)
  | readFailed c => exact onRead_late (not_not.mp h) none
  | wrote c retCode => exact onWrite_late (not_not.mp h) retCode
  | accept _ | timer | checkAlive | packet _ | addPublisher _ | removePublisher _ | addOther _
  | removeOther _ => exact absurd trivial h

/-- One event.  A use after free is excluded for callbacks that find their session. -/
theorem step_spec (hn : NeverFaults others f fun _ => True) (hw : Sound w) {e : Event V}
    (hsteady : e.Steady w) (htimely : f = .useAfterFree → e.Timely w) :
    Run.Guarded (.fault f) (fun w' => Sound w' ∧ Effect uuid e w.heap w'.heap)
      (step others uuid e w) := by
  have hread : ∀ c read (e : Event V), e.Records w.heap = (fun o => o = .heard c) →
      e.isCheckAlive = false → e.isTimer = false →
      (read ≠ none → ∀ s, w.heap.sessions c = some s → s.failed = false) →
      (f = .useAfterFree → w.heap.sessions c ≠ none) →
      Run.Guarded (.fault f) (fun w' => Sound w' ∧ Effect uuid e w.heap w'.heap)
        (onRead others uuid c read w) := by
    intro c read e he hcheck htimer hsteady htimely
    rcases hc : w.heap.sessions c with _ | s
    · rw [onRead_late hc]
      exact Run.guarded_error fun h => htimely (Stop.fault.inj h).symm hc
    · refine (onRead_spec hw hc read (fun hne => hsteady hne s hc) f).mono fun w' _ => ?_
      rw [← he]
      rintro ⟨hw', hquiet | ⟨h₁, hset, hquiet, hmade⟩⟩
      · exact ⟨hw', .still hcheck htimer hquiet⟩
      · exact ⟨hw', .made hcheck htimer hset hquiet hmade⟩
  cases e with
  | accept endpoint =>
    obtain ⟨h', haccept, hset, hquiet⟩ := onAccept_spec hw.settled endpoint
    refine Run.guarded_of_ok (a := { w with heap := h' }) ?_
      ⟨⟨hset, hw.entries.quiet hquiet⟩, .still rfl rfl hquiet⟩
    rw [step, withHeap, haccept]
    rfl
  | read c data =>
    refine hread c (some data) _ rfl rfl rfl (fun _ s hc => ?_) htimely
    rw [Event.Steady, hc] at hsteady
    simpa using hsteady
  | readFailed c => exact hread c none _ rfl rfl rfl (fun h => absurd rfl h) htimely
  | wrote c retCode =>
    rcases hc : w.heap.sessions c with _ | s
    · rw [step, onWrite_late hc]
      exact Run.guarded_error fun h => htimely (Stop.fault.inj h).symm hc
    · obtain ⟨h', hok, hset, hquiet⟩ := onWrite_spec hw.settled hc retCode
      exact Run.guarded_of_ok hok ⟨⟨hset, hw.entries.quiet hquiet⟩, .still rfl rfl hquiet⟩
  | timer =>
    obtain ⟨h', htimer, hset, hquiet, hlog⟩ := onTimer_spec hw.settled
    refine Run.guarded_of_ok (a := { w with heap := h' }) ?_
      ⟨⟨hset, hw.entries.quiet hquiet⟩, .quiet rfl hquiet fun _ => hlog⟩
    rw [step, withHeap, htimer]
    rfl
  | checkAlive =>
    obtain ⟨w', hcheck, hw', hchecked⟩ := @onCheckAlive_spec _ _ others w hw
    refine Run.guarded_of_ok ?_ ⟨hw', .checked rfl hchecked⟩
    rw [step, hcheck]
    rfl
  | packet pkt =>
    exact (packet_spec hn hw pkt).mono fun w' _ h => ⟨h.1, .still rfl rfl h.2⟩
  | addPublisher key =>
    exact Run.guarded_ok ⟨hw.within (within_addPublisher key w.streams),
      .still rfl rfl (Served.refl _).toQuiet⟩
  | removePublisher key =>
    exact Run.guarded_ok ⟨hw.within (within_removePublisher key w.streams),
      .still rfl rfl (Served.refl _).toQuiet⟩
  | addOther v =>
    exact (addOther_spec hn hw v).mono fun w' _ h => ⟨h.1, .still rfl rfl h.2⟩
  | removeOther v =>
    exact (removeOther_spec hn hw v).mono fun w' _ h => ⟨h.1, .still rfl rfl h.2⟩

/-- An event that does not end the run. -/
theorem step_ok_spec (hn : NeverFaults others f fun _ => True) (hw : Sound w) {e : Event V}
    (hsteady : e.Steady w) (hok : step others uuid e w = .ok w') :
    Sound w' ∧ Effect uuid e w.heap w'.heap := by
  refine (step_spec hn hw hsteady fun _ => ?_).of_eq_ok hok
  by_contra hlate
  rw [step_late hlate] at hok
  cases hok

/-! ## Runs -/

/-- The server at its start. -/
def start (t : τ) : World τ V := { others := t }

theorem sound_start (t : τ) : Sound (start t : World τ V) := by
  have hempty : ∀ (key : Bytes) (p : Nat),
      ¬ (OrderedMap.empty : OrderedMap Bytes Nat).find? key = some p := by
    intro key p h
    rw [OrderedMap.find?_empty] at h
    cases h
  have hnone : ∀ {α : Type} {a : α}, ¬ none = some a := fun h => by cases h
  refine ⟨⟨⟨?_, ?_, ?_, ?_, ?_, ?_, ?_, fun _ _ => rfl, fun _ _ => rfl, fun _ _ => rfl⟩, ?_, ?_⟩,
    ?_⟩
  · exact fun _ _ h => (hnone h).elim
  · exact fun _ _ _ h => (hnone h).elim
  · exact fun _ _ h => (hnone h).elim
  · exact fun _ _ h => (hnone h).elim
  · exact fun id p h => (hempty id p h).elim
  · exact fun id p _ h => (hempty id p h).elim
  · exact fun _ _ h => (hnone h).elim
  · exact fun key c => ⟨fun h => (hempty key c h).elim, fun h => (hnone h).elim⟩
  · exact fun _ _ h => (hnone h).elim
  · exact fun _ _ h => (hnone h).elim

theorem run_sound (hn : NeverFaults others f fun _ => True) {events : List (Event V)}
    (hw : Sound w) (hsteady : Run.Along (step others uuid) Event.Steady events w)
    (htimely : f = .useAfterFree → Run.Along (step others uuid) Event.Timely events w) :
    Run.Guarded (.fault f) Sound (Run.run (step others uuid) events w) := by
  by_cases hf : f = .useAfterFree
  · exact Run.guarded_run
      (fun _ _ h hw => (step_spec hn hw h.1 fun _ => h.2).mono fun _ _ h => h.1) hw
      (hsteady.and (htimely hf))
  · exact Run.guarded_run
      (fun _ _ h hw => (step_spec hn hw h fun he => absurd he hf).mono fun _ _ h => h.1) hw
      hsteady

/-- A run with a late callback ends there, in a use after free. -/
theorem run_late {events : List (Event V)}
    (h : ¬ Run.Along (step others uuid) Event.Timely events w) :
    Run.run (step others uuid) events w = .error (.fault .useAfterFree) := by
  induction events generalizing w with
  | nil => exact absurd trivial h
  | cons e events ih =>
    by_cases htimely : e.Timely w
    · simp only [Run.Along, htimely, true_and, not_forall] at h
      obtain ⟨w', hok, h⟩ := h
      rw [Run.run, hok]
      exact ih h
    · rw [Run.run, step_late htimely]

/-- **Stale pointers.**  Whatever the sockets, the timers and the other players do, and in
whatever order, the server follows a pointer to a session, a response or a writer that is gone
exactly when a socket calls back whose session has been destroyed, and it ends in no other
fault that the players do not have. -/
theorem never_faults (others : AvWriterBase τ V) (uuid : Nat → Bytes) (f : Fault)
    (hn : NeverFaults others f fun _ => True) (t : τ) (events : List (Event V))
    (hsteady : Run.Along (step others uuid) Event.Steady events (start t)) :
    Run.run (step others uuid) events (start t) = .error (.fault f) ↔
      f = .useAfterFree ∧ ¬ Run.Along (step others uuid) Event.Timely events (start t) := by
  constructor
  · intro hrun
    by_contra hnot
    refine (run_sound hn (sound_start t) hsteady fun hf => ?_).avoids hrun
    by_contra hlate
    exact hnot ⟨hf, hlate⟩
  · rintro ⟨rfl, hlate⟩
    exact run_late hlate

/-! ## A client that falls silent -/

/-- Ids that differ. -/
def sampleUuid (n : Nat) : Bytes := List.replicate n 0

/-- A packet of the stream that the client asks for. -/
def samplePacket (isSeqHdr : Bool) : MediaPacket :=
  { avType := .video, codecType := .h264, isSeqHdr, isKeyFrame := !isSeqHdr
    buffer := [0x17, if isSeqHdr then 0 else 1], key := ascii "live/a" }

/-- A client asks for a stream that another player has, and is sent a packet. -/
def clientEvents : List (Event Bool) :=
  [.accept (ascii "client"), .addOther true, .read 0 (ascii "GET /live/a.flv HTTP/1.1\r\n\r\n"),
    .packet (samplePacket true), .wrote 0 0]

/-- Its socket does not call back any more, while another client comes. -/
def silentEvents : List (Event Bool) :=
  [.timer, .timer, .accept (ascii "other"), .timer, .packet (samplePacket false), .checkAlive,
    .timer, .timer, .timer]

/-- Only the players are checked, and a packet comes. -/
def checkEvents : List (Event Bool) :=
  [.checkAlive, .checkAlive, .packet (samplePacket false), .checkAlive, .checkAlive, .checkAlive,
    .checkAlive]

theorem neverFaults_halfBroken (f : Fault) :
    NeverFaults StreamMap.halfBroken f fun _ => True :=
  ⟨(fun _ h => by cases h), (fun h => by cases h), (fun h => by cases h), (fun h => by cases h),
    fun h => by cases h⟩

theorem steady_client :
    Run.Along (step StreamMap.halfBroken sampleUuid) Event.Steady
      (clientEvents ++ silentEvents ++ checkEvents) (start ()) := by
  decide +kernel

/-- The callbacks of the client find its session, and one that comes behind the last tick of
the timer does not. -/
theorem never_faults_client :
    Run.run (step StreamMap.halfBroken sampleUuid) (clientEvents ++ silentEvents ++ checkEvents)
        (start ()) ≠ .error (.fault .useAfterFree) ∧
      Run.run (step StreamMap.halfBroken sampleUuid) (clientEvents ++ silentEvents ++ [.wrote 0 0])
        (start ()) = .error (.fault .useAfterFree) := by
  have hlate : ¬ Run.Along (step StreamMap.halfBroken sampleUuid) Event.Timely
      (clientEvents ++ silentEvents ++ [.wrote 0 0]) (start ()) := by
    decide +kernel
  have htimely : Run.Along (step StreamMap.halfBroken sampleUuid) Event.Timely
      (clientEvents ++ silentEvents ++ checkEvents) (start ()) := by
    decide +kernel
  have hsteady : Run.Along (step StreamMap.halfBroken sampleUuid) Event.Steady
      (clientEvents ++ silentEvents ++ [.wrote 0 0]) (start ()) := by
    decide +kernel
  refine ⟨fun hrun => ?_, ?_⟩
  · exact ((never_faults StreamMap.halfBroken sampleUuid .useAfterFree (neverFaults_halfBroken _)
      () (clientEvents ++ silentEvents ++ checkEvents) steady_client).mp hrun).2 htimely
  · exact (never_faults StreamMap.halfBroken sampleUuid .useAfterFree (neverFaults_halfBroken _)
      () (clientEvents ++ silentEvents ++ [.wrote 0 0]) hsteady).mpr ⟨rfl, hlate⟩

end World

end HttpflvServer

end MediaServer
