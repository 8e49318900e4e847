import Mathlib.Logic.Function.Basic
import Mathlib.Tactic.Common
import MediaServer.Webrtc.RtpSendReports

/-!
# Limits of retransmission

A packet in the buffer is sent again at most `RETRANSMIT_MAX_COUNT` times, and not before
the peer can have had the last copy.  The buffer stores the time of that in 32 bits, of a
clock that counts the milliseconds since 1970, and 0 says that there was none.

* `Action` is a call of the handlers with its time.  `note` keeps the retransmissions of
  the stored packets beside the stream.
* `Retransmits` says what one turn of the loop over the lost numbers can do.
* `retransmission_limits`: the limits hold along the runs in which the stored time serves
  the comparison, `Compared`.
-/

namespace MediaServer

namespace RtpSendReports

/-- A retransmission, with the round trip time that was in force. -/
structure Sending where
  ms : Int
  rtt : Int
  deriving DecidableEq, Repr

/-- The retransmissions of the stored packets, the last one first. -/
abbrev Log : Type := UInt16 → List Sending

/-- There are not too many, and of two at different times the later one has waited. -/
def Limited (sent : List Sending) : Prop :=
  (sent.length : Int) ≤ RETRANSMIT_MAX_COUNT ∧
    sent.Pairwise fun later earlier =>
      earlier.ms < later.ms → later.rtt - 5 ≤ later.ms - earlier.ms

/-- What a stream is called for, with the time. -/
inductive Action where
  | send (nowMs : Int) (pkt : RtpPacket)
  | nack (nowMs : Int) (lostSeqs : List UInt16)
  | rr (nowMs : Int) (rrPkt : RtcpRrPacket)
  | timer (nowMs : Int)

/-- The time of a step. -/
def Action.ms : Action → Int
  | .send nowMs _ | .nack nowMs _ | .rr nowMs _ | .timer nowMs => nowMs

/-- One step of a stream. -/
def step : Action → RtpSendReports → Except Fault RtpSendReports
  | .send nowMs pkt, s => s.onSendRtpPacket nowMs pkt
  | .nack nowMs lostSeqs, s => (s.retransmitAll nowMs lostSeqs).map Prod.snd
  | .rr nowMs rrPkt, s => s.handleRtcpRr nowMs rrPkt
  | .timer nowMs, s => (s.onTimer nowMs).map Prod.snd

/-- One turn of the loop. -/
def turn (nowMs : Int) (seq : UInt16) (s : RtpSendReports) : Except Fault RtpSendReports :=
  (s.retransmit nowMs seq).map Prod.snd

/-- What is noted of one turn of the loop. -/
def noteTurn (nowMs : Int) (seq : UInt16) (s : RtpSendReports) (log : Log) : Log :=
  match s.retransmit nowMs seq with
  | .ok (some _, _) => Function.update log seq (⟨nowMs, s.rtt⟩ :: log seq)
  | _ => log

/-- What is noted of the loop. -/
def noteTurns (nowMs : Int) : List UInt16 → RtpSendReports → Log → Log
  | [], _, log => log
  | seq :: lostSeqs, s, log =>
    match s.turn nowMs seq with
    | .ok s' => noteTurns nowMs lostSeqs s' (noteTurn nowMs seq s log)
    | .error _ => noteTurn nowMs seq s log

/-- A packet that is stored has not been sent again. -/
def note : Action → RtpSendReports → Log → Log
  | .send _ pkt, _, log => Function.update log pkt.getSeq []
  | .nack nowMs lostSeqs, s, log => noteTurns nowMs lostSeqs s log
  | .rr _ _, _, log => log
  | .timer _, _, log => log

/-- The stored time of a packet that has been sent again is not 0.  When the packet could be
sent once more, and the difference to the clock is below the limit in 32 bits, it is so in
64 bits. -/
def Compared (nowMs : Int) (seq : UInt16) (s : RtpSendReports) : Prop :=
  ∀ pkt ∈ s.rtpBufferMap.find? seq, 1 ≤ pkt.sentCount →
    pkt.lastSentTimestamp ≠ 0 ∧
      (pkt.sentCount < RETRANSMIT_MAX_COUNT →
        ((asUint32 nowMs - pkt.lastSentTimestamp).toNat : Int) < s.rtt - 5 →
          nowMs - pkt.lastSentTimestamp.toNat < s.rtt - 5)

instance (nowMs : Int) (seq : UInt16) (s : RtpSendReports) : Decidable (Compared nowMs seq s) :=
  inferInstanceAs (Decidable (∀ pkt ∈ s.rtpBufferMap.find? seq, _ → _ ∧ _))

/-- Every number that is lost is compared. -/
def NackCompared : Action → RtpSendReports → Prop
  | .nack nowMs lostSeqs, s => Run.Along (turn nowMs) (Compared nowMs) lostSeqs s
  | _, _ => True

instance : ∀ (a : Action) (s : RtpSendReports), Decidable (NackCompared a s)
  | .nack nowMs lostSeqs, s =>
    inferInstanceAs (Decidable (Run.Along (turn nowMs) (Compared nowMs) lostSeqs s))
  | .send _ _, _ => isTrue trivial
  | .rr _ _, _ => isTrue trivial
  | .timer _, _ => isTrue trivial

/-! ## One turn -/

@[simp] theorem find?_setPacket (seq k : UInt16) (pkt : NackPacket) (s : RtpSendReports) :
    (s.setPacket seq pkt).rtpBufferMap.find? k =
      if k = seq then some pkt else s.rtpBufferMap.find? k :=
  OrderedMap.find?_assign

/-- What one turn of the loop can do. -/
inductive Retransmits (nowMs : Int) (seq : UInt16) (s : RtpSendReports) :
    Option RtpPacket → RtpSendReports → Prop
  | idle (hidle : ∀ pkt, s.rtpBufferMap.find? seq = some pkt →
      pkt.lastSentTimestamp ≠ 0 ∧ nowMs - pkt.lastSentTimestamp.toNat < s.rtt - 5) :
    Retransmits nowMs seq s none s
  | first {pkt : NackPacket} (hfind : s.rtpBufferMap.find? seq = some pkt)
    (hnever : pkt.lastSentTimestamp = 0) :
    Retransmits nowMs seq s (some pkt.packet)
      (s.setPacket seq { pkt with lastSentTimestamp := asUint32 nowMs, sentCount := 1 })
  | spent {pkt : NackPacket} (hfind : s.rtpBufferMap.find? seq = some pkt)
    (hbefore : pkt.lastSentTimestamp ≠ 0)
    (hwaited : s.rtt - 5 ≤ nowMs - pkt.lastSentTimestamp.toNat)
    (hcount : RETRANSMIT_MAX_COUNT < pkt.sentCount + 1) :
    Retransmits nowMs seq s none (s.setPacket seq { pkt with sentCount := pkt.sentCount + 1 })
  | again {pkt : NackPacket} (hfind : s.rtpBufferMap.find? seq = some pkt)
    (hbefore : pkt.lastSentTimestamp ≠ 0)
    (hwaited : s.rtt - 5 ≤ nowMs - pkt.lastSentTimestamp.toNat)
    (hcount : pkt.sentCount + 1 ≤ RETRANSMIT_MAX_COUNT) :
    Retransmits nowMs seq s (some pkt.packet)
      (s.setPacket seq { pkt with
        lastSentTimestamp := asUint32 nowMs, sentCount := pkt.sentCount + 1 })

theorem retransmit_cases {nowMs : Int} {seq : UInt16} {s s' : RtpSendReports}
    {sent : Option RtpPacket} (h : s.retransmit nowMs seq = .ok (sent, s')) :
    Retransmits nowMs seq s sent s' := by
  rw [retransmit] at h
  rcases hfind : s.rtpBufferMap.find? seq with _ | pkt
  · simp only [hfind, Except.ok.injEq, Prod.mk.injEq] at h
    obtain ⟨rfl, rfl⟩ := h
    exact .idle (by simp [hfind])
  simp only [hfind] at h
  split_ifs at h with hnever hearly hlimit hspent
  · cases h
    exact .first hfind hnever
  · cases h
    refine .idle ?_
    intro v hv
    rw [hfind] at hv
    cases hv
    exact ⟨hnever, hearly⟩
  · cases h
    exact .spent hfind hnever (by omega) hspent
  · cases h
    exact .again hfind hnever (by omega) (by omega)

/-! ## A stored packet and its retransmissions -/

/-- The fields of a stored packet that has been sent again. -/
structure Kept (pkt : NackPacket) (sent : List Sending) : Prop where
  fresh : sent = [] → pkt.lastSentTimestamp = 0
  last : ∀ x rest, sent = x :: rest → pkt.lastSentTimestamp = asUint32 x.ms
  counted : (sent.length : Int) ≤ pkt.sentCount

/-- The retransmissions of a packet in the order of time. -/
def Ordered (sent : List Sending) : Prop :=
  sent.Pairwise fun later earlier => earlier.ms ≤ later.ms

/-- The retransmissions of a packet up to a time. -/
structure Timely (nowMs : Int) (sent : List Sending) : Prop where
  limited : Limited sent
  ordered : Ordered sent
  before : ∀ x ∈ sent, x.ms ≤ nowMs

theorem timely_nil (nowMs : Int) : Timely nowMs [] :=
  ⟨⟨by decide, .nil⟩, .nil, by simp⟩

theorem Timely.mono {nowMs nowMs' : Int} {sent : List Sending} (h : Timely nowMs sent)
    (hle : nowMs ≤ nowMs') : Timely nowMs' sent :=
  ⟨h.limited, h.ordered, fun x hx => (h.before x hx).trans hle⟩

/-- A difference in 32 bits is not greater than the one of the numbers. -/
theorem toNat_asUint32_sub_le {a b : Int} (h : b ≤ a) :
    ((asUint32 a - asUint32 b).toNat : Int) ≤ a - b := by
  have hmod : ∀ n : Int, ((asUint32 n).toNat : Int) = n % 4294967296 := by
    intro n
    rw [asUint32, UInt32.toNat_ofNat']
    omega
  have ha := hmod a
  have hb := hmod b
  rw [UInt32.toNat_sub]
  omega

/-- The first retransmission. -/
theorem timely_first (nowMs rtt : Int) : Timely nowMs [⟨nowMs, rtt⟩] := by
  have hone : (([⟨nowMs, rtt⟩] : List Sending).length : Int) ≤ RETRANSMIT_MAX_COUNT := by
    rw [List.length_singleton, RETRANSMIT_MAX_COUNT]
    decide
  refine ⟨⟨hone, List.pairwise_singleton _ _⟩, List.pairwise_singleton _ _, ?_⟩
  simp

/-- Another one, behind the last. -/
theorem Timely.again {nowMs rtt : Int} {last : Sending} {sent : List Sending}
    (h : Timely nowMs (last :: sent))
    (hcount : ((last :: sent).length : Int) + 1 ≤ RETRANSMIT_MAX_COUNT)
    (hwaited : rtt - 5 ≤ nowMs - last.ms) : Timely nowMs (⟨nowMs, rtt⟩ :: last :: sent) := by
  obtain ⟨⟨-, hapart⟩, hordered, hbefore⟩ := h
  have holder : ∀ x ∈ last :: sent, x.ms ≤ last.ms := by
    intro x hx
    rcases List.mem_cons.mp hx with rfl | hx
    · exact Int.le_refl _
    · exact (List.pairwise_cons.mp hordered).1 x hx
  refine ⟨⟨by simpa using hcount, hapart.cons ?_⟩, hordered.cons hbefore, ?_⟩
  · intro x hx _
    have hle := holder x hx
    show rtt - 5 ≤ nowMs - x.ms
    omega
  · simpa using hbefore

/-! ## Steps -/

/-- The limits hold up to a time, and the stored packets know their retransmissions. -/
structure Guarded (nowMs : Int) (log : Log) (s : RtpSendReports) : Prop where
  timely : ∀ seq, Timely nowMs (log seq)
  kept : ∀ seq pkt, s.rtpBufferMap.find? seq = some pkt → Kept pkt (log seq)

theorem Guarded.mono {nowMs nowMs' : Int} {log : Log} {s : RtpSendReports}
    (h : Guarded nowMs log s) (hle : nowMs ≤ nowMs') : Guarded nowMs' log s :=
  ⟨fun seq => (h.timely seq).mono hle, h.kept⟩

/-- A step that leaves the retransmissions and the buffer. -/
theorem Guarded.of_same {nowMs : Int} {log : Log} {s s' : RtpSendReports}
    (h : Guarded nowMs log s) (hmap : s'.rtpBufferMap = s.rtpBufferMap) :
    Guarded nowMs log s' := by
  refine ⟨h.timely, ?_⟩
  intro seq pkt hfind
  rw [hmap] at hfind
  exact h.kept seq pkt hfind

/-- A packet that is sent again. -/
theorem Guarded.sendAgain {nowMs : Int} {log : Log} {s : RtpSendReports} {seq : UInt16}
    {pkt : NackPacket} {sent : List Sending} (h : Guarded nowMs log s)
    (htimely : Timely nowMs sent) (hkept : Kept pkt sent) :
    Guarded nowMs (Function.update log seq sent) (s.setPacket seq pkt) := by
  refine ⟨?_, ?_⟩
  · intro k
    rcases eq_or_ne k seq with rfl | hne
    · rw [Function.update_self]
      exact htimely
    · rw [Function.update_of_ne hne]
      exact h.timely k
  · intro k v hfind
    rw [find?_setPacket] at hfind
    split_ifs at hfind with hk
    · cases hfind
      rw [hk, Function.update_self]
      exact hkept
    · rw [Function.update_of_ne hk]
      exact h.kept k v hfind

/-- What a turn adds to the retransmissions. -/
theorem noteTurn_eq {nowMs : Int} {seq : UInt16} {s s' : RtpSendReports} {sent : Option RtpPacket}
    (h : s.retransmit nowMs seq = .ok (sent, s')) (log : Log) :
    noteTurn nowMs seq s log =
      if sent.isSome then Function.update log seq (⟨nowMs, s.rtt⟩ :: log seq) else log := by
  rw [noteTurn, h]
  rcases sent with _ | pkt
  · rfl
  · rfl

/-- **Step.**  A turn that is compared keeps the limits. -/
theorem guarded_retransmit {nowMs : Int} {seq : UInt16} {log : Log} {s s' : RtpSendReports}
    {sent : Option RtpPacket} (h : Guarded nowMs log s) (hcompared : Compared nowMs seq s)
    (hsent : s.retransmit nowMs seq = .ok (sent, s')) :
    Guarded nowMs (noteTurn nowMs seq s log) s' := by
  have htimely := h.timely seq
  rw [noteTurn_eq hsent]
  cases retransmit_cases hsent with
  | idle hidle => exact h
  | @first pkt hfind hnever =>
    obtain ⟨hfresh, hlast, hcounted⟩ := h.kept seq pkt hfind
    -- a packet that has been sent again has a time
    have hzero : ¬ 1 ≤ pkt.sentCount := fun hone => (hcompared pkt hfind hone).1 hnever
    have hnil : log seq = [] := List.length_eq_zero_iff.mp (by omega)
    rw [hnil]
    refine h.sendAgain (timely_first nowMs s.rtt) ⟨by simp, ?_, by simp⟩
    rintro x rest hx
    cases hx
    rfl
  | @spent pkt hfind hbefore hwaited hcount =>
    obtain ⟨hfresh, hlast, hcounted⟩ := h.kept seq pkt hfind
    have hmore : ((log seq).length : Int) ≤ pkt.sentCount + 1 := by omega
    have hsame : Guarded nowMs (Function.update log seq (log seq))
        (s.setPacket seq { pkt with sentCount := pkt.sentCount + 1 }) :=
      h.sendAgain htimely ⟨hfresh, hlast, hmore⟩
    rw [Function.update_eq_self] at hsame
    exact hsame
  | @again pkt hfind hbefore hwaited hcount =>
    obtain ⟨hfresh, hlast, hcounted⟩ := h.kept seq pkt hfind
    rcases hlog : log seq with _ | ⟨last, rest⟩
    · exact absurd (hfresh hlog) hbefore
    replace hlast := hlast last rest hlog
    have hle : last.ms ≤ nowMs := htimely.before last (by rw [hlog]; simp)
    have hdiff := toNat_asUint32_sub_le hle
    rw [hlog] at htimely
    rw [hlog, List.length_cons] at hcounted
    have hlimit := (hcompared pkt hfind (by omega)).2 (by omega)
    rw [hlast] at hlimit hwaited
    refine h.sendAgain (htimely.again ?_ ?_) ⟨by simp, ?_, ?_⟩
    · rw [List.length_cons]
      omega
    · omega
    · rintro x rest' hx
      cases hx
      rfl
    · simp only [List.length_cons]
      omega

theorem exists_of_turn {nowMs : Int} {seq : UInt16} {s s' : RtpSendReports}
    (h : s.turn nowMs seq = .ok s') : ∃ sent, s.retransmit nowMs seq = .ok (sent, s') := by
  obtain ⟨⟨sent, t⟩, hsent, rfl⟩ := Run.exists_of_map_ok h
  exact ⟨sent, hsent⟩

/-- The turns of a packet, one after another. -/
theorem retransmitAll_eq (nowMs : Int) (lostSeqs : List UInt16) (s : RtpSendReports) :
    (s.retransmitAll nowMs lostSeqs).map Prod.snd = Run.run (turn nowMs) lostSeqs s := by
  induction lostSeqs generalizing s with
  | nil => rfl
  | cons seq lostSeqs ih =>
    rw [retransmitAll, Run.run, turn]
    rcases s.retransmit nowMs seq with e | ⟨sent, t⟩
    · rfl
    · show ((t.retransmitAll nowMs lostSeqs) >>= _).map Prod.snd = Run.run (turn nowMs) lostSeqs t
      rw [← ih]
      rcases t.retransmitAll nowMs lostSeqs with e | r
      · rfl
      · rfl

/-- The numbers of a packet keep the limits, when every one is compared. -/
theorem guarded_turns {nowMs : Int} {lostSeqs : List UInt16} {log : Log} {s s' : RtpSendReports}
    (h : Guarded nowMs log s) (hcompared : Run.Along (turn nowMs) (Compared nowMs) lostSeqs s)
    (hrun : Run.run (turn nowMs) lostSeqs s = .ok s') :
    Guarded nowMs (noteTurns nowMs lostSeqs s log) s' := by
  induction lostSeqs generalizing log s with
  | nil =>
    cases hrun
    exact h
  | cons seq lostSeqs ih =>
    obtain ⟨t, hturn, hrest⟩ := Run.exists_of_run_cons hrun
    obtain ⟨sent, hsent⟩ := exists_of_turn hturn
    simp only [noteTurns, hturn]
    exact ih (guarded_retransmit h hcompared.1 hsent) (hcompared.2 t hturn) hrest

/-! ## The other steps -/

theorem find?_of_evict {max turns : Nat} {map : OrderedMap UInt16 NackPacket} {firstSeq : UInt16}
    {result : OrderedMap UInt16 NackPacket × UInt16}
    (h : RtpSendStream.evict max turns map firstSeq = .ok result) {k : UInt16} {v : NackPacket}
    (hfind : result.1.find? k = some v) : map.find? k = some v := by
  induction turns generalizing map firstSeq with
  | zero =>
    cases h
    exact hfind
  | succ turns ih =>
    rw [RtpSendStream.evict] at h
    split_ifs at h with hsize
    · rcases hfirst : map.find? firstSeq with _ | w
      · simp [hfirst] at h
      rcases hnext : ((map.erase firstSeq).after firstSeq).or (map.erase firstSeq).first with _ | e
      · simp [hfirst, hnext] at h
      simp only [hfirst, hnext] at h
      have herased := ih h
      rw [OrderedMap.find?_erase] at herased
      split_ifs at herased
      exact herased
    · cases h
      exact hfind

/-- What stands in the buffer behind `on_send_rtp_packet`. -/
theorem find?_of_onSendRtpPacket {nowMs : Int} {pkt : RtpPacket} {s s' : RtpSendReports}
    (h : s.onSendRtpPacket nowMs pkt = .ok s') {k : UInt16} {v : NackPacket}
    (hfind : s'.rtpBufferMap.find? k = some v) :
    (k = pkt.getSeq ∧ v.lastSentTimestamp = 0 ∧ v.sentCount = 0) ∨
      (k ≠ pkt.getSeq ∧ s.rtpBufferMap.find? k = some v) := by
  obtain ⟨stream, hstream, hs'⟩ := Run.exists_of_bind_ok h
  cases hs'
  rw [RtpSendStream.onSendRtpPacket, RtpSendStream.saveBuffer] at hstream
  obtain ⟨result, hevict, hok⟩ := Run.exists_of_bind_ok hstream
  cases hok
  have hfound := find?_of_evict hevict hfind
  rw [OrderedMap.find?_assign] at hfound
  split_ifs at hfound with hk
  · cases hfound
    exact Or.inl ⟨hk, rfl, rfl⟩
  · refine Or.inr ⟨hk, ?_⟩
    rcases hold : s.rtpBufferMap.find? pkt.getSeq with _ | w
    · simpa only [hold] using hfound
    · simpa only [hold, OrderedMap.find?_erase_of_ne hk] using hfound

theorem rtpBufferMap_handleRtcpRr {nowMs : Int} {rrPkt : RtcpRrPacket} {s s' : RtpSendReports}
    (h : s.handleRtcpRr nowMs rrPkt = .ok s') : s'.rtpBufferMap = s.rtpBufferMap := by
  rw [handleRtcpRr] at h
  by_cases hlsr : rrPkt.lsr = 0
  · rw [if_pos hlsr] at h
    cases h
    rfl
  · rw [if_neg hlsr] at h
    obtain ⟨ntp, -, hs'⟩ := Run.exists_of_bind_ok h
    cases hs'
    rfl

theorem rtpBufferMap_onTimer {nowMs : Int} {s : RtpSendReports}
    {r : Option RtcpSrPacket × RtpSendReports} (h : s.onTimer nowMs = .ok r) :
    r.2.rtpBufferMap = s.rtpBufferMap := by
  rw [onTimer] at h
  split_ifs at h
  · obtain ⟨srPkt, -, hr⟩ := Run.exists_of_bind_ok h
    cases hr
    rfl
  · cases h
    rfl
  · obtain ⟨srPkt, -, hr⟩ := Run.exists_of_bind_ok h
    cases hr
    rfl
  · cases h
    rfl

/-- A packet that is stored begins anew. -/
theorem Guarded.send {nowMs : Int} {pkt : RtpPacket} {log : Log} {s s' : RtpSendReports}
    (h : Guarded nowMs log s) (hsend : s.onSendRtpPacket nowMs pkt = .ok s') :
    Guarded nowMs (Function.update log pkt.getSeq []) s' := by
  refine ⟨?_, ?_⟩
  · intro k
    rcases eq_or_ne k pkt.getSeq with rfl | hne
    · rw [Function.update_self]
      exact timely_nil nowMs
    · rw [Function.update_of_ne hne]
      exact h.timely k
  · intro k v hfind
    rcases find?_of_onSendRtpPacket hsend hfind with ⟨rfl, hzero, hcount⟩ | ⟨hne, hold⟩
    · rw [Function.update_self]
      exact ⟨fun _ => hzero, by simp, by simp [hcount]⟩
    · rw [Function.update_of_ne hne]
      exact h.kept k v hold

/-- **Step.**  A step keeps the limits, when its lost numbers are compared. -/
theorem guarded_step {a : Action} {log log' : Log} {s s' : RtpSendReports}
    (h : Guarded a.ms log s) (hcompared : NackCompared a s)
    (hstep : Run.withGhost note step a (log, s) = .ok (log', s')) : Guarded a.ms log' s' := by
  obtain ⟨hstep, hnote⟩ := Run.withGhost_ok.mp hstep
  rw [show log' = note a s log from hnote]
  replace hstep : step a s = .ok s' := hstep
  cases a with
  | send nowMs pkt => exact h.send hstep
  | nack nowMs lostSeqs =>
    rw [step, retransmitAll_eq] at hstep
    exact guarded_turns h hcompared hstep
  | rr nowMs rrPkt => exact h.of_same (rtpBufferMap_handleRtcpRr hstep)
  | timer nowMs =>
    obtain ⟨r, hr, rfl⟩ := Run.exists_of_map_ok hstep
    exact h.of_same (rtpBufferMap_onTimer hr)

/-! ## Runs -/

/-- **Run.**  The limits, from a state with limits on. -/
theorem guarded_run {as : List Action} {nowMs : Int} {log log' : Log} {s s' : RtpSendReports}
    (h : Guarded nowMs log s) (hclock : (nowMs :: as.map Action.ms).Pairwise (· ≤ ·))
    (hcompared : Run.Along step NackCompared as s)
    (hrun : Run.run (Run.withGhost note step) as (log, s) = .ok (log', s')) (seq : UInt16) :
    Limited (log' seq) := by
  induction as generalizing nowMs log s with
  | nil =>
    cases hrun
    exact (h.timely seq).limited
  | cons a as ih =>
    obtain ⟨⟨log₁, s₁⟩, hfirst, hrest⟩ := Run.exists_of_run_cons hrun
    obtain ⟨hle, hclock⟩ := List.pairwise_cons.mp hclock
    have hstep := (Run.withGhost_ok.mp hfirst).1
    have hnow : nowMs ≤ a.ms := hle a.ms (by simp)
    exact ih (guarded_step (h.mono hnow) hcompared.1 hfirst) hclock (hcompared.2 s₁ hstep) hrest

/-- A new stream has stored nothing. -/
def new (mediaType : String) (rtpSsrc : UInt32) (clock : Int) : RtpSendReports :=
  { mediaType := mediaType, rtpSsrc := rtpSsrc, clock := clock }

theorem guarded_new (mediaType : String) (rtpSsrc : UInt32) (clock nowMs : Int) :
    Guarded nowMs (fun _ => []) (new mediaType rtpSsrc clock) :=
  ⟨fun _ => timely_nil nowMs, fun _ _ hfind => by cases hfind⟩

/-- **Retransmission limits.**  Whatever is sent, lost and reported, under a clock that does
not go back, each stored packet is sent again at most twenty times, and two times with
`rtt - 5` milliseconds in between, along every run in which the lost packets are
`Compared`. -/
theorem retransmission_limits {mediaType : String} {rtpSsrc : UInt32} {clock : Int}
    {as : List Action} {log : Log} {s : RtpSendReports}
    (hclock : (as.map Action.ms).Pairwise (· ≤ ·))
    (hcompared : Run.Along step NackCompared as (new mediaType rtpSsrc clock))
    (hrun : Run.run (Run.withGhost note step) as
      (fun _ => [], new mediaType rtpSsrc clock) = .ok (log, s)) (seq : UInt16) :
    Limited (log seq) := by
  cases as with
  | nil =>
    cases hrun
    exact (timely_nil 0).limited
  | cons a as =>
    refine guarded_run (guarded_new mediaType rtpSsrc clock a.ms) ?_ hcompared hrun seq
    refine List.pairwise_cons.mpr ⟨?_, hclock⟩
    intro ms hms
    rcases List.mem_cons.mp hms with rfl | hms
    · exact Int.le_refl _
    · exact (List.pairwise_cons.mp hclock).1 ms hms

/-- A packet, and three times that it is lost. -/
def lostThrice (t₁ t₂ t₃ : Int) : List Action :=
  [.send 0 { data := [128, 96, 0, 1, 7], localMs := 0 }, .nack t₁ [1], .nack t₂ [1], .nack t₃ [1]]

/-- The second time is too early. -/
theorem retransmission_limits_early :
    ∃ log s, Run.run (Run.withGhost note step) (lostThrice 100 110 200)
        (fun _ => [], new "video" 1 90000) = .ok (log, s) ∧
      log 1 = [⟨200, 30⟩, ⟨100, 30⟩] ∧ Limited (log 1) := by
  have heval : (Run.run (Run.withGhost note step) (lostThrice 100 110 200)
      (fun _ => [], new "video" 1 90000)).toOption.map (fun t => t.1 1) =
        some [⟨200, 30⟩, ⟨100, 30⟩] := by decide +kernel
  obtain ⟨⟨log, s⟩, hrun, hlog⟩ := Run.exists_of_map_toOption heval
  exact ⟨log, s, hrun, hlog, retransmission_limits (by decide) (by decide +kernel) hrun 1⟩

/-- With the time of today, the packet is sent again at every millisecond. -/
theorem not_limited_epoch :
    ((lostThrice 1700000000000 1700000000001 1700000000002).map Action.ms).Pairwise (· ≤ ·) ∧
      ∃ log s, Run.run (Run.withGhost note step)
          (lostThrice 1700000000000 1700000000001 1700000000002)
          (fun _ => [], new "video" 1 90000) = .ok (log, s) ∧
        log 1 = [⟨1700000000002, 30⟩, ⟨1700000000001, 30⟩, ⟨1700000000000, 30⟩] ∧
        ¬ Limited (log 1) := by
  refine ⟨by decide, ?_⟩
  have heval : (Run.run (Run.withGhost note step)
      (lostThrice 1700000000000 1700000000001 1700000000002)
      (fun _ => [], new "video" 1 90000)).toOption.map (fun t => t.1 1) =
        some [⟨1700000000002, 30⟩, ⟨1700000000001, 30⟩, ⟨1700000000000, 30⟩] := by
    decide +kernel
  obtain ⟨⟨log, s⟩, hrun, hlog⟩ := Run.exists_of_map_toOption heval
  replace hlog : log 1 = [⟨1700000000002, 30⟩, ⟨1700000000001, 30⟩, ⟨1700000000000, 30⟩] := hlog
  refine ⟨log, s, hrun, hlog, ?_⟩
  rintro ⟨-, hapart⟩
  rw [hlog] at hapart
  have hearly := (List.pairwise_cons.mp hapart).1 ⟨1700000000001, 30⟩ (by simp) (by decide)
  revert hearly
  decide

end RtpSendReports

end MediaServer
