import Mathlib.Logic.Function.Basic
import MediaServer.Lib.Run
import MediaServer.Utils.DataBuffer

/-!
# The send queue of a TCP connection

`net/tcp/tcp_session` and `net/tcp/tcp_client`, as far as they write.  A buffer that is to
be sent goes to the end of a queue.  `do_write` starts a write of the buffer at the front
and marks the buffer, so that it is not started again.  When a write completes, as many
bytes as were written are taken from the front of the queue, the callback `on_write` runs,
and `do_write` starts the next write.

The queue holds pointers: a caller of the second `async_write` may queue a buffer that has
been queued before, and the mark is in the buffer.  The callback may itself call
`async_write` and `close`, so the end of a write carries the calls that it makes.

`boost::asio::async_write` ends without an error only when all bytes of its buffer have
been written.

* `sends_in_order`: at most one write is outstanding, and the bytes that the socket has
  got are the first ones of those that were queued.
* `never_jams_iff`: a queue that is not empty has a write outstanding as long as no write
  of zero bytes completes and no buffer comes to the front that is marked already.
-/

namespace MediaServer

/-- Where a buffer is in memory. -/
abbrev BufferPtr := Nat

/-- A `data_buffer` in a send queue. -/
structure SendBuffer where
  data : DataBuffer := []
  sentFlag : Bool := false
  deriving DecidableEq, Repr

/-- The class that has the queue. -/
inductive TcpOwner where
  | tcpSession
  | tcpClient
  deriving DecidableEq, Repr

/-- A connection as far as it writes.  The last two fields are not kept by the program. -/
structure SendQueue where
  owner : TcpOwner
  /-- `socket_.is_open()`. -/
  isOpen : Bool := true
  /-- `callback_` is not null. -/
  callback : Bool := true
  buffers : BufferPtr → SendBuffer
  sendBufferQueue : List BufferPtr := []
  /-- The writes that have been started and not completed, with their bytes. -/
  outstanding : List Bytes := []
  /-- The bytes that the socket has got. -/
  handed : Bytes := []
  /-- The bytes of the buffers that have been queued. -/
  queued : Bytes := []

namespace SendQueue

/-- `do_write`. -/
def doWrite (s : SendQueue) : SendQueue :=
  match s.sendBufferQueue with
  | [] => s
  | head :: _ =>
    if (s.buffers head).sentFlag then s
    else { s with
      buffers := Function.update s.buffers head { s.buffers head with sentFlag := true }
      outstanding := s.outstanding ++ [(s.buffers head).data]
      handed := s.handed ++ (s.buffers head).data }

/-- The loop of the completion handler, which takes `remain` bytes from the queue. -/
def popWritten (remain : Nat) (buffers : BufferPtr → SendBuffer) :
    List BufferPtr → Except Fault (List BufferPtr × (BufferPtr → SendBuffer))
  | [] => if remain > 0 then .error .outOfBounds else .ok ([], buffers)
  | current :: rest =>
    if remain > 0 then
      let currentLen := (buffers current).data.dataLen
      if currentLen > remain then
        .ok (current :: rest, Function.update buffers current
          { buffers current with data := (buffers current).data.consumeData remain })
      else popWritten (remain - currentLen) buffers rest
    else .ok (current :: rest, buffers)

/-- What callers of a connection do.  The first overload of `async_write`, like
`tcp_client::send`, makes a buffer of its own, at `p`. -/
inductive Call where
  | asyncWriteData (p : BufferPtr) (data : Bytes)
  | asyncWrite (p : BufferPtr)
  | close
  deriving DecidableEq, Repr

/-- A buffer goes to the end of the queue. -/
def push (s : SendQueue) (p : BufferPtr) : SendQueue :=
  doWrite { s with
    sendBufferQueue := s.sendBufferQueue ++ [p]
    queued := s.queued ++ (s.buffers p).data }

/-- `tcp_session` asks whether the socket is open, `tcp_client` does not, and it has only
the first overload.  Memory in use is not handed out again: a buffer is not made where
one is queued. -/
def call (s : SendQueue) : Call → SendQueue
  | .asyncWriteData p data =>
    if s.owner = .tcpSession ∧ s.isOpen = false ∨ p ∈ s.sendBufferQueue then s
    else push { s with buffers := Function.update s.buffers p { data } } p
  | .asyncWrite p =>
    if s.owner = .tcpClient ∨ s.isOpen = false then s else s.push p
  | .close =>
    { s with isOpen := false, callback := s.callback && decide (s.owner = .tcpClient) }

/-- What happens to a connection. -/
inductive Event where
  | call (c : Call)
  /-- The `i`-th outstanding write ends well, and `on_write` makes calls. -/
  | completed (i : Nat) (calls : List Call)
  /-- It ends with an error. -/
  | failed (i : Nat) (calls : List Call)
  deriving DecidableEq, Repr

/-- The completion handler of a write of the bytes `written`. -/
def onCompleted (s : SendQueue) (written : Bytes) (calls : List Call) : Except Fault SendQueue :=
  if s.callback then do
    let (queue, buffers) ← popWritten written.length s.buffers s.sendBufferQueue
    return (calls.foldl call { s with sendBufferQueue := queue, buffers := buffers }).doWrite
  else .ok s

/-- A write that is not outstanding does not end. -/
def step : Event → SendQueue → Except Fault SendQueue
  | .call c, s => .ok (s.call c)
  | .completed i calls, s =>
    match s.outstanding[i]? with
    | none => .ok s
    | some written =>
      onCompleted { s with outstanding := s.outstanding.eraseIdx i } written calls
  | .failed i calls, s =>
    match s.outstanding[i]? with
    | none => .ok s
    | some _ =>
      let s := { s with outstanding := s.outstanding.eraseIdx i }
      .ok (if s.callback then calls.foldl call s else s)

/-- A new connection, with whatever buffers there are in memory. -/
def start (owner : TcpOwner) (buffers : BufferPtr → SendBuffer) : SendQueue := { owner, buffers }

/-! ## Order -/

/-- The bytes of queued buffers. -/
def contents (buffers : BufferPtr → SendBuffer) (queue : List BufferPtr) : Bytes :=
  (queue.map fun p => (buffers p).data).flatten

/-- Either no write is outstanding and nothing that is queued has been handed over, or the
front of the queue has been handed over, and it is the one write that may be
outstanding. -/
inductive Disciplined (s : SendQueue) : Prop where
  | idle (hnone : s.outstanding = [])
      (hbytes : s.queued = s.handed ++ contents s.buffers s.sendBufferQueue)
  | writing {head : BufferPtr} {rest : List BufferPtr} {written : Bytes}
      (hqueue : s.sendBufferQueue = head :: rest)
      (hhead : s.buffers head = { data := written, sentFlag := true })
      (hone : s.outstanding = [written] ∨ s.outstanding = [])
      (hbytes : s.queued = s.handed ++ contents s.buffers rest)

variable {s s' : SendQueue}

theorem contents_append (buffers : BufferPtr → SendBuffer) (queue : List BufferPtr)
    (p : BufferPtr) :
    contents buffers (queue ++ [p]) = contents buffers queue ++ (buffers p).data := by
  simp [contents]

theorem contents_cons (buffers : BufferPtr → SendBuffer) (p : BufferPtr) (queue : List BufferPtr) :
    contents buffers (p :: queue) = (buffers p).data ++ contents buffers queue := rfl

/-- The bytes of a queue depend on the data of its buffers only. -/
theorem contents_congr {buffers buffers' : BufferPtr → SendBuffer} {queue : List BufferPtr}
    (h : ∀ p ∈ queue, (buffers' p).data = (buffers p).data) :
    contents buffers' queue = contents buffers queue := by
  rw [contents, contents, List.map_congr_left h]

theorem Disciplined.doWrite (h : s.Disciplined) : s.doWrite.Disciplined := by
  unfold SendQueue.doWrite
  split
  · exact h
  · rename_i head rest hqueue
    split_ifs with hsent
    · exact h
    cases h with
    | idle hnone hbytes =>
      refine .writing hqueue (Function.update_self ..) (Or.inl ?_) ?_
      · rw [hnone]
        rfl
      · -- the mark does not change the data, also when the front is queued twice
        have hsame : contents (Function.update s.buffers head
            { s.buffers head with sentFlag := true }) rest = contents s.buffers rest := by
          refine contents_congr fun p _ => ?_
          by_cases hp : p = head
          · rw [hp, Function.update_self]
          · rw [Function.update_of_ne hp]
        rw [hqueue, contents_cons, ← List.append_assoc] at hbytes
        rw [hsame, hbytes]
    | writing hqueue' hhead _ _ =>
      rw [hqueue, List.cons.injEq] at hqueue'
      rw [hqueue'.1, hhead] at hsent
      exact absurd rfl hsent

theorem Disciplined.push (h : s.Disciplined) (p : BufferPtr) : (s.push p).Disciplined := by
  refine Disciplined.doWrite ?_
  cases h with
  | idle hnone hbytes =>
    refine .idle hnone ?_
    rw [contents_append, hbytes, List.append_assoc]
  | writing hqueue hhead hone hbytes =>
    refine .writing (by rw [hqueue, List.cons_append]) hhead hone ?_
    rw [contents_append, hbytes, List.append_assoc]

/-- A buffer that is not queued may be written anew. -/
theorem Disciplined.update (h : s.Disciplined) {p : BufferPtr} (hp : p ∉ s.sendBufferQueue)
    (b : SendBuffer) : Disciplined { s with buffers := Function.update s.buffers p b } := by
  have hsame : ∀ queue : List BufferPtr, p ∉ queue →
      contents (Function.update s.buffers p b) queue = contents s.buffers queue := by
    intro queue hqueue
    refine contents_congr fun q hq => ?_
    have hne : q ≠ p := by
      rintro rfl
      exact hqueue hq
    rw [Function.update_of_ne hne]
  cases h with
  | idle hnone hbytes => exact .idle hnone (by rw [hsame _ hp, hbytes])
  | writing hqueue hhead hone hbytes =>
    rw [hqueue, List.mem_cons, not_or] at hp
    refine .writing hqueue ?_ hone (by rw [hsame _ hp.2, hbytes])
    exact (Function.update_of_ne (Ne.symm hp.1) _ _).trans hhead

theorem Disciplined.call (h : s.Disciplined) (c : Call) : (s.call c).Disciplined := by
  cases c with
  | asyncWriteData p data =>
    rw [SendQueue.call]
    split_ifs with hc
    · exact h
    · rw [not_or] at hc
      exact (h.update hc.2 _).push p
  | asyncWrite p =>
    rw [SendQueue.call]
    split_ifs with hc
    · exact h
    · exact h.push p
  | close =>
    cases h with
    | idle hnone hbytes => exact .idle hnone hbytes
    | writing hqueue hhead hone hbytes => exact .writing hqueue hhead hone hbytes

theorem Disciplined.calls (h : s.Disciplined) (calls : List Call) :
    (calls.foldl SendQueue.call s).Disciplined := by
  induction calls generalizing s with
  | nil => exact h
  | cons c rest ih => exact ih (h.call c)

/-- A write of all bytes of the front takes the front from the queue, unless it has
none. -/
theorem popWritten_front {buffers : BufferPtr → SendBuffer} {head : BufferPtr}
    {rest : List BufferPtr} {written : Bytes} (hhead : (buffers head).data = written) :
    popWritten written.length buffers (head :: rest) =
      .ok (if written = [] then head :: rest else rest, buffers) := by
  have hzero : ∀ queue, popWritten 0 buffers queue = .ok (queue, buffers) := by
    intro queue
    cases queue with
    | nil => rfl
    | cons p queue => rfl
  by_cases hne : written = []
  · rw [hne, if_pos rfl]
    exact hzero _
  · have hpos : written.length > 0 := List.length_pos_of_ne_nil hne
    rw [popWritten, if_pos hpos, if_neg hne, hhead]
    simp only [DataBuffer.dataLen, Nat.lt_irrefl, gt_iff_lt, if_false, Nat.sub_self]
    exact hzero _

/-- The outstanding write of a disciplined queue, and what its completion takes away. -/
theorem Disciplined.completed (h : s.Disciplined) {i : Nat} {written : Bytes}
    (hi : s.outstanding[i]? = some written) :
    ∃ head rest, s.sendBufferQueue = head :: rest ∧
      s.buffers head = { data := written, sentFlag := true } ∧
      s.outstanding.eraseIdx i = [] ∧ s.queued = s.handed ++ contents s.buffers rest := by
  cases h with
  | idle hnone hbytes =>
    rw [hnone] at hi
    cases hi
  | @writing head rest written' hqueue hhead hone hbytes =>
    rcases hone with hone | hone
    · rw [hone] at hi
      cases i with
      | zero =>
        cases hi
        exact ⟨head, rest, hqueue, hhead, by rw [hone]; rfl, hbytes⟩
      | succ i => cases hi
    · rw [hone] at hi
      cases hi

/-- The completion handler, when the front of the queue is what was written. -/
theorem step_completed {i : Nat} {written : Bytes} {head : BufferPtr} {rest : List BufferPtr}
    (hi : s.outstanding[i]? = some written) (hqueue : s.sendBufferQueue = head :: rest)
    (hhead : s.buffers head = { data := written, sentFlag := true })
    (hcb : s.callback = true) (calls : List Call) :
    step (.completed i calls) s = .ok (doWrite (calls.foldl call { s with
      sendBufferQueue := if written = [] then head :: rest else rest
      outstanding := s.outstanding.eraseIdx i })) := by
  have hpop : popWritten written.length s.buffers (head :: rest) =
      .ok (if written = [] then head :: rest else rest, s.buffers) :=
    popWritten_front (congrArg SendBuffer.data hhead)
  simp only [step, hi, onCompleted, hcb, if_true, hqueue]
  rw [hpop]
  rfl

/-- Every step is defined and keeps the discipline. -/
theorem Disciplined.step (h : s.Disciplined) (e : Event) :
    ∃ s', SendQueue.step e s = .ok s' ∧ s'.Disciplined := by
  cases e with
  | call c => exact ⟨_, rfl, h.call c⟩
  | completed i calls =>
    rcases hi : s.outstanding[i]? with _ | written
    · exact ⟨s, by rw [SendQueue.step, hi], h⟩
    obtain ⟨head, rest, hqueue, hhead, hnone, hbytes⟩ := h.completed hi
    by_cases hcb : s.callback = true
    · refine ⟨_, step_completed hi hqueue hhead hcb calls, ?_⟩
      refine Disciplined.doWrite (Disciplined.calls ?_ calls)
      by_cases hne : written = []
      · rw [if_pos hne]
        exact .writing rfl hhead (Or.inr hnone) hbytes
      · rw [if_neg hne]
        exact .idle hnone hbytes
    · refine ⟨{ s with outstanding := s.outstanding.eraseIdx i }, ?_, ?_⟩
      · simp only [SendQueue.step, hi, onCompleted, hcb]
        rfl
      · exact .writing hqueue hhead (Or.inr hnone) hbytes
  | failed i calls =>
    rcases hi : s.outstanding[i]? with _ | written
    · exact ⟨s, by rw [SendQueue.step, hi], h⟩
    obtain ⟨head, rest, hqueue, hhead, hnone, hbytes⟩ := h.completed hi
    have hlast : Disciplined { s with outstanding := s.outstanding.eraseIdx i } :=
      .writing hqueue hhead (Or.inr hnone) hbytes
    refine ⟨_, by rw [SendQueue.step, hi], ?_⟩
    split_ifs
    · exact hlast.calls calls
    · exact hlast

theorem disciplined_start (owner : TcpOwner) (buffers : BufferPtr → SendBuffer) :
    (start owner buffers).Disciplined := .idle rfl rfl

/-- Every run is defined and ends in a disciplined state. -/
theorem exists_run (owner : TcpOwner) (buffers : BufferPtr → SendBuffer) (events : List Event) :
    ∃ s, Run.run step events (start owner buffers) = .ok s ∧ s.Disciplined := by
  have hkeep : ∀ e s s', Disciplined s → step e s = .ok s' → s'.Disciplined := by
    intro e s s' h hs'
    obtain ⟨t, ht, hd⟩ := h.step e
    rw [hs', Except.ok.injEq] at ht
    rwa [ht]
  obtain ⟨s, hs⟩ := Run.exists_run_ok (fun e s s' h (_ : True) => hkeep e s s' h)
    (fun e s h _ => (h.step e).imp fun _ ht => ht.1) (disciplined_start owner buffers)
    (Run.along_of_forall (fun _ _ => trivial) events _)
  exact ⟨s, hs, Run.run_preserves hkeep (disciplined_start owner buffers) hs⟩

/-- The buffers that are queued but not handed to the socket: all of the queue, when no write
is outstanding, or all but its front. -/
def Waiting (s : SendQueue) (waiting : List BufferPtr) : Prop :=
  (s.outstanding = [] ∧ waiting = s.sendBufferQueue) ∨
    ∃ head, s.sendBufferQueue = head :: waiting ∧ ∀ w ∈ s.outstanding, (s.buffers head).data = w

/-- **Order.**  In every run at most one write is outstanding, which is that of the front of the
queue, and what the socket has got is the beginning of what was queued: it is followed by what
waits in the queue, in the order of the queue. -/
theorem sends_in_order (owner : TcpOwner) (buffers : BufferPtr → SendBuffer)
    (events : List Event) :
    ∃ s, Run.run step events (start owner buffers) = .ok s ∧ s.outstanding.length ≤ 1 ∧
      s.handed <+: s.queued ∧
      ∃ waiting, s.Waiting waiting ∧ s.queued = s.handed ++ contents s.buffers waiting := by
  obtain ⟨s, hs, h⟩ := exists_run owner buffers events
  cases h with
  | idle hnone hbytes =>
    refine ⟨s, hs, ?_, ⟨_, hbytes.symm⟩, _, Or.inl ⟨hnone, rfl⟩, hbytes⟩
    rw [hnone]
    exact Nat.zero_le 1
  | @writing head rest written hqueue hhead hone hbytes =>
    refine ⟨s, hs, ?_, ⟨_, hbytes.symm⟩, rest, Or.inr ⟨head, hqueue, ?_⟩, hbytes⟩
    · rcases hone with hone | hone
      · simp [hone]
      · simp [hone]
    · intro w hw
      rcases hone with hone | hone
      · rw [hone, List.mem_singleton] at hw
        rw [hw, hhead]
      · rw [hone] at hw
        cases hw

/-- Two buffers are queued, and their writes complete.  The last callback queues one more,
in memory that is free again. -/
def twoWrites : List Event :=
  [.call (.asyncWriteData 0 [1, 2]), .call (.asyncWriteData 1 [3]), .completed 0 [],
    .completed 0 [.asyncWriteData 0 [4]]]

/-- All bytes are sent, in the order of the calls. -/
theorem sends_in_order_two :
    ∃ s, Run.run step twoWrites (start .tcpSession fun _ => {}) = .ok s ∧
      s.outstanding = [[4]] ∧ s.handed = [1, 2, 3, 4] ∧ s.handed <+: s.queued := by
  obtain ⟨s, hs, -, hprefix, -⟩ := sends_in_order .tcpSession (fun _ => {}) twoWrites
  have hsent := Run.eq_of_map_toOption hs (f := fun s => (s.outstanding, s.handed))
    (b := ([[4]], [1, 2, 3, 4])) (by decide +kernel)
  rw [Prod.mk.injEq] at hsent
  exact ⟨s, hs, hsent.1, hsent.2, hprefix⟩

/-! ## Progress -/

/-- Something is queued, and nothing will ever send it. -/
def Jammed (s : SendQueue) : Prop := s.sendBufferQueue ≠ [] ∧ s.outstanding = []

/-- Calls of `async_write` and writes that end well. -/
def Event.Successful : Event → Prop
  | .call c => c ≠ .close
  | .completed _ calls => Call.close ∉ calls
  | .failed _ _ => False

/-- The buffer that a call queues has no mark. -/
def Call.Fresh (s : SendQueue) : Call → Prop
  | .asyncWrite p => (s.buffers p).sentFlag = false
  | _ => True

/-- The buffer that is the next one of the queue, or else of the calls, has no mark. -/
def NextFresh (s : SendQueue) : List BufferPtr → List Call → Prop
  | next :: _, _ => (s.buffers next).sentFlag = false
  | [], c :: _ => c.Fresh s
  | [], [] => True

/-- A call that finds the queue empty does not queue a marked buffer.  A write that
completes is not empty, and no marked buffer comes to the front behind it. -/
def KeepsMoving : Event → SendQueue → Prop
  | .call c, s => s.sendBufferQueue = [] → c.Fresh s
  | .completed i calls, s =>
    match s.outstanding[i]? with
    | none => True
    | some written => written ≠ [] ∧ s.NextFresh s.sendBufferQueue.tail calls
  | .failed _ _, _ => True

instance (s : SendQueue) (c : Call) : Decidable (c.Fresh s) :=
  match c with
  | .asyncWriteData _ _ => .isTrue trivial
  | .asyncWrite p => inferInstanceAs (Decidable ((s.buffers p).sentFlag = false))
  | .close => .isTrue trivial

instance (s : SendQueue) (queue : List BufferPtr) (calls : List Call) :
    Decidable (s.NextFresh queue calls) :=
  match queue, calls with
  | next :: _, _ => inferInstanceAs (Decidable ((s.buffers next).sentFlag = false))
  | [], c :: _ => inferInstanceAs (Decidable (c.Fresh s))
  | [], [] => .isTrue trivial

instance (e : Event) (s : SendQueue) : Decidable (KeepsMoving e s) :=
  match e with
  | .call c => inferInstanceAs (Decidable (s.sendBufferQueue = [] → c.Fresh s))
  | .completed i calls =>
    match h : s.outstanding[i]? with
    | none => .isTrue (by simp only [KeepsMoving, h])
    | some written =>
      decidable_of_iff (written ≠ [] ∧ s.NextFresh s.sendBufferQueue.tail calls)
        (by simp only [KeepsMoving, h])
  | .failed _ _ => .isTrue trivial

instance (e : Event) : Decidable e.Successful :=
  match e with
  | .call c => inferInstanceAs (Decidable (c ≠ .close))
  | .completed _ calls => inferInstanceAs (Decidable (Call.close ∉ calls))
  | .failed _ _ => .isFalse id

/-- A session that has not been closed. -/
structure Live (s : SendQueue) : Prop where
  owner : s.owner = .tcpSession
  isOpen : s.isOpen = true
  callback : s.callback = true

/-- The front of the queue is marked, and no write is outstanding. -/
def Stuck (s : SendQueue) : Prop :=
  s.outstanding = [] ∧ ∃ head rest, s.sendBufferQueue = head :: rest ∧
    (s.buffers head).sentFlag = true

/-- The front of the queue has no mark, or a write is outstanding. -/
def Going (s : SendQueue) : Prop :=
  s.outstanding ≠ [] ∨ ∃ head rest, s.sendBufferQueue = head :: rest ∧
    (s.buffers head).sentFlag = false

theorem Stuck.jammed (h : s.Stuck) : s.Jammed := by
  obtain ⟨hnone, head, rest, hqueue, -⟩ := h
  exact ⟨by simp [hqueue], hnone⟩

theorem Live.doWrite (h : s.Live) : s.doWrite.Live := by
  unfold SendQueue.doWrite
  split
  · exact h
  · split_ifs
    · exact h
    · exact ⟨h.owner, h.isOpen, h.callback⟩

theorem Live.call (h : s.Live) {c : Call} (hc : c ≠ .close) : (s.call c).Live := by
  cases c with
  | asyncWriteData p data =>
    rw [SendQueue.call]
    split_ifs
    · exact h
    · exact Live.doWrite ⟨h.owner, h.isOpen, h.callback⟩
  | asyncWrite p =>
    rw [SendQueue.call]
    split_ifs
    · exact h
    · exact Live.doWrite ⟨h.owner, h.isOpen, h.callback⟩
  | close => exact absurd rfl hc

theorem Stuck.doWrite_eq (h : s.Stuck) : s.doWrite = s := by
  obtain ⟨-, head, rest, hqueue, hsent⟩ := h
  simp only [doWrite, hqueue, hsent, if_true]

theorem Stuck.push (h : s.Stuck) (p : BufferPtr) : (s.push p).Stuck := by
  obtain ⟨hnone, head, rest, hqueue, hsent⟩ := h
  have hlong : Stuck { s with
      sendBufferQueue := s.sendBufferQueue ++ [p]
      queued := s.queued ++ (s.buffers p).data } :=
    ⟨hnone, head, rest ++ [p], by rw [hqueue, List.cons_append], hsent⟩
  rw [SendQueue.push, hlong.doWrite_eq]
  exact hlong

/-- No call helps a queue that is stuck. -/
theorem Stuck.call (h : s.Stuck) (c : Call) : (s.call c).Stuck := by
  cases c with
  | asyncWriteData p data =>
    rw [SendQueue.call]
    split_ifs with hc
    · exact h
    · obtain ⟨hnone, head, rest, hqueue, hsent⟩ := h
      rw [not_or, hqueue, List.mem_cons, not_or] at hc
      have hstuck : Stuck { s with buffers := Function.update s.buffers p { data } } := by
        refine ⟨hnone, head, rest, hqueue, ?_⟩
        show (Function.update s.buffers p { data } head).sentFlag = true
        rw [Function.update_of_ne (Ne.symm hc.2.1), hsent]
      exact hstuck.push p
  | asyncWrite p =>
    rw [SendQueue.call]
    split_ifs
    · exact h
    · exact h.push p
  | close => exact h

theorem Stuck.calls (h : s.Stuck) (calls : List Call) : (calls.foldl SendQueue.call s).Stuck := by
  induction calls generalizing s with
  | nil => exact h
  | cons c rest ih => exact ih (h.call c)

theorem Going.doWrite (h : s.Going) : s.doWrite.outstanding ≠ [] := by
  unfold SendQueue.doWrite
  rcases h with h | ⟨head, rest, hqueue, hsent⟩
  · split
    · exact h
    · split_ifs
      · exact h
      · simp
  · simp [hqueue, hsent]

theorem Going.push (h : s.Going) (p : BufferPtr) : (s.push p).Going := by
  refine Or.inl (Going.doWrite ?_)
  rcases h with h | ⟨head, rest, hqueue, hsent⟩
  · exact Or.inl h
  · exact Or.inr ⟨head, rest ++ [p], by rw [hqueue, List.cons_append], hsent⟩

/-- A queue that goes on is not stopped by a call. -/
theorem Going.call (h : s.Going) (c : Call) : (s.call c).Going := by
  cases c with
  | asyncWriteData p data =>
    rw [SendQueue.call]
    split_ifs with hc
    · exact h
    · refine Going.push ?_ p
      rcases h with h | ⟨head, rest, hqueue, hsent⟩
      · exact Or.inl h
      · rw [not_or, hqueue, List.mem_cons, not_or] at hc
        refine Or.inr ⟨head, rest, hqueue, ?_⟩
        show (Function.update s.buffers p { data } head).sentFlag = false
        rw [Function.update_of_ne (Ne.symm hc.2.1), hsent]
  | asyncWrite p =>
    rw [SendQueue.call]
    split_ifs
    · exact h
    · exact h.push p
  | close => exact h

theorem Going.calls (h : s.Going) (calls : List Call) : (calls.foldl SendQueue.call s).Going := by
  induction calls generalizing s with
  | nil => exact h
  | cons c rest ih => exact ih (h.call c)

/-- A call that finds the queue empty starts a write exactly when its buffer has no
mark. -/
theorem call_of_empty (hlive : s.Live) (hqueue : s.sendBufferQueue = [])
    (hnone : s.outstanding = []) {c : Call} (hc : c ≠ .close) :
    (c.Fresh s → (s.call c).outstanding ≠ []) ∧ (¬ c.Fresh s → (s.call c).Stuck) := by
  cases c with
  | asyncWriteData p data =>
    refine ⟨fun _ => ?_, fun hfresh => absurd trivial hfresh⟩
    rw [SendQueue.call, if_neg (by simp [hlive.isOpen, hqueue])]
    refine Going.doWrite (Or.inr ⟨p, [], by simp [hqueue], ?_⟩)
    show (Function.update s.buffers p { data } p).sentFlag = false
    rw [Function.update_self]
  | asyncWrite p =>
    rw [SendQueue.call, if_neg (by simp [hlive.owner, hlive.isOpen])]
    constructor
    · intro hfresh
      exact Going.doWrite (Or.inr ⟨p, [], by simp [hqueue], hfresh⟩)
    · intro hfresh
      have hstuck : Stuck { s with
          sendBufferQueue := s.sendBufferQueue ++ [p]
          queued := s.queued ++ (s.buffers p).data } :=
        ⟨hnone, p, [], by simp [hqueue], by simpa [Call.Fresh] using hfresh⟩
      rw [push, hstuck.doWrite_eq]
      exact hstuck
  | close => exact absurd rfl hc

/-- A write that is outstanding stays so during a call. -/
theorem outstanding_call (h : s.outstanding ≠ []) (c : Call) : (s.call c).outstanding ≠ [] := by
  cases c with
  | asyncWriteData p data =>
    rw [SendQueue.call]
    split_ifs
    · exact h
    · exact Going.doWrite (Or.inl h)
  | asyncWrite p =>
    rw [SendQueue.call]
    split_ifs
    · exact h
    · exact Going.doWrite (Or.inl h)
  | close => exact h

theorem not_jammed_of_going (h : s.Going) (calls : List Call) :
    ¬ Jammed (doWrite (calls.foldl call s)) := fun hjam => (h.calls calls).doWrite hjam.2

theorem jammed_of_stuck (h : s.Stuck) (calls : List Call) :
    Jammed (doWrite (calls.foldl call s)) := by
  rw [(h.calls calls).doWrite_eq]
  exact (h.calls calls).jammed

/-- Behind a write that was not empty, the queue jams exactly when the next buffer is
marked. -/
theorem not_jammed_iff_nextFresh (hlive : s.Live) (hnone : s.outstanding = []) {calls : List Call}
    (hcalls : Call.close ∉ calls) :
    ¬ Jammed (doWrite (calls.foldl call s)) ↔ s.NextFresh s.sendBufferQueue calls := by
  rcases hqueue : s.sendBufferQueue with _ | ⟨next, rest⟩
  · cases calls with
    | nil =>
      refine iff_of_true ?_ trivial
      rintro ⟨hne, -⟩
      simp only [List.foldl_nil, doWrite, hqueue] at hne
      exact hne rfl
    | cons c rest =>
      rw [List.mem_cons, not_or] at hcalls
      obtain ⟨hgoing, hstuck⟩ := call_of_empty hlive hqueue hnone (Ne.symm hcalls.1)
      by_cases hfresh : c.Fresh s
      · exact iff_of_true (not_jammed_of_going (Or.inl (hgoing hfresh)) rest) hfresh
      · exact iff_of_false (not_not.mpr (jammed_of_stuck (hstuck hfresh) rest)) hfresh
  · by_cases hsent : (s.buffers next).sentFlag = true
    · refine iff_of_false
        (not_not.mpr (jammed_of_stuck ⟨hnone, next, rest, hqueue, hsent⟩ calls)) ?_
      simp [NextFresh, hsent]
    · rw [Bool.not_eq_true] at hsent
      exact iff_of_true (not_jammed_of_going (Or.inr ⟨next, rest, hqueue, hsent⟩) calls) hsent

/-- A step from a state that is not jammed leads to one that is not exactly when it keeps
the queue moving. -/
theorem not_jammed_step_iff (hd : s.Disciplined) (hlive : s.Live) {e : Event}
    (he : e.Successful) (hjam : ¬ s.Jammed) (hstep : step e s = .ok s') :
    ¬ s'.Jammed ↔ KeepsMoving e s := by
  cases e with
  | call c =>
    cases hstep
    by_cases hqueue : s.sendBufferQueue = []
    · have hnone : s.outstanding = [] := by
        cases hd with
        | idle hnone _ => exact hnone
        | writing hqueue' _ _ _ =>
          rw [hqueue] at hqueue'
          cases hqueue'
      obtain ⟨hgoing, hstuck⟩ := call_of_empty hlive hqueue hnone he
      by_cases hfresh : c.Fresh s
      · exact iff_of_true (fun h => hgoing hfresh h.2) fun _ => hfresh
      · refine iff_of_false (not_not.mpr (hstuck hfresh).jammed) fun h => hfresh (h hqueue)
    · have hbusy : s.outstanding ≠ [] := fun hnone => hjam ⟨hqueue, hnone⟩
      exact iff_of_true (fun h => outstanding_call hbusy c h.2) fun h => absurd h hqueue
  | completed i calls =>
    rcases hi : s.outstanding[i]? with _ | written
    · rw [step, hi] at hstep
      cases hstep
      exact iff_of_true hjam (by simp only [KeepsMoving, hi])
    obtain ⟨head, rest, hqueue, hhead, hnone, -⟩ := hd.completed hi
    rw [step_completed hi hqueue hhead hlive.callback, Except.ok.injEq] at hstep
    subst hstep
    by_cases hne : written = []
    · -- the front keeps its mark and its place
      rw [if_pos hne]
      refine iff_of_false (not_not.mpr (jammed_of_stuck ?_ calls)) ?_
      swap
      · simp only [KeepsMoving, hi]
        exact fun h => h.1 hne
      exact ⟨hnone, head, rest, rfl, congrArg SendBuffer.sentFlag hhead⟩
    · rw [if_neg hne]
      have hlive' : Live { s with
          sendBufferQueue := rest, outstanding := s.outstanding.eraseIdx i } :=
        ⟨hlive.owner, hlive.isOpen, hlive.callback⟩
      rw [not_jammed_iff_nextFresh hlive' hnone he]
      have hsame : NextFresh { s with
            sendBufferQueue := rest, outstanding := s.outstanding.eraseIdx i } rest calls ↔
          s.NextFresh s.sendBufferQueue.tail calls := by
        rw [hqueue, List.tail_cons]
        rcases rest with _ | ⟨next, rest⟩
        · rcases calls with _ | ⟨c, calls⟩
          · exact Iff.rfl
          · cases c with
            | asyncWriteData p data => exact Iff.rfl
            | asyncWrite p => exact Iff.rfl
            | close => exact Iff.rfl
        · exact Iff.rfl
      simp only [KeepsMoving, hi]
      rw [hsame]
      exact ⟨fun hfresh => ⟨hne, hfresh⟩, fun h => h.2⟩
  | failed i calls => exact absurd he id

theorem Live.calls (h : s.Live) {calls : List Call} (hcalls : Call.close ∉ calls) :
    (calls.foldl SendQueue.call s).Live := by
  induction calls generalizing s with
  | nil => exact h
  | cons c rest ih =>
    rw [List.mem_cons, not_or] at hcalls
    exact ih (h.call (Ne.symm hcalls.1)) hcalls.2

/-- A session stays open while its writes end well. -/
theorem live_step (hd : s.Disciplined) (hlive : s.Live) {e : Event} (he : e.Successful)
    (hstep : step e s = .ok s') : s'.Live := by
  cases e with
  | call c =>
    cases hstep
    exact hlive.call he
  | completed i calls =>
    rcases hi : s.outstanding[i]? with _ | written
    · rw [step, hi] at hstep
      cases hstep
      exact hlive
    obtain ⟨head, rest, hqueue, hhead, -, -⟩ := hd.completed hi
    rw [step_completed hi hqueue hhead hlive.callback, Except.ok.injEq] at hstep
    subst hstep
    have hlive' : Live { s with
        sendBufferQueue := if written = [] then head :: rest else rest
        outstanding := s.outstanding.eraseIdx i } :=
      ⟨hlive.owner, hlive.isOpen, hlive.callback⟩
    exact (hlive'.calls he).doWrite
  | failed i calls => exact absurd he id

/-- **Progress.**  In a run of calls of `async_write` and of writes that end well, the
queue never jams exactly when every step keeps it moving. -/
theorem never_jams_iff (buffers : BufferPtr → SendBuffer) {events : List Event}
    (hevents : ∀ e ∈ events, e.Successful) :
    (∀ pre s, pre <+: events → Run.run step pre (start .tcpSession buffers) = .ok s →
      ¬ s.Jammed) ↔ Run.Along step KeepsMoving events (start .tcpSession buffers) := by
  obtain ⟨t, ht, -⟩ := exists_run .tcpSession buffers events
  have hinv : ∀ e s s', Disciplined s ∧ Live s → e.Successful → step e s = .ok s' →
      Disciplined s' ∧ Live s' := by
    intro e s s' h he hs
    obtain ⟨t, ht, hd⟩ := h.1.step e
    rw [hs, Except.ok.injEq] at ht
    rw [ht]
    exact ⟨hd, live_step h.1 h.2 he (ht ▸ hs)⟩
  exact Run.forall_prefix_iff_along_of hinv
    (fun e s s' h he hjam hs => not_jammed_step_iff h.1 h.2 he hjam hs)
    ⟨disciplined_start _ _, rfl, rfl, rfl⟩ (fun h => h.1 rfl)
    (Run.along_of_forall_mem hevents _) ht

theorem never_jams_two :
    (∀ e ∈ twoWrites, e.Successful) ∧
      ∀ pre s, pre <+: twoWrites →
        Run.run step pre (start .tcpSession fun _ => {}) = .ok s → ¬ s.Jammed :=
  ⟨by decide, (never_jams_iff (fun _ => {}) (by decide)).mpr (by decide +kernel)⟩

/-- `http_response::write` of a body without bytes: the status line and the headers, here
one byte, and then the body. -/
def emptyBody : List Event :=
  [.call (.asyncWriteData 0 [72]), .call (.asyncWriteData 1 []), .completed 0 [], .completed 0 []]

/-- The buffer of an empty body stays at the front for ever. -/
theorem not_never_jams_empty :
    (∀ e ∈ emptyBody, e.Successful) ∧
      ∃ s, Run.run step emptyBody (start .tcpSession fun _ => {}) = .ok s ∧ s.Jammed := by
  refine ⟨by decide, ?_⟩
  obtain ⟨s, hs, hfields⟩ := Run.exists_of_map_toOption
    (x := Run.run step emptyBody (start .tcpSession fun _ => {}))
    (f := fun s => (s.sendBufferQueue, s.outstanding)) (b := ([1], [])) (by decide +kernel)
  rw [Prod.mk.injEq] at hfields
  exact ⟨s, hs, by simp [hfields.1], hfields.2⟩

end SendQueue

end MediaServer
