import MediaServer.Lib.Run
import MediaServer.Utils.DataBuffer

/-!
# The UDP socket

`net/udp/udp_server`.  One receive is always pending.  `async_receive_from` stores the
datagram in `buffer_` and its sender in `remote_ep_`, and later the completion handler
takes the address from there.  Other handlers may run in between.  `do_write` stores the
destination of a datagram that is sent in the same `remote_ep_`.

`keeps_source_iff` says when every datagram is reported with the address it came from:
exactly when no send to another address is started while a datagram waits for its handler.
-/

namespace MediaServer

/-- The bytes of a decimal number. -/
def decimal (n : Nat) : Bytes := (Nat.toDigits 10 n).map fun c => c.toNat.toUInt8

/-- `udp_tuple`. -/
structure UdpTuple where
  ipAddress : Bytes
  port : UInt16
  deriving DecidableEq, Repr

/-- `to_string`. -/
def UdpTuple.toText (address : UdpTuple) : Bytes :=
  address.ipAddress ++ ascii ":" ++ decimal address.port.toNat

/-- `boost::asio::ip::address`, whose `from_string` throws when a text is no address. -/
structure AsioIp (α : Type) where
  fromString : Bytes → Option α
  toText : α → Bytes

/-- `boost::asio::ip::udp::endpoint`. -/
structure Endpoint (α : Type) where
  address : α
  port : UInt16

/-- The address of an endpoint as the callbacks get it. -/
def AsioIp.tuple {α : Type} (ip : AsioIp α) (ep : Endpoint α) : UdpTuple :=
  { ipAddress := ip.toText ep.address, port := ep.port }

/-- The room for a datagram. -/
def UDP_DATA_BUFFER_MAX : Nat := 1500

/-- A `data_buffer` in the send queue. -/
structure UdpBuffer where
  data : Bytes
  dst : UdpTuple
  sentFlag : Bool := false

/-- What has become of the receive that was started last. -/
inductive Receive (α : Type) where
  | pending
  /-- The datagram and its sender are stored, and the completion handler has not run. -/
  | received (data : Bytes) (source : Endpoint α)
  /-- An error has come, after which no receive is started. -/
  | stopped

/-- A call of `on_read`, with the sender of the datagram, which the program does not
know. -/
structure OnRead (α : Type) where
  data : Bytes
  address : UdpTuple
  source : Endpoint α

/-- `udp_server`. -/
structure UdpServer (α : Type) where
  remoteEp : Endpoint α
  sendBufferQueue : List UdpBuffer := []
  receive : Receive α := .pending
  /-- The sends that have been started and not completed. -/
  sending : List (Bytes × Endpoint α) := []
  /-- The calls of `on_read` so far. -/
  reads : List (OnRead α) := []

namespace UdpServer

variable {α : Type} (ip : AsioIp α)

/-- `do_write`.  An address that cannot be read throws, with the mark already set. -/
def doWrite (s : UdpServer α) : UdpServer α :=
  match s.sendBufferQueue with
  | [] => s
  | head :: rest =>
    if head.sentFlag then s
    else
      let s := { s with sendBufferQueue := { head with sentFlag := true } :: rest }
      match ip.fromString head.dst.ipAddress with
      | none => s
      | some address =>
        let ep : Endpoint α := { address, port := head.dst.port }
        { s with remoteEp := ep, sending := s.sending ++ [(head.data, ep)] }

/-- A datagram that is to be sent. -/
structure Write where
  data : Bytes
  dst : UdpTuple

/-- The datagram in the queue. -/
def Write.buffer (w : Write) : UdpBuffer := { data := w.data, dst := w.dst }

/-- `write`.  A caller catches what it throws. -/
def write (s : UdpServer α) (w : Write) : UdpServer α :=
  doWrite ip { s with sendBufferQueue := s.sendBufferQueue ++ [w.buffer] }

/-- What happens to the server. -/
inductive Event (α : Type) where
  /-- A datagram comes in. -/
  | arrive (data : Bytes) (source : Endpoint α)
  | receiveFailed
  /-- The completion handler of a receive runs, and `on_read` writes datagrams. -/
  | receiveHandled (writes : List Write)
  | write (w : Write)
  /-- The completion handler of the `i`-th send runs, and `on_write` writes datagrams. -/
  | sendHandled (i : Nat) (writes : List Write)

/-- A datagram that comes while no receive is pending is left in the socket, and comes in
later. -/
def step : Event α → UdpServer α → Except Fault (UdpServer α)
  | .arrive data source, s =>
    match s.receive with
    | .pending => .ok { s with
        remoteEp := source, receive := .received (data.take UDP_DATA_BUFFER_MAX) source }
    | _ => .ok s
  | .receiveFailed, s =>
    match s.receive with
    | .pending => .ok { s with receive := .stopped }
    | _ => .ok s
  | .receiveHandled writes, s =>
    match s.receive with
    | .received data source =>
      let s := { s with reads := s.reads ++ [{ data, address := ip.tuple s.remoteEp, source }] }
      .ok { writes.foldl (write ip) s with receive := .pending }
    | _ => .ok s
  | .write w, s => .ok (s.write ip w)
  | .sendHandled i writes, s =>
    match s.sending[i]? with
    | none => .ok s
    | some _ =>
      match s.sendBufferQueue with
      | [] => .error .outOfBounds
      | _ :: rest =>
        let s := { s with sending := s.sending.eraseIdx i, sendBufferQueue := rest }
        .ok (doWrite ip (writes.foldl (write ip) s))

/-- A new server.  The first receive is started by the constructor. -/
def start (remoteEp : Endpoint α) : UdpServer α := { remoteEp }

/-! ## What a write does to the endpoint -/

/-- The endpoint that `do_write` stores. -/
def nextEndpoint : List UdpBuffer → Option (Endpoint α)
  | [] => none
  | head :: _ =>
    if head.sentFlag then none
    else (ip.fromString head.dst.ipAddress).map fun address => { address, port := head.dst.port }

/-- `do_write` touches the endpoint and the queue, and it leaves the front of the queue
marked. -/
theorem doWrite_spec (s : UdpServer α) :
    (s.doWrite ip).remoteEp = (nextEndpoint ip s.sendBufferQueue).getD s.remoteEp ∧
      (s.doWrite ip).receive = s.receive ∧ (s.doWrite ip).reads = s.reads ∧
      (s.sendBufferQueue ≠ [] →
        ∃ head rest, (s.doWrite ip).sendBufferQueue = head :: rest ∧ head.sentFlag = true) := by
  unfold doWrite nextEndpoint
  rcases hqueue : s.sendBufferQueue with _ | ⟨head, rest⟩
  · exact ⟨rfl, rfl, rfl, fun hne => absurd rfl hne⟩
  · by_cases hsent : head.sentFlag = true
    · simp only [hsent, if_true, true_and]
      exact ⟨rfl, fun _ => ⟨head, rest, hqueue, hsent⟩⟩
    · simp only [hsent]
      rcases ip.fromString head.dst.ipAddress with _ | address
      · exact ⟨rfl, rfl, rfl, fun _ => ⟨_, rest, rfl, rfl⟩⟩
      · exact ⟨rfl, rfl, rfl, fun _ => ⟨_, rest, rfl, rfl⟩⟩

theorem write_spec (s : UdpServer α) (w : Write) :
    (s.write ip w).remoteEp =
        (nextEndpoint ip (s.sendBufferQueue ++ [w.buffer])).getD s.remoteEp ∧
      (s.write ip w).receive = s.receive ∧ (s.write ip w).reads = s.reads ∧
      ∃ head rest, (s.write ip w).sendBufferQueue = head :: rest ∧ head.sentFlag = true := by
  obtain ⟨hep, hreceive, hreads, hfront⟩ :=
    doWrite_spec ip { s with sendBufferQueue := s.sendBufferQueue ++ [w.buffer] }
  exact ⟨hep, hreceive, hreads, hfront (by simp)⟩

variable {ip} {s s' : UdpServer α}

/-- Behind a marked front, nothing is started. -/
theorem nextEndpoint_of_sent {head : UdpBuffer} (h : head.sentFlag = true)
    (rest : List UdpBuffer) : nextEndpoint ip (head :: rest) = none := by
  simp [nextEndpoint, h]

/-- Writes behind a marked front change the queue only. -/
theorem writes_of_sent {head : UdpBuffer} {rest : List UdpBuffer}
    (hqueue : s.sendBufferQueue = head :: rest) (hsent : head.sentFlag = true)
    (writes : List Write) :
    (doWrite ip (writes.foldl (write ip) s)).remoteEp = s.remoteEp := by
  induction writes generalizing s head rest with
  | nil =>
    rw [List.foldl_nil, (doWrite_spec ip s).1, hqueue, nextEndpoint_of_sent hsent]
    rfl
  | cons w writes ih =>
    obtain ⟨hep, -, -, head', rest', hqueue', hsent'⟩ := write_spec ip s w
    rw [List.foldl_cons, ih hqueue' hsent', hep, hqueue, List.cons_append,
      nextEndpoint_of_sent hsent]
    rfl

/-- Writes and a `do_write` behind them store one endpoint: that of the first datagram. -/
theorem writes_remoteEp (s : UdpServer α) (writes : List Write) :
    (doWrite ip (writes.foldl (write ip) s)).remoteEp =
      (nextEndpoint ip (s.sendBufferQueue ++ writes.map Write.buffer)).getD s.remoteEp := by
  cases writes with
  | nil => rw [List.foldl_nil, (doWrite_spec ip s).1, List.map_nil, List.append_nil]
  | cons w writes =>
    obtain ⟨hep, -, -, head', rest', hqueue', hsent'⟩ := write_spec ip s w
    rw [List.foldl_cons, writes_of_sent hqueue' hsent', hep]
    rcases s.sendBufferQueue with _ | ⟨head, rest⟩
    · rfl
    · rfl

theorem writes_frame (s : UdpServer α) (writes : List Write) :
    (writes.foldl (write ip) s).receive = s.receive ∧
      (writes.foldl (write ip) s).reads = s.reads := by
  induction writes generalizing s with
  | nil => exact ⟨rfl, rfl⟩
  | cons w writes ih =>
    obtain ⟨-, hreceive, hreads, -⟩ := write_spec ip s w
    obtain ⟨hreceive', hreads'⟩ := ih (s.write ip w)
    exact ⟨hreceive'.trans hreceive, hreads'.trans hreads⟩

/-! ## Every run is defined -/

/-- At most one send is outstanding, and then the queue is not empty and its front is
marked. -/
def Orderly (s : UdpServer α) : Prop :=
  (∃ head rest, s.sendBufferQueue = head :: rest ∧ head.sentFlag = true ∧ s.sending.length ≤ 1) ∨
    s.sending = []

theorem Orderly.doWrite (h : s.Orderly) : (s.doWrite ip).Orderly := by
  unfold UdpServer.doWrite
  rcases hqueue : s.sendBufferQueue with _ | ⟨head, rest⟩
  · exact h
  · by_cases hsent : head.sentFlag = true
    · simp only [hsent, if_true]
      exact h
    · have hnone : s.sending = [] := by
        rcases h with ⟨head', rest', hqueue', hsent', -⟩ | h
        · rw [hqueue, List.cons.injEq] at hqueue'
          rw [hqueue'.1] at hsent
          exact absurd hsent' hsent
        · exact h
      simp only [hsent]
      rcases ip.fromString head.dst.ipAddress with _ | address
      · exact Or.inr hnone
      · exact Or.inl ⟨_, rest, rfl, rfl, by simp [hnone]⟩

theorem Orderly.write (h : s.Orderly) (w : Write) : (s.write ip w).Orderly := by
  refine Orderly.doWrite ?_
  rcases h with ⟨head, rest, hqueue, hsent, hone⟩ | h
  · exact Or.inl ⟨head, rest ++ [w.buffer], by rw [hqueue, List.cons_append], hsent, hone⟩
  · exact Or.inr h

theorem Orderly.writes (h : s.Orderly) (writes : List Write) :
    (writes.foldl (UdpServer.write ip) s).Orderly := by
  induction writes generalizing s with
  | nil => exact h
  | cons w writes ih => exact ih (h.write w)

/-- The queue behind a send that completes. -/
theorem Orderly.sending (h : s.Orderly) {i : Nat} {send : Bytes × Endpoint α}
    (hi : s.sending[i]? = some send) :
    ∃ head rest, s.sendBufferQueue = head :: rest ∧ s.sending.eraseIdx i = [] := by
  rcases h with ⟨head, rest, hqueue, -, hone⟩ | h
  · refine ⟨head, rest, hqueue, ?_⟩
    obtain ⟨hlt, -⟩ := List.getElem?_eq_some_iff.mp hi
    rw [← List.length_eq_zero_iff, List.length_eraseIdx_of_lt hlt]
    omega
  · rw [h] at hi
    cases hi

/-- What a step has done. -/
inductive StepCase (ip : AsioIp α) (s : UdpServer α) : Event α → UdpServer α → Prop
  | arrived {data : Bytes} {source : Endpoint α} (hr : s.receive = .pending) :
      StepCase ip s (.arrive data source) { s with
        remoteEp := source, receive := .received (data.take UDP_DATA_BUFFER_MAX) source }
  | stopped (hr : s.receive = .pending) :
      StepCase ip s .receiveFailed { s with receive := .stopped }
  | handled {data : Bytes} {source : Endpoint α} {writes : List Write}
      (hr : s.receive = .received data source) :
      StepCase ip s (.receiveHandled writes) { writes.foldl (UdpServer.write ip) { s with
          reads := s.reads ++ [{ data, address := ip.tuple s.remoteEp, source }] } with
        receive := .pending }
  | written (w : Write) : StepCase ip s (.write w) (s.write ip w)
  | sent {i : Nat} {writes : List Write} {send : Bytes × Endpoint α} {head : UdpBuffer}
      {rest : List UdpBuffer} (hi : s.sending[i]? = some send)
      (hqueue : s.sendBufferQueue = head :: rest) :
      StepCase ip s (.sendHandled i writes) (UdpServer.doWrite ip
        (writes.foldl (UdpServer.write ip) { s with
          sending := s.sending.eraseIdx i, sendBufferQueue := rest }))
  /-- The event does not fit the state. -/
  | ignored {e : Event α} (hwrite : ∀ w, e ≠ .write w)
      (hsend : ∀ i writes, e = .sendHandled i writes → s.sending[i]? = none) :
      StepCase ip s e s

theorem stepCase_ignored_receive {e : Event α} (hwrite : ∀ w, e ≠ .write w)
    (hsend : ∀ i writes, e ≠ .sendHandled i writes) : StepCase ip s e s :=
  .ignored hwrite fun i writes he => absurd he (hsend i writes)

/-- Every step of an orderly server is defined. -/
theorem Orderly.exists_step (h : s.Orderly) (e : Event α) :
    ∃ s', UdpServer.step ip e s = .ok s' ∧ StepCase ip s e s' := by
  cases e with
  | arrive data source =>
    simp only [UdpServer.step]
    split
    · exact ⟨_, rfl, .arrived ‹_›⟩
    · exact ⟨s, rfl, stepCase_ignored_receive (by simp) (by simp)⟩
  | receiveFailed =>
    simp only [UdpServer.step]
    split
    · exact ⟨_, rfl, .stopped ‹_›⟩
    · exact ⟨s, rfl, stepCase_ignored_receive (by simp) (by simp)⟩
  | receiveHandled writes =>
    simp only [UdpServer.step]
    split
    · exact ⟨_, rfl, .handled ‹_›⟩
    · exact ⟨s, rfl, stepCase_ignored_receive (by simp) (by simp)⟩
  | write w => exact ⟨_, rfl, .written w⟩
  | sendHandled i writes =>
    rcases hi : s.sending[i]? with _ | send
    · refine ⟨s, by rw [UdpServer.step, hi], .ignored (by simp) fun j writes' he => ?_⟩
      cases he
      exact hi
    · obtain ⟨head, rest, hqueue, -⟩ := h.sending hi
      simp only [UdpServer.step, hi, hqueue]
      exact ⟨_, rfl, .sent hi hqueue⟩

theorem Orderly.step (h : s.Orderly) {e : Event α} (hcase : StepCase ip s e s') :
    s'.Orderly := by
  cases hcase with
  | arrived => exact h
  | stopped => exact h
  | @handled data source writes hr =>
    have hread : Orderly { s with
        reads := s.reads ++ [{ data, address := ip.tuple s.remoteEp, source }] } := h
    exact hread.writes writes
  | written w => exact h.write w
  | @sent i writes send head rest hi hqueue =>
    obtain ⟨-, -, -, hnone⟩ := h.sending hi
    have hpop : Orderly { s with
        sending := s.sending.eraseIdx i, sendBufferQueue := rest } := Or.inr hnone
    exact (hpop.writes writes).doWrite
  | ignored => exact h

/-! ## Sources -/

variable (ip)

/-- Every call of `on_read` was made with the address of the sender, and so will be the one
for the datagram that waits. -/
structure Attributed (s : UdpServer α) : Prop where
  reads : ∀ r ∈ s.reads, r.address = ip.tuple r.source
  waiting : ∀ data source, s.receive = .received data source →
    ip.tuple s.remoteEp = ip.tuple source

/-- While a datagram waits for its handler, the front of the queue is not sent to another
address. -/
def Spares (s : UdpServer α) (queue : List UdpBuffer) : Prop :=
  ∀ data source ep, s.receive = .received data source → nextEndpoint ip queue = some ep →
    ip.tuple ep = ip.tuple source

/-- No send to another address is started while a datagram waits for its handler. -/
def KeepsEndpoint : Event α → UdpServer α → Prop
  | .write w, s => s.Spares ip (s.sendBufferQueue ++ [w.buffer])
  | .sendHandled i writes, s =>
    s.sending[i]?.isSome → s.Spares ip (s.sendBufferQueue.tail ++ writes.map Write.buffer)
  | _, _ => True

variable {ip}

/-- A step that stores the endpoint of the front of `queue`, if any. -/
theorem attributed_iff_spares (h : s.Attributed ip) {queue : List UdpBuffer}
    (hep : s'.remoteEp = (nextEndpoint ip queue).getD s.remoteEp)
    (hreceive : s'.receive = s.receive) (hreads : s'.reads = s.reads) :
    s'.Attributed ip ↔ s.Spares ip queue := by
  constructor
  · intro h' data source ep hr hnext
    have hwait := h'.waiting data source (hreceive.trans hr)
    rw [hep, hnext] at hwait
    exact hwait
  · intro hspares
    refine ⟨by rw [hreads]; exact h.reads, fun data source hr => ?_⟩
    rw [hreceive] at hr
    rw [hep]
    rcases hnext : nextEndpoint ip queue with _ | ep
    · exact h.waiting data source hr
    · exact hspares data source ep hr hnext

theorem attributed_step_iff (h : s.Attributed ip) {e : Event α}
    (hcase : StepCase ip s e s') : s'.Attributed ip ↔ KeepsEndpoint ip e s := by
  cases hcase with
  | arrived hr =>
    refine iff_of_true ⟨h.reads, fun data' source' hr' => ?_⟩ trivial
    cases hr'
    rfl
  | stopped hr => exact iff_of_true ⟨h.reads, fun _ _ hr' => by cases hr'⟩ trivial
  | @handled data source writes hr =>
    -- the address is taken before `on_read` writes
    refine iff_of_true ⟨fun r hmem => ?_, fun _ _ hr' => by cases hr'⟩ trivial
    rw [(writes_frame _ writes).2, List.mem_append, List.mem_singleton] at hmem
    rcases hmem with hmem | rfl
    · exact h.reads r hmem
    · exact h.waiting data source hr
  | written w =>
    obtain ⟨hep, hreceive, hreads, -⟩ := write_spec ip s w
    exact attributed_iff_spares h hep hreceive hreads
  | @sent i writes send head rest hi hqueue =>
    have hspares : KeepsEndpoint ip (.sendHandled i writes) s ↔
        s.Spares ip (rest ++ writes.map Write.buffer) := by
      simp [KeepsEndpoint, hi, hqueue]
    rw [hspares]
    refine attributed_iff_spares h (writes_remoteEp _ writes) ?_ ?_
    · exact (doWrite_spec ip _).2.1.trans (writes_frame _ writes).1
    · exact (doWrite_spec ip _).2.2.1.trans (writes_frame _ writes).2
  | ignored hwrite hsend =>
    refine iff_of_true h ?_
    cases e with
    | arrive data source => exact trivial
    | receiveFailed => exact trivial
    | receiveHandled writes => exact trivial
    | write w => exact absurd rfl (hwrite w)
    | sendHandled i writes =>
      intro hsome
      rw [hsend i writes rfl] at hsome
      cases hsome

/-- The state is attributed exactly when the handler of a receive, should it run now,
leaves only calls of `on_read` with the addresses of the senders. -/
theorem attributed_iff_handled (s : UdpServer α) (writes : List Write) :
    s.Attributed ip ↔ ∀ s', step ip (.receiveHandled writes) s = .ok s' →
      ∀ r ∈ s'.reads, r.address = ip.tuple r.source := by
  rcases hr : s.receive with _ | ⟨data, source⟩ | _
  · simp only [step, hr, Except.ok.injEq]
    constructor
    · rintro h s' rfl
      exact h.reads
    · intro h
      exact ⟨h s rfl, fun data source hr' => by rw [hr] at hr'; cases hr'⟩
  · simp only [step, hr, Except.ok.injEq]
    constructor
    · rintro h s' rfl r hmem
      rw [(writes_frame _ writes).2, List.mem_append, List.mem_singleton] at hmem
      rcases hmem with hmem | rfl
      · exact h.reads r hmem
      · exact h.waiting data source hr
    · intro h
      have h := h _ rfl
      rw [(writes_frame _ writes).2, List.forall_mem_append] at h
      refine ⟨h.1, fun data' source' hr' => ?_⟩
      rw [hr] at hr'
      cases hr'
      exact h.2 _ (List.mem_singleton_self _)
  · simp only [step, hr, Except.ok.injEq]
    constructor
    · rintro h s' rfl
      exact h.reads
    · intro h
      exact ⟨h s rfl, fun data source hr' => by rw [hr] at hr'; cases hr'⟩

/-- **Sources.**  At whatever moment of a run the handler of a receive runs, `on_read` has
been called for every datagram with the address it came from, exactly when no step of the
run starts a send to another address while a datagram waits for its handler. -/
theorem keeps_source_iff (ip : AsioIp α) (remoteEp : Endpoint α) (events : List (Event α)) :
    (∀ pre writes s, pre <+: events →
      Run.run (step ip) (pre ++ [.receiveHandled writes]) (start remoteEp) = .ok s →
      ∀ r ∈ s.reads, r.address = ip.tuple r.source) ↔
      Run.Along (step ip) (KeepsEndpoint ip) events (start remoteEp) := by
  have hstart : (start remoteEp).Orderly := Or.inr rfl
  have hcase : ∀ (e : Event α) s s', Orderly s → step ip e s = .ok s' → StepCase ip s e s' := by
    intro e s s' h hs'
    obtain ⟨t, ht, hcase⟩ := @Orderly.exists_step α ip s h e
    rw [hs', Except.ok.injEq] at ht
    rwa [ht]
  have hkeep : ∀ (e : Event α) s s', Orderly s → step ip e s = .ok s' → s'.Orderly :=
    fun e s s' h hs' => h.step (hcase e s s' h hs')
  obtain ⟨t, ht⟩ := Run.exists_run_ok (fun e s s' h (_ : True) => hkeep e s s' h)
    (fun e s h _ => (h.exists_step e).imp fun _ ht => ht.1) hstart
    (Run.along_of_forall (fun _ _ => trivial) events _)
  rw [← Run.forall_prefix_iff_along hkeep
    (fun e s s' ho h hs' => attributed_step_iff h (hcase e s s' ho hs')) hstart
    ⟨by simp [start], fun _ _ hr => by cases hr⟩ ht]
  constructor
  · intro h pre s hpre hrun
    rw [attributed_iff_handled s []]
    intro s' hs' r hr
    refine h pre [] s' hpre ?_ r hr
    rw [Run.run_append hrun, Run.run_cons hs', Run.run_nil]
  · intro h pre writes s hpre hrun r hr
    obtain ⟨s', hpre', hlast⟩ := Run.exists_of_run_append hrun
    obtain ⟨s'', hs'', hnil⟩ := Run.exists_of_run_cons hlast
    rw [Run.run_nil, Except.ok.injEq] at hnil
    subst hnil
    exact (attributed_iff_handled s' writes).mp (h pre s' hpre hpre') s'' hs'' r hr

/-- Addresses as their own texts. -/
def textIp : AsioIp Bytes := { fromString := some, toText := id }

/-- A datagram of one peer has come in, and before its handler runs, one is sent to another
peer. -/
def crossing : List (Event Bytes) :=
  [.arrive [1] ⟨ascii "10.0.0.1", 1000⟩, .write ⟨[2], ⟨ascii "10.0.0.2", 2000⟩⟩]

/-- The datagram of the first peer is reported as one of the second. -/
theorem not_keeps_source_crossing :
    ¬ ∀ s, Run.run (step textIp) (crossing ++ [.receiveHandled []])
        (start ⟨ascii "0.0.0.0", 0⟩) = .ok s →
      ∀ r ∈ s.reads, r.address = textIp.tuple r.source := by
  intro h
  obtain ⟨s, hs, hreads⟩ := Run.exists_of_map_toOption
    (x := Run.run (step textIp) (crossing ++ [.receiveHandled []]) (start ⟨ascii "0.0.0.0", 0⟩))
    (f := fun s => s.reads.map fun r => (r.address, textIp.tuple r.source))
    (b := [(⟨ascii "10.0.0.2", 2000⟩, ⟨ascii "10.0.0.1", 1000⟩)]) (by decide +kernel)
  have hall : ∀ pair ∈ s.reads.map fun r => (r.address, textIp.tuple r.source),
      pair.1 = pair.2 := by
    intro pair hpair
    obtain ⟨r, hr, rfl⟩ := List.mem_map.mp hpair
    exact h s hs r hr
  rw [hreads] at hall
  exact absurd (hall _ (List.mem_singleton_self _)) (by decide)

end UdpServer

end MediaServer
