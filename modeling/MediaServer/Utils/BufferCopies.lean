import MediaServer.Lib.Copies
import MediaServer.Utils.BufferMemory

/-!
# The copies of a data buffer

The calls of `memcpy` in `append_data`, with the allocations that they read and write.
`BufferMemory` has the memory behind them, and `appendBytes_performs` says that the copies
lead to it.

`memcpy` asks that a copy is separate.  The one branch in which this can fail moves the
unread bytes inside of the buffer.  It takes a temporary array when there are as many of
them as there are bytes before `start_`.  The bytes go behind the reserve, though, so that
200 of the bytes before `start_` are not free.  `Compacts` is the condition on a call,
`noOverlap_iff_compacts` the result about one call, and `no_overlap_iff` that about runs.

`append_any_order` says what separate copies are good for: `memcpy` may go about them
byte by byte in any order.
-/

namespace MediaServer

namespace BufferMemory

open Copies

/-- The allocations of a call of `append_data`. -/
inductive Place where
  | buffer
  | newBuffer
  | temp
  | input
  deriving DecidableEq, Repr

/-- A call of `memcpy`. -/
abbrev Memcpy := Copy Place

/-- The copies into a new allocation. -/
def growCopies (input : Bytes) (b : BufferMemory) : List Memcpy :=
  [ { dest := .newBuffer
      destOffset := PRE_RESERVE_HEADER_SIZE
      source := .buffer
      sourceOffset := b.start
      len := sizeT b.dataLen },
    { dest := .newBuffer
      destOffset := PRE_RESERVE_HEADER_SIZE + b.dataLen
      source := .input
      sourceOffset := 0
      len := input.length } ]

/-- The copies when the unread bytes are moved to the front. -/
def moveCopies (input : Bytes) (b : BufferMemory) : List Memcpy :=
  (if b.dataLen ≥ b.start then
    [ { dest := .temp
        destOffset := 0
        source := .buffer
        sourceOffset := b.start
        len := sizeT b.dataLen },
      { dest := .buffer
        destOffset := PRE_RESERVE_HEADER_SIZE
        source := .temp
        sourceOffset := 0
        len := sizeT b.dataLen } ]
  else
    [ { dest := .buffer
        destOffset := PRE_RESERVE_HEADER_SIZE
        source := .buffer
        sourceOffset := b.start
        len := sizeT b.dataLen } ]) ++
  [ { dest := .buffer
      destOffset := PRE_RESERVE_HEADER_SIZE + b.dataLen
      source := .input
      sourceOffset := 0
      len := input.length } ]

/-- The calls of `memcpy` in `append_data`, in their order. -/
def appendCopies (input : Bytes) (b : BufferMemory) : List Memcpy :=
  if sizeT b.end_ + input.length > b.room then
    if sizeT b.dataLen + input.length ≥ b.room then growCopies input b
    else moveCopies input b
  else
    [ { dest := .buffer
        destOffset := b.end_
        source := .input
        sourceOffset := 0
        len := input.length } ]

/-- The copies of a call. -/
def copies : Op → BufferMemory → List Memcpy
  | .append _ (some input), b => if input.length = 0 then [] else appendCopies input b
  | _, _ => []

/-- Every copy of a call is separate. -/
def NoOverlap (op : Op) (b : BufferMemory) : Prop := ∀ c ∈ copies op b, c.Separate

/-- The condition of a call that moves the unread bytes.  They are at most as many as the
bytes between the reserve and `start_`, or at least as many as all the bytes before
`start_`, or there are none, or `end_` still stands at the reserve. -/
def Compacts : Op → BufferMemory → Prop
  | .append _ (some input), b =>
    input.length ≠ 0 → sizeT b.end_ + input.length > b.room →
      sizeT b.dataLen + input.length < b.room →
      b.dataLen ≤ b.start - PRE_RESERVE_HEADER_SIZE ∨ b.start ≤ b.dataLen ∨ b.dataLen = 0 ∨
        b.end_ ≤ PRE_RESERVE_HEADER_SIZE
  | _, _ => True

variable {b b' : BufferMemory} {input : Bytes} {contents : Nat → UInt8} {op : Op}

theorem WellFormed.sizeT_dataLen (h : b.WellFormed) : (sizeT b.dataLen : Int) = b.dataLen := by
  obtain ⟨hcursors, hstart, hlen, hinside, -, -, hint⟩ := h
  exact sizeT_of_nonneg hlen (by omega)

/-! ## One call -/

theorem growCopies_separate (input : Bytes) (b : BufferMemory) :
    ∀ c ∈ growCopies input b, c.Separate := by
  rw [growCopies, List.forall_mem_cons, List.forall_mem_singleton]
  exact ⟨Copy.separate_of_ne (by simp), Copy.separate_of_ne (by simp)⟩

/-- The move inside of the buffer. -/
theorem separate_direct_iff (h : b.WellFormed) :
    Copy.Separate { dest := Place.buffer
                    destOffset := PRE_RESERVE_HEADER_SIZE
                    source := .buffer
                    sourceOffset := b.start
                    len := sizeT b.dataLen } ↔
      b.dataLen ≤ b.start - PRE_RESERVE_HEADER_SIZE ∨ b.dataLen = 0 ∨
        b.end_ ≤ PRE_RESERVE_HEADER_SIZE := by
  have hcursors := h.cursors
  have hlen := h.sizeT_dataLen
  rw [Copy.separate_iff]
  simp only [true_implies]
  omega

theorem moveCopies_separate_iff (h : b.WellFormed) (input : Bytes) :
    (∀ c ∈ moveCopies input b, c.Separate) ↔
      b.dataLen ≤ b.start - PRE_RESERVE_HEADER_SIZE ∨ b.start ≤ b.dataLen ∨ b.dataLen = 0 ∨
        b.end_ ≤ PRE_RESERVE_HEADER_SIZE := by
  rw [moveCopies, List.forall_mem_append, List.forall_mem_singleton,
    and_iff_left (Copy.separate_of_ne (by simp))]
  by_cases htemp : b.dataLen ≥ b.start
  · rw [if_pos htemp, List.forall_mem_cons, List.forall_mem_singleton]
    refine iff_of_true ?_ (.inr (.inl htemp))
    exact ⟨Copy.separate_of_ne (by simp), Copy.separate_of_ne (by simp)⟩
  · rw [if_neg htemp, List.forall_mem_singleton, separate_direct_iff h]
    omega

/-- **Step.**  A call makes separate copies only, exactly when it meets the condition. -/
theorem noOverlap_iff_compacts (h : b.WellFormed) (op : Op) : NoOverlap op b ↔ Compacts op b := by
  rcases op with ⟨contents, _ | input⟩ | n | _
  · exact iff_of_true (by simp [NoOverlap, copies]) trivial
  · rw [NoOverlap, copies, Compacts]
    by_cases hempty : input.length = 0
    · rw [if_pos hempty]
      exact iff_of_true (by simp) fun hne => absurd hempty hne
    rw [if_neg hempty, appendCopies, ← moveCopies_separate_iff h input]
    by_cases hover : sizeT b.end_ + input.length > b.room
    · rw [if_pos hover]
      by_cases hgrow : sizeT b.dataLen + input.length ≥ b.room
      · rw [if_pos hgrow]
        apply iff_of_true (growCopies_separate input b)
        exact fun _ _ hsmall => absurd hsmall (Nat.not_lt.mpr hgrow)
      · rw [if_neg hgrow]
        constructor
        · exact fun hsep _ _ _ => hsep
        · exact fun hcompacts => hcompacts hempty hover (Nat.lt_of_not_le hgrow)
    · rw [if_neg hover, List.forall_mem_singleton]
      apply iff_of_true (Copy.separate_of_ne (by simp))
      exact fun _ hover' => absurd hover' hover
  · exact iff_of_true (by simp [NoOverlap, copies]) trivial
  · exact iff_of_true (by simp [NoOverlap, copies]) trivial

/-! ## Runs -/

/-- A call that comes to its end keeps the invariant, whatever its sizes are. -/
theorem WellFormed.step (h : b.WellFormed) (hstep : step op b = .ok b') : b'.WellFormed := by
  by_cases hfits : Fits op b
  · obtain ⟨b₁, hstep₁, hwf, -⟩ := step_spec h hfits
    rw [hstep, Except.ok.injEq] at hstep₁
    rw [hstep₁]
    exact hwf
  · rcases op with ⟨contents, _ | input⟩ | n | _
    · exact absurd trivial hfits
    · simp only [Fits, Classical.not_imp] at hfits
      obtain ⟨hover, hgrow, hlarge⟩ := hfits
      by_cases hempty : input.length = 0
      · rw [BufferMemory.step, appendData, if_pos hempty] at hstep
        cases hstep
        exact h
      · -- the size of the new allocation is no `int`
        rw [BufferMemory.step, appendData, if_neg hempty, appendBytes, if_pos hover, if_pos hgrow,
          appendGrow, checkInt, if_neg hlarge] at hstep
        cases hstep
    · exact absurd trivial hfits
    · exact absurd trivial hfits

/-- **Run.**  No copy of a run overlaps exactly when every call meets the condition. -/
theorem no_overlap_iff (contents : Nat → UInt8) (ops : List Op) :
    Run.Along step NoOverlap ops (new contents EXTRA_LEN) ↔
      Run.Along step Compacts ops (new contents EXTRA_LEN) := by
  refine Run.along_iff_along (fun _ _ _ h hstep => h.step hstep) ?_ (new_wellFormed contents)
  intro op b h
  exact noOverlap_iff_compacts h op

theorem checkInt_eq {n m : Int} (h : checkInt n = .ok m) : m = n := by
  rw [checkInt] at h
  split at h
  · exact (Except.ok.inj h).symm
  · cases h

/-- The cursors behind a call that puts its bytes behind the unread ones. -/
theorem exists_append_behind (h : b.WellFormed) (hempty : input.length ≠ 0)
    (hbehind : ¬ sizeT b.end_ + input.length > b.room) (contents : Nat → UInt8) :
    ∃ b', step (.append contents (some input)) b = .ok b' ∧ b'.bufferSize = b.bufferSize ∧
      b'.start = b.start ∧ b'.dataLen = b.dataLen + input.length ∧
      b'.end_ = b.end_ + input.length := by
  have hfits : Fits (.append contents (some input)) b := fun hover => absurd hover hbehind
  obtain ⟨b', hstep, -, -⟩ := step_spec h hfits
  refine ⟨b', hstep, ?_⟩
  rw [step, appendData, if_neg hempty, appendBytes, if_neg hbehind] at hstep
  obtain ⟨⟨b₁, len⟩, happend, hb'⟩ := Run.exists_of_bind_ok hstep
  obtain ⟨b₂, hbytes, hpair⟩ := Run.exists_of_bind_ok happend
  obtain ⟨buffer, -, hbytes⟩ := Run.exists_of_bind_ok hbytes
  obtain ⟨dataLen, hlen, hbytes⟩ := Run.exists_of_bind_ok hbytes
  obtain ⟨end_, hend, hbytes⟩ := Run.exists_of_bind_ok hbytes
  cases hbytes
  cases hpair
  cases hb'
  exact ⟨rfl, rfl, checkInt_eq hlen, checkInt_eq hend⟩

/-- 9700 bytes, of which 4800 are read, and 200 more: the 4900 unread bytes are moved from
5000 to 200. -/
def overlapping : List Op :=
  [.append (fun _ => 0) (some (List.replicate 9700 1)), .consume 4800,
    .append (fun _ => 0) (some (List.replicate 200 2))]

theorem not_no_overlap : ¬ Run.Along step NoOverlap overlapping (new (fun _ => 0) EXTRA_LEN) := by
  intro h
  have hnew := new_wellFormed fun _ => 0
  have hcount : (List.replicate 9700 (1 : UInt8)).length = 9700 := List.length_replicate
  have hcount' : (List.replicate 200 (2 : UInt8)).length = 200 := List.length_replicate
  obtain ⟨b₁, hstep, hsize, hstart, hlen, hend⟩ := exists_append_behind hnew
    (by rw [hcount]; decide) (by rw [hcount]; decide) (fun _ => 0)
  rw [hcount] at hlen hend
  have hreserve : PRE_RESERVE_HEADER_SIZE = 200 := rfl
  have hstart₁ : b₁.start = 200 := hstart
  have hlen₁ : b₁.dataLen = 9700 := hlen
  have hend₁ : b₁.end_ = 9900 := hend
  have hsize₁ : b₁.bufferSize = 10240 := hsize
  -- the buffer behind the read
  have hread : step (.consume 4800) b₁ = .ok { b₁ with start := 5000, dataLen := 4900 } := by
    rw [step, consumeData, if_neg (by omega), if_neg (by omega), hstart₁, hlen₁]
    rfl
  have hwf := (hnew.step hstep).step hread
  have hlast := ((h.2 b₁ hstep).2 _ hread).1
  generalize hb₂ : ({ b₁ with start := 5000, dataLen := 4900 } : BufferMemory) = b₂ at hwf hlast
  have hstart₂ : b₂.start = 5000 := by rw [← hb₂]
  have hlen₂ : b₂.dataLen = 4900 := by rw [← hb₂]
  have hend₂ : b₂.end_ = 9900 := by rw [← hb₂, hend₁]
  have hsize₂ : b₂.bufferSize = 10240 := by rw [← hb₂, hsize₁]
  have hroom := hwf.room_eq
  have hbytes := hwf.sizeT_dataLen
  have hcursor : (sizeT b₂.end_ : Int) = b₂.end_ := sizeT_of_nonneg (by omega) (by omega)
  have hapart := (noOverlap_iff_compacts hwf _).mp hlast (by omega) (by omega) (by omega)
  omega

/-! ## What the copies do -/

section Perform

variable {memory memory' : Place → Bytes} {c : Memcpy} {bytes written : Bytes}

/-- A copy, which reads its source first. -/
def perform (c : Memcpy) (memory : Place → Bytes) : Except Fault (Place → Bytes) := do
  let bytes ← readMemory (memory c.source) c.sourceOffset c.len
  let written ← writeMemory (memory c.dest) c.destOffset bytes
  return Function.update memory c.dest written

theorem perform_ok (hread : readMemory (memory c.source) c.sourceOffset c.len = .ok bytes)
    (hwrite : writeMemory (memory c.dest) c.destOffset bytes = .ok written) :
    perform c memory = .ok (Function.update memory c.dest written) := by
  rw [perform, hread, Run.ok_bind, hwrite]
  rfl

theorem readMemory_all (input : Bytes) : readMemory input 0 input.length = .ok input := by
  simp [readMemory]

/-- The allocations before a call of `append_data`. -/
structure Before (contents : Nat → UInt8) (input : Bytes) (b : BufferMemory)
    (memory : Place → Bytes) : Prop where
  buffer : memory .buffer = b.buffer
  newBuffer : memory .newBuffer = allocate contents (b.dataLen + input.length + EXTRA_LEN).toNat
  temp : ((memory .temp).length : Int) = b.dataLen
  input : memory .input = input

/-- The allocation that is the buffer behind a call. -/
def kept (input : Bytes) (b : BufferMemory) : Place :=
  if sizeT b.end_ + input.length > b.room ∧ sizeT b.dataLen + input.length ≥ b.room then .newBuffer
  else .buffer

/-- The bytes of the input, put into an allocation. -/
theorem run_input (hinput : memory .input = input) {place : Place} {offset : Int}
    (hwrite : writeMemory (memory place) offset input = .ok written) :
    Run.run perform [{ dest := place
                       destOffset := offset
                       source := .input
                       sourceOffset := 0
                       len := input.length }] memory =
      .ok (Function.update memory place written) := by
  have hread : readMemory (memory .input) 0 input.length = .ok input := by
    rw [hinput]
    exact readMemory_all input
  rw [Run.run_cons (perform_ok hread hwrite), Run.run_nil]

/-- The same, when other bytes have been put there before. -/
theorem run_input_behind (hinput : memory .input = input) {place : Place}
    (hplace : Place.input ≠ place) {offset : Int} {first : Bytes}
    (hwrite : writeMemory first offset input = .ok written) :
    ∃ memory', Run.run perform [{ dest := place
                                  destOffset := offset
                                  source := .input
                                  sourceOffset := 0
                                  len := input.length }] (Function.update memory place first) =
        .ok memory' ∧ memory' place = written := by
  have hinput' : Function.update memory place first .input = input := by
    rw [Function.update_of_ne hplace, hinput]
  have hwrite' : writeMemory (Function.update memory place first place) offset input =
      .ok written := by
    rw [Function.update_self, hwrite]
  exact ⟨_, run_input hinput' hwrite', Function.update_self ..⟩

theorem WellFormed.read_buffer (h : b.WellFormed) (hbefore : Before contents input b memory) :
    readMemory (memory .buffer) b.start (sizeT b.dataLen) = .ok b.data := by
  rw [hbefore.buffer, h.sizeT_dataLen]
  exact h.read

/-- The copies into a new allocation. -/
theorem appendGrow_performs (h : b.WellFormed) (hbefore : Before contents input b memory)
    (happend : appendGrow contents input b = .ok b') :
    ∃ memory', Run.run perform (growCopies input b) memory = .ok memory' ∧
      memory' .newBuffer = b'.buffer := by
  obtain ⟨newLen, hnew, happend⟩ := Run.exists_of_bind_ok happend
  obtain ⟨bytes, hread, happend⟩ := Run.exists_of_bind_ok happend
  obtain ⟨first, hfirst, happend⟩ := Run.exists_of_bind_ok happend
  obtain ⟨second, hsecond, happend⟩ := Run.exists_of_bind_ok happend
  obtain ⟨_, -, happend⟩ := Run.exists_of_bind_ok happend
  cases happend
  rw [h.read, Except.ok.injEq] at hread
  rw [checkInt_eq hnew, ← hbefore.newBuffer, ← hread] at hfirst
  rw [growCopies, Run.run_cons (perform_ok (h.read_buffer hbefore) hfirst)]
  exact run_input_behind hbefore.input (by simp) hsecond

/-- The copies inside of the buffer. -/
theorem appendMove_performs (h : b.WellFormed) (hbefore : Before contents input b memory)
    (happend : appendMove input b = .ok b') :
    ∃ memory', Run.run perform (moveCopies input b) memory = .ok memory' ∧
      memory' .buffer = b'.buffer := by
  have hunread := h.read_buffer hbefore
  rw [appendMove, ite_self] at happend
  obtain ⟨bytes, hread, happend⟩ := Run.exists_of_bind_ok happend
  obtain ⟨moved, hmove, happend⟩ := Run.exists_of_bind_ok happend
  obtain ⟨buffer, hwrite, happend⟩ := Run.exists_of_bind_ok happend
  obtain ⟨_, -, happend⟩ := Run.exists_of_bind_ok happend
  cases happend
  rw [h.read, Except.ok.injEq] at hread
  rw [← hread, ← hbefore.buffer] at hmove
  rw [moveCopies]
  by_cases htemp : b.dataLen ≥ b.start
  · -- the temporary array takes the unread bytes, and nothing else is in it
    have hcount : b.data.length = (memory .temp).length := by
      have htempLen := hbefore.temp
      obtain ⟨-, -, -, -, hlen⟩ := h.layout
      omega
    have hfill : writeMemory (memory .temp) 0 b.data = .ok b.data := by
      have hall := @writeMemory_append [] (memory .temp) [] b.data 0 rfl hcount.symm
      rwa [List.nil_append, List.append_nil, List.nil_append, List.append_nil] at hall
    generalize hfilled : Function.update memory .temp b.data = filled
    have hback : readMemory (filled .temp) 0 (sizeT b.dataLen) = .ok b.data := by
      rw [← hfilled, Function.update_self, h.sizeT_dataLen, ← hbefore.temp, ← hcount]
      exact readMemory_all b.data
    have hfront : writeMemory (filled .buffer) PRE_RESERVE_HEADER_SIZE b.data = .ok moved := by
      rw [← hfilled]
      exact hmove
    have hinput : filled .input = input := by
      rw [← hfilled]
      exact hbefore.input
    rw [if_pos htemp, List.cons_append, List.cons_append, List.nil_append,
      Run.run_cons (perform_ok hunread hfill), hfilled, Run.run_cons (perform_ok hback hfront)]
    exact run_input_behind hinput (by simp) hwrite
  · rw [if_neg htemp, List.singleton_append, Run.run_cons (perform_ok hunread hmove)]
    exact run_input_behind hbefore.input (by simp) hwrite

/-- The copies of a call lead to the buffer behind it. -/
theorem appendBytes_performs (h : b.WellFormed) (hbefore : Before contents input b memory)
    (happend : appendBytes contents input b = .ok b') :
    ∃ memory', Run.run perform (appendCopies input b) memory = .ok memory' ∧
      memory' (kept input b) = b'.buffer := by
  rw [appendBytes] at happend
  by_cases hover : sizeT b.end_ + input.length > b.room
  · rw [if_pos hover] at happend
    by_cases hgrow : sizeT b.dataLen + input.length ≥ b.room
    · rw [if_pos hgrow] at happend
      rw [appendCopies, if_pos hover, if_pos hgrow, kept, if_pos ⟨hover, hgrow⟩]
      exact appendGrow_performs h hbefore happend
    · rw [if_neg hgrow] at happend
      have hkept : kept input b = .buffer := if_neg fun hboth => hgrow hboth.2
      rw [appendCopies, if_pos hover, if_neg hgrow, hkept]
      exact appendMove_performs h hbefore happend
  · rw [if_neg hover] at happend
    have hkept : kept input b = .buffer := if_neg fun hboth => hover hboth.1
    obtain ⟨buffer, hwrite, happend⟩ := Run.exists_of_bind_ok happend
    obtain ⟨_, -, happend⟩ := Run.exists_of_bind_ok happend
    obtain ⟨_, -, happend⟩ := Run.exists_of_bind_ok happend
    cases happend
    rw [← hbefore.buffer] at hwrite
    rw [appendCopies, if_neg hover, hkept]
    exact ⟨_, run_input hbefore.input hwrite, Function.update_self ..⟩

/-! ## Byte by byte -/

/-- What is in the cells of the allocations. -/
def cells (memory : Place → Bytes) : Place × Int → Option UInt8 := fun cell =>
  if 0 ≤ cell.2 then (memory cell.1)[cell.2.toNat]? else none

theorem getElem?_of_writeMemory {bytes' : Bytes} {offset : Int}
    (h : writeMemory bytes' offset bytes = .ok written) (i : Nat) :
    0 ≤ offset ∧ written[i]? =
      if offset ≤ i ∧ (i : Int) < offset + bytes.length then bytes[i - offset.toNat]?
      else bytes'[i]? := by
  rw [writeMemory] at h
  split at h
  · rename_i hinside
    cases h
    refine ⟨hinside.1, ?_⟩
    have htake : (bytes'.take offset.toNat).length = offset.toNat :=
      List.length_take_of_le (by omega)
    rw [List.append_assoc, List.getElem?_append, List.getElem?_append, htake]
    split_ifs with hlow hmiddle hcell
    · omega
    · rw [List.getElem?_take_of_lt hlow]
    · rfl
    · omega
    · omega
    · rw [List.getElem?_drop]
      congr 1
      omega
  · cases h

theorem getElem?_of_readMemory {bytes' : Bytes} {offset len : Int}
    (h : readMemory bytes' offset len = .ok bytes) :
    0 ≤ offset ∧ (bytes.length : Int) = len ∧
      ∀ i, i < bytes.length → bytes[i]? = bytes'[offset.toNat + i]? := by
  rw [readMemory] at h
  split at h
  · rename_i hinside
    cases h
    have hcount : ((bytes'.drop offset.toNat).take len.toNat).length = len.toNat := by
      rw [List.length_take, List.length_drop]
      omega
    refine ⟨hinside.1, by omega, ?_⟩
    intro i hi
    rw [List.getElem?_take_of_lt (by omega), List.getElem?_drop]
  · cases h

/-- The cells behind a copy that reads its source first. -/
theorem cells_perform (h : perform c memory = .ok memory') :
    cells memory' = c.result (cells memory) := by
  obtain ⟨bytes, hread, h⟩ := Run.exists_of_bind_ok h
  obtain ⟨written, hwrite, h⟩ := Run.exists_of_bind_ok h
  cases h
  obtain ⟨hsource, hlen, hbytes⟩ := getElem?_of_readMemory hread
  funext ⟨place, offset⟩
  simp only [cells, Copy.result]
  by_cases hplace : place = c.dest
  · rw [hplace, Function.update_self]
    have hcell := getElem?_of_writeMemory hwrite offset.toNat
    by_cases hrange : c.destOffset ≤ offset ∧ offset < c.destOffset + c.len
    · have hindex : (c.sourceOffset + (offset - c.destOffset)).toNat =
          c.sourceOffset.toNat + (offset.toNat - c.destOffset.toNat) := by omega
      rw [if_pos (by omega), if_pos ⟨rfl, hrange⟩, if_pos (by omega), hcell.2, if_pos (by omega),
        hbytes _ (by omega), hindex]
    · have hout : ¬ (c.dest = c.dest ∧ c.destOffset ≤ offset ∧ offset < c.destOffset + c.len) :=
        fun hboth => hrange hboth.2
      rw [if_neg hout]
      by_cases hnonneg : 0 ≤ offset
      · rw [if_pos hnonneg, if_pos hnonneg, hcell.2, if_neg (by omega)]
      · rw [if_neg hnonneg, if_neg hnonneg]
  · have hout : ¬ (place = c.dest ∧ c.destOffset ≤ offset ∧ offset < c.destOffset + c.len) :=
      fun hboth => hplace hboth.1
    rw [Function.update_of_ne hplace, if_neg hout]

/-- Copies one after another, each of them byte by byte in some order. -/
theorem foldl_moves {cs : List Memcpy} (hsep : ∀ c ∈ cs, c.Separate) {orders : Memcpy → List Nat}
    (horders : ∀ c i, i ∈ orders c ↔ i < c.len) (hrun : Run.run perform cs memory = .ok memory') :
    cs.foldl (fun cells c => (orders c).foldl c.move cells) (cells memory) = cells memory' := by
  induction cs generalizing memory with
  | nil =>
    cases hrun
    rfl
  | cons c cs ih =>
    obtain ⟨hc, hcs⟩ := List.forall_mem_cons.mp hsep
    obtain ⟨middle, hfirst, hrest⟩ := Run.exists_of_run_cons hrun
    rw [List.foldl_cons, Copy.foldl_move hc (horders c), ← cells_perform hfirst]
    exact ih hcs hrest

/-- **Any order.**  When the copies of a call are separate, the buffer behind it is the
same in whatever order `memcpy` copies the bytes. -/
theorem append_any_order (h : b.WellFormed) (hsep : ∀ c ∈ appendCopies input b, c.Separate)
    (hbefore : Before contents input b memory)
    (happend : appendBytes contents input b = .ok b') {orders : Memcpy → List Nat}
    (horders : ∀ c i, i ∈ orders c ↔ i < c.len) (i : Nat) :
    (appendCopies input b).foldl (fun cells c => (orders c).foldl c.move cells) (cells memory)
      (kept input b, i) = b'.buffer[i]? := by
  obtain ⟨memory', hrun, hkept⟩ := appendBytes_performs h hbefore happend
  rw [foldl_moves hsep horders hrun, cells, if_pos (Int.natCast_nonneg i)]
  show (memory' (kept input b))[i]? = _
  rw [hkept]

end Perform

end BufferMemory

end MediaServer
