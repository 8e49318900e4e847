import Mathlib.Algebra.Ring.Int.Defs
import Mathlib.Tactic.Common
import MediaServer.Lib.Run
import MediaServer.Utils.DataBuffer

/-!
# The memory of a data buffer

`utils/data_buffer` with its allocation and its two cursors.  The unread bytes
stand between `start_` and `end_`.  `append_data` puts bytes behind them; when
there is no room it moves the unread bytes to the front of the allocation, or to
a new allocation.  `consume_data` moves `start_` forward, or back over bytes in
front of it, which is how a header is put before a payload.

`MediaServer.Utils.DataBuffer` models the buffer as the list of its unread
bytes.  `buffer_refines_queue` is the link between the two: no run leaves the
allocation, and the unread bytes are the ones of the queue.

`memcpy` is taken to copy the bytes as they were before the call.  A new
allocation has any contents: they come with the call that makes it.
-/

namespace MediaServer

/-- `data_buffer`.  The list `buffer` is the whole allocation. -/
structure BufferMemory where
  buffer : Bytes
  bufferSize : Nat
  dataLen : Int
  start : Int
  end_ : Int
  deriving DecidableEq, Repr

namespace BufferMemory

/-- What an allocation takes beyond what is asked for. -/
def EXTRA_LEN : Nat := 10 * 1024

/-- The room that is kept in front of the data for a header. -/
def PRE_RESERVE_HEADER_SIZE : Nat := 200

/-- The value of an `int` as a `size_t`. -/
def sizeT (n : Int) : Nat := (n % 2 ^ 64).toNat

/-- A sum of an `int`. -/
def checkInt (n : Int) : Except Fault Int :=
  if n < 2 ^ 31 then .ok n else .error .overflow

/-- The `len` bytes at an offset of an allocation. -/
def readMemory (memory : Bytes) (offset len : Int) : Except Fault Bytes :=
  if 0 ≤ offset ∧ 0 ≤ len ∧ offset + len ≤ memory.length then
    .ok ((memory.drop offset.toNat).take len.toNat)
  else .error .outOfBounds

/-- Bytes are put at an offset of an allocation. -/
def writeMemory (memory : Bytes) (offset : Int) (bytes : Bytes) : Except Fault Bytes :=
  if 0 ≤ offset ∧ offset + bytes.length ≤ memory.length then
    .ok (memory.take offset.toNat ++ bytes ++ memory.drop (offset.toNat + bytes.length))
  else .error .outOfBounds

/-- `new char[len]`. -/
def allocate (contents : Nat → UInt8) (len : Nat) : Bytes := (List.range len).map contents

/-- The constructor.  It clears the first `data_size` bytes. -/
def new (contents : Nat → UInt8) (dataSize : Nat) : BufferMemory :=
  { buffer := List.replicate dataSize 0 ++ allocate contents PRE_RESERVE_HEADER_SIZE
    bufferSize := dataSize
    dataLen := 0
    start := PRE_RESERVE_HEADER_SIZE
    end_ := PRE_RESERVE_HEADER_SIZE }

/-- `buffer_size_ - PRE_RESERVE_HEADER_SIZE`, a `size_t`. -/
def room (b : BufferMemory) : Nat := sizeT (b.bufferSize - PRE_RESERVE_HEADER_SIZE)

/-- The branch of `append_data` that makes a new allocation. -/
def appendGrow (contents : Nat → UInt8) (input : Bytes) (b : BufferMemory) :
    Except Fault BufferMemory := do
  let newLen ← checkInt (b.dataLen + input.length + EXTRA_LEN)
  let newBuffer := allocate contents newLen.toNat
  let newBuffer ← writeMemory newBuffer PRE_RESERVE_HEADER_SIZE
    (← readMemory b.buffer b.start b.dataLen)
  let newBuffer ← writeMemory newBuffer (PRE_RESERVE_HEADER_SIZE + b.dataLen) input
  let dataLen ← checkInt (b.dataLen + input.length)
  return { buffer := newBuffer
           bufferSize := newLen.toNat
           dataLen := dataLen
           start := PRE_RESERVE_HEADER_SIZE
           end_ := PRE_RESERVE_HEADER_SIZE + dataLen }

/-- The branch that moves the unread bytes to the front.  They go through a
temporary array when there are many. -/
def appendMove (input : Bytes) (b : BufferMemory) : Except Fault BufferMemory := do
  let buffer ←
    if b.dataLen ≥ b.start then do
      let temp ← readMemory b.buffer b.start b.dataLen
      writeMemory b.buffer PRE_RESERVE_HEADER_SIZE temp
    else
      writeMemory b.buffer PRE_RESERVE_HEADER_SIZE (← readMemory b.buffer b.start b.dataLen)
  let buffer ← writeMemory buffer (PRE_RESERVE_HEADER_SIZE + b.dataLen) input
  let dataLen ← checkInt (b.dataLen + input.length)
  return { b with
    buffer := buffer
    dataLen := dataLen
    start := PRE_RESERVE_HEADER_SIZE
    end_ := PRE_RESERVE_HEADER_SIZE + dataLen }

/-- The branch for bytes that fit behind the unread ones. -/
def appendInPlace (input : Bytes) (b : BufferMemory) : Except Fault BufferMemory := do
  let buffer ← writeMemory b.buffer b.end_ input
  let dataLen ← checkInt (b.dataLen + input.length)
  let end_ ← checkInt (b.end_ + input.length)
  return { b with buffer := buffer, dataLen := dataLen, end_ := end_ }

/-- `append_data` for bytes that are there. -/
def appendBytes (contents : Nat → UInt8) (input : Bytes) (b : BufferMemory) :
    Except Fault BufferMemory :=
  if sizeT b.end_ + input.length > b.room then
    if sizeT b.dataLen + input.length ≥ b.room then appendGrow contents input b
    else appendMove input b
  else appendInPlace input b

/-- `append_data`, with the value it returns.  A null pointer is `none`. -/
def appendData (contents : Nat → UInt8) (inputData : Option Bytes) (b : BufferMemory) :
    Except Fault (BufferMemory × Int) :=
  match inputData with
  | none => .ok (b, 0)
  | some input =>
    if input.length = 0 then .ok (b, 0)
    else do
      let b ← appendBytes contents input b
      return (b, b.dataLen)

/-- `consume_data`, with the offset to which the pointer it returns points. -/
def consumeData (consumeLen : Int) (b : BufferMemory) : BufferMemory × Option Int :=
  if consumeLen > b.dataLen then (b, none)
  else if consumeLen < 0 ∧ b.start + consumeLen < 0 then (b, none)
  else
    ({ b with start := b.start + consumeLen, dataLen := b.dataLen - consumeLen },
      some (b.start + consumeLen))

/-- `reset`. -/
def reset (b : BufferMemory) : BufferMemory :=
  { b with start := PRE_RESERVE_HEADER_SIZE, end_ := PRE_RESERVE_HEADER_SIZE, dataLen := 0 }

/-- The bytes from `data()` on, `data_len()` of them. -/
def data (b : BufferMemory) : Bytes := (b.buffer.drop b.start.toNat).take b.dataLen.toNat

/-! ## Memory -/

/-- A read of what stands between two parts. -/
theorem readMemory_append {before bytes after : Bytes} {offset len : Int}
    (hoffset : offset = before.length) (hlen : len = bytes.length) :
    readMemory (before ++ bytes ++ after) offset len = .ok bytes := by
  subst hoffset hlen
  rw [readMemory, if_pos (by simp only [List.length_append]; omega)]
  simp

/-- A write over what stands between two parts. -/
theorem writeMemory_append {before old after bytes : Bytes} {offset : Int}
    (hoffset : offset = before.length) (hlen : old.length = bytes.length) :
    writeMemory (before ++ old ++ after) offset bytes = .ok (before ++ bytes ++ after) := by
  subst hoffset
  rw [writeMemory, if_pos (by simp only [List.length_append]; omega)]
  simp [← hlen, List.drop_append]

/-- Every part of an allocation can be split off. -/
theorem exists_append_of_le (memory : Bytes) {n : Nat} (h : n ≤ memory.length) :
    ∃ before after, memory = before ++ after ∧ before.length = n :=
  ⟨memory.take n, memory.drop n, (List.take_append_drop n memory).symm, List.length_take_of_le h⟩

/-- Two writes, one behind the other. -/
theorem writeMemory_two (memory first second : Bytes) {offset : Nat}
    (h : offset + first.length + second.length ≤ memory.length) :
    ∃ middle before after, writeMemory memory offset first = .ok middle ∧
      writeMemory middle (offset + first.length) second =
        .ok (before ++ (first ++ second) ++ after) ∧
      before.length = offset ∧
      before.length + first.length + second.length + after.length = memory.length := by
  have hfirst : offset ≤ memory.length := by omega
  obtain ⟨before, rest, rfl, hbefore⟩ := exists_append_of_le memory hfirst
  rw [List.length_append] at h
  have hsecond : first.length ≤ rest.length := by omega
  obtain ⟨old, rest, rfl, hold⟩ := exists_append_of_le rest hsecond
  rw [List.length_append] at h
  have hthird : second.length ≤ rest.length := by omega
  obtain ⟨old', after, rfl, hold'⟩ := exists_append_of_le rest hthird
  refine ⟨before ++ first ++ (old' ++ after), before, after, ?_, ?_, hbefore, ?_⟩
  · rw [← List.append_assoc before old, writeMemory_append (by omega) hold]
  · rw [← List.append_assoc (before ++ first) old',
      writeMemory_append (by simp only [List.length_append]; omega) hold']
    simp only [List.append_assoc]
  · simp only [List.length_append]
    omega

/-! ## The invariant -/

/-- What holds of a buffer between calls. -/
structure WellFormed (b : BufferMemory) : Prop where
  cursors : b.start + b.dataLen = b.end_
  start_nonneg : 0 ≤ b.start
  dataLen_nonneg : 0 ≤ b.dataLen
  inside : b.end_ ≤ b.buffer.length
  reserve : PRE_RESERVE_HEADER_SIZE ≤ b.bufferSize
  size : b.bufferSize ≤ b.buffer.length
  int : b.buffer.length < 2 ^ 31

theorem data_eq {b : BufferMemory} {before bytes after : Bytes}
    (hbuffer : b.buffer = before ++ bytes ++ after) (hstart : b.start = before.length)
    (hlen : b.dataLen = bytes.length) : b.data = bytes := by
  rw [data, hbuffer, hstart, hlen]
  simp

/-- The allocation with the unread bytes in it. -/
theorem WellFormed.layout {b : BufferMemory} (h : b.WellFormed) :
    ∃ before after, b.buffer = before ++ b.data ++ after ∧ b.start = before.length ∧
      b.dataLen = b.data.length := by
  obtain ⟨hcursors, hstart, hlen, hinside, -, -, -⟩ := h
  have hbefore : b.start.toNat ≤ b.buffer.length := by omega
  obtain ⟨before, rest, hbuffer, hbefore⟩ := exists_append_of_le b.buffer hbefore
  have hbytes : b.dataLen.toNat ≤ rest.length := by
    rw [hbuffer, List.length_append] at hinside
    omega
  obtain ⟨bytes, after, hrest, hbytes⟩ := exists_append_of_le rest hbytes
  rw [hrest, ← List.append_assoc] at hbuffer
  have hdata := data_eq hbuffer (by omega) (by omega)
  rw [hdata]
  exact ⟨before, after, hbuffer, by omega, by omega⟩

theorem sizeT_of_nonneg {n : Int} (h : 0 ≤ n) (hlt : n < 2 ^ 64) : (sizeT n : Int) = n := by
  rw [sizeT]
  omega

theorem WellFormed.room_eq {b : BufferMemory} (h : b.WellFormed) :
    (b.room : Int) = b.bufferSize - PRE_RESERVE_HEADER_SIZE := by
  obtain ⟨-, -, -, -, hreserve, hsize, hint⟩ := h
  rw [room]
  exact sizeT_of_nonneg (by omega) (by omega)

theorem checkInt_of_lt {n : Int} (h : n < 2 ^ 31) : checkInt n = .ok n := if_pos h

/-- The buffer after bytes have been put behind the unread ones at the front of
an allocation. -/
theorem wellFormed_of_front {b : BufferMemory} {before bytes after : Bytes}
    (hbuffer : b.buffer = before ++ bytes ++ after)
    (hbefore : before.length = PRE_RESERVE_HEADER_SIZE) (hlen : b.dataLen = bytes.length)
    (hstart : b.start = PRE_RESERVE_HEADER_SIZE)
    (hend : b.end_ = PRE_RESERVE_HEADER_SIZE + b.dataLen)
    (hreserve : PRE_RESERVE_HEADER_SIZE ≤ b.bufferSize) (hsize : b.bufferSize ≤ b.buffer.length)
    (hint : b.buffer.length < 2 ^ 31) : b.WellFormed ∧ b.data = bytes := by
  have htotal : b.buffer.length = before.length + bytes.length + after.length := by
    rw [hbuffer, List.length_append, List.length_append]
  refine ⟨⟨by omega, by omega, by omega, by omega, hreserve, hsize, hint⟩, ?_⟩
  exact data_eq hbuffer (by omega) hlen

section Append

variable {b : BufferMemory} {input : Bytes}

theorem WellFormed.read (h : b.WellFormed) : readMemory b.buffer b.start b.dataLen = .ok b.data := by
  obtain ⟨before, after, hbuffer, hstart, hlen⟩ := h.layout
  rw [hbuffer]
  exact readMemory_append hstart hlen

theorem appendGrow_spec (h : b.WellFormed) (contents : Nat → UInt8)
    (hfits : b.dataLen + input.length + EXTRA_LEN < 2 ^ 31) :
    ∃ b', appendGrow contents input b = .ok b' ∧ b'.WellFormed ∧ b'.data = b.data ++ input := by
  obtain ⟨-, -, -, -, hlen⟩ := h.layout
  have hextra : EXTRA_LEN = 10240 := rfl
  have hreserve : PRE_RESERVE_HEADER_SIZE = 200 := rfl
  have hnewLen : (b.dataLen + input.length + EXTRA_LEN).toNat =
      b.data.length + input.length + EXTRA_LEN := by omega
  have halloc : (allocate contents (b.data.length + input.length + EXTRA_LEN)).length =
      b.data.length + input.length + EXTRA_LEN := by simp [allocate]
  obtain ⟨middle, before, after, hfirst, hsecond, hbefore, htotal⟩ :=
    writeMemory_two (allocate contents (b.data.length + input.length + EXTRA_LEN)) b.data input
      (show PRE_RESERVE_HEADER_SIZE + b.data.length + input.length ≤ _ by omega)
  rw [← hlen] at hsecond
  refine ⟨{ buffer := before ++ (b.data ++ input) ++ after
            bufferSize := b.data.length + input.length + EXTRA_LEN
            dataLen := b.dataLen + input.length
            start := PRE_RESERVE_HEADER_SIZE
            end_ := PRE_RESERVE_HEADER_SIZE + (b.dataLen + input.length) }, ?_, ?_⟩
  · simp only [appendGrow, checkInt_of_lt hfits, Run.ok_bind, hnewLen, h.read, hfirst, hsecond,
      checkInt_of_lt (show b.dataLen + input.length < 2 ^ 31 by omega)]
    rfl
  · apply wellFormed_of_front rfl hbefore
    · simp only [List.length_append]
      omega
    · rfl
    · rfl
    · show PRE_RESERVE_HEADER_SIZE ≤ b.data.length + input.length + EXTRA_LEN
      omega
    · show b.data.length + input.length + EXTRA_LEN ≤ (before ++ (b.data ++ input) ++ after).length
      simp only [List.length_append]
      omega
    · simp only [List.length_append]
      omega

theorem appendMove_spec (h : b.WellFormed)
    (hfits : PRE_RESERVE_HEADER_SIZE + b.dataLen + input.length ≤ b.bufferSize) :
    ∃ b', appendMove input b = .ok b' ∧ b'.WellFormed ∧ b'.data = b.data ++ input := by
  obtain ⟨-, -, -, -, hlen⟩ := h.layout
  have hsize := h.size
  have hint := h.int
  obtain ⟨middle, before, after, hfirst, hsecond, hbefore, htotal⟩ :=
    writeMemory_two b.buffer b.data input
      (show PRE_RESERVE_HEADER_SIZE + b.data.length + input.length ≤ _ by omega)
  rw [← hlen] at hsecond
  refine ⟨{ b with
            buffer := before ++ (b.data ++ input) ++ after
            dataLen := b.dataLen + input.length
            start := PRE_RESERVE_HEADER_SIZE
            end_ := PRE_RESERVE_HEADER_SIZE + (b.dataLen + input.length) }, ?_, ?_⟩
  · simp only [appendMove, h.read, Run.ok_bind, hfirst, ite_self, hsecond,
      checkInt_of_lt (show b.dataLen + input.length < 2 ^ 31 by omega)]
    rfl
  · apply wellFormed_of_front rfl hbefore
    · simp only [List.length_append]
      omega
    · rfl
    · rfl
    · exact h.reserve
    · show b.bufferSize ≤ (before ++ (b.data ++ input) ++ after).length
      simp only [List.length_append]
      omega
    · simp only [List.length_append]
      omega

theorem appendInPlace_spec (h : b.WellFormed) (hfits : b.end_ + input.length ≤ b.buffer.length) :
    ∃ b', appendInPlace input b = .ok b' ∧ b'.WellFormed ∧ b'.data = b.data ++ input := by
  obtain ⟨before, after, hbuffer, hstart, hlen⟩ := h.layout
  obtain ⟨hcursors, hnonneg, -, hinside, hreserve, hsize, hint⟩ := h
  have htotal : b.buffer.length = before.length + b.data.length + after.length := by
    conv_lhs => rw [hbuffer]
    rw [List.length_append, List.length_append]
  obtain ⟨old, rest, hafter, hold⟩ := exists_append_of_le after (n := input.length) (by omega)
  have hwrite : writeMemory b.buffer b.end_ input = .ok (before ++ b.data ++ input ++ rest) := by
    rw [hbuffer, hafter, ← List.append_assoc (before ++ b.data),
      writeMemory_append (by simp only [List.length_append]; omega) hold]
  have hparts : after.length = input.length + rest.length := by
    rw [hafter, List.length_append, hold]
  refine ⟨{ b with
            buffer := before ++ b.data ++ input ++ rest
            dataLen := b.dataLen + input.length
            end_ := b.end_ + input.length }, ?_, ⟨?_, hnonneg, ?_, ?_, hreserve, ?_, ?_⟩, ?_⟩
  · simp only [appendInPlace, hwrite, Run.ok_bind,
      checkInt_of_lt (show b.dataLen + input.length < 2 ^ 31 by omega),
      checkInt_of_lt (show b.end_ + input.length < 2 ^ 31 by omega)]
    rfl
  · show b.start + (b.dataLen + input.length) = b.end_ + input.length
    omega
  · show 0 ≤ b.dataLen + input.length
    omega
  · show b.end_ + input.length ≤ (before ++ b.data ++ input ++ rest).length
    simp only [List.length_append]
    omega
  · show b.bufferSize ≤ (before ++ b.data ++ input ++ rest).length
    simp only [List.length_append]
    omega
  · show (before ++ b.data ++ input ++ rest).length < 2 ^ 31
    simp only [List.length_append]
    omega
  · apply @data_eq _ before _ rest
    · simp only [List.append_assoc]
    · exact hstart
    · show b.dataLen + input.length = (b.data ++ input).length
      rw [List.length_append]
      omega

end Append

/-! ## The queue -/

/-- The calls. -/
inductive Op where
  | append (contents : Nat → UInt8) (inputData : Option Bytes)
  | consume (consumeLen : Int)
  | reset

/-- One call on the buffer. -/
def step : Op → BufferMemory → Except Fault BufferMemory
  | .append contents inputData, b => do return (← b.appendData contents inputData).1
  | .consume consumeLen, b => .ok (b.consumeData consumeLen).1
  | .reset, b => .ok b.reset

/-- A call that makes a new allocation makes one of less than 2^31 bytes. -/
def Fits : Op → BufferMemory → Prop
  | .append _ (some input), b =>
    sizeT b.end_ + input.length > b.room → sizeT b.dataLen + input.length ≥ b.room →
      b.dataLen + input.length + EXTRA_LEN < 2 ^ 31
  | _, _ => True

/-- What a call does to the queue of the unread bytes.  The queue does not know
how many bytes can be taken back, nor which ones. -/
inductive QueueStep (queue : DataBuffer) : Op → DataBuffer → Prop
  | append (contents : Nat → UInt8) (inputData : Option Bytes) :
    QueueStep queue (.append contents inputData) (queue.appendData (inputData.getD []))
  | consume (n : Nat) (h : n ≤ queue.length) : QueueStep queue (.consume n) (queue.consumeData n)
  | refuse (n : Int) (h : n < 0 ∨ queue.length < n) : QueueStep queue (.consume n) queue
  | takeBack (extra : Bytes) (h : extra ≠ []) :
    QueueStep queue (.consume (-extra.length)) (extra ++ queue)
  | reset : QueueStep queue .reset []

/-- The queues that calls can lead to. -/
inductive QueueRun : DataBuffer → List Op → DataBuffer → Prop
  | done (queue : DataBuffer) : QueueRun queue [] queue
  | call {op : Op} {ops : List Op} {queue queue' queue'' : DataBuffer}
    (hstep : QueueStep queue op queue') (hrest : QueueRun queue' ops queue'') :
    QueueRun queue (op :: ops) queue''

/-- `consume_data` of `n` bytes: what a null pointer means, and what it means that
there is none. -/
structure Consumes (b : BufferMemory) (n : Int) : Prop where
  null : (b.consumeData n).2 = none → (b.consumeData n).1 = b
  drop : 0 ≤ n → n ≤ b.data.length →
    (b.consumeData n).2 ≠ none ∧ (b.consumeData n).1.data = b.data.drop n.toNat
  takeBack : n < 0 → (b.consumeData n).2 ≠ none →
    ∃ extra : Bytes, (extra.length : Int) = -n ∧ (b.consumeData n).1.data = extra ++ b.data

section Steps

variable {b : BufferMemory}

theorem appendData_spec (h : b.WellFormed) {contents : Nat → UInt8} {inputData : Option Bytes}
    (hfits : Fits (.append contents inputData) b) :
    ∃ b' len, b.appendData contents inputData = .ok (b', len) ∧ b'.WellFormed ∧
      b'.data = b.data ++ inputData.getD [] := by
  rcases inputData with _ | input
  · exact ⟨b, 0, rfl, h, by simp⟩
  by_cases hempty : input.length = 0
  · have hnil := List.length_eq_zero_iff.mp hempty
    refine ⟨b, 0, ?_, h, by simp [hnil]⟩
    rw [appendData, if_pos hempty]
  have hroom := h.room_eq
  have hend : (sizeT b.end_ : Int) = b.end_ :=
    sizeT_of_nonneg (by have := h.cursors; have := h.start_nonneg; have := h.dataLen_nonneg; omega)
      (by have := h.inside; have := h.int; omega)
  have hlen : (sizeT b.dataLen : Int) = b.dataLen :=
    sizeT_of_nonneg h.dataLen_nonneg
      (by have := h.inside; have := h.int; have := h.cursors; have := h.start_nonneg; omega)
  have hstep : ∃ b', appendBytes contents input b = .ok b' ∧ b'.WellFormed ∧
      b'.data = b.data ++ input := by
    rw [appendBytes]
    by_cases hover : sizeT b.end_ + input.length > b.room
    · rw [if_pos hover]
      by_cases hgrow : sizeT b.dataLen + input.length ≥ b.room
      · rw [if_pos hgrow]
        exact appendGrow_spec h contents (hfits hover hgrow)
      · rw [if_neg hgrow]
        exact appendMove_spec h (by omega)
    · rw [if_neg hover]
      have hsize := h.size
      exact appendInPlace_spec h (by omega)
  obtain ⟨b', hb', hwf, hdata⟩ := hstep
  refine ⟨b', b'.dataLen, ?_, hwf, hdata⟩
  rw [appendData, if_neg hempty, hb']
  rfl

/-- A call of `consume_data` that is not refused. -/
theorem consumeData_spec (h : b.WellFormed) {n : Int} (hlen : n ≤ b.dataLen)
    (hstart : 0 ≤ b.start + n) :
    (b.consumeData n).2 ≠ none ∧ (b.consumeData n).1.WellFormed ∧
      (0 ≤ n → (b.consumeData n).1.data = b.data.drop n.toNat) ∧
      (n < 0 → ∃ extra : Bytes, (extra.length : Int) = -n ∧
        (b.consumeData n).1.data = extra ++ b.data) := by
  have hconsume : b.consumeData n = ({ b with start := b.start + n, dataLen := b.dataLen - n },
      some (b.start + n)) := by
    rw [consumeData, if_neg (by omega), if_neg (by omega)]
  obtain ⟨before, after, hbuffer, hbefore, hbytes⟩ := h.layout
  obtain ⟨hcursors, hnonneg, hlennonneg, hinside, hreserve, hsize, hint⟩ := h
  rw [hconsume]
  refine ⟨by simp, ⟨?_, hstart, ?_, hinside, hreserve, hsize, hint⟩, fun hn => ?_, fun hn => ?_⟩
  · show b.start + n + (b.dataLen - n) = b.end_
    omega
  · show 0 ≤ b.dataLen - n
    omega
  · -- the bytes that are dropped join the ones before
    apply @data_eq _ (before ++ b.data.take n.toNat) _ after
    · show b.buffer = _
      conv_lhs => rw [hbuffer]
      rw [List.append_assoc before (b.data.take _), List.take_append_drop]
    · show b.start + n = _
      rw [List.length_append, List.length_take]
      omega
    · show b.dataLen - n = _
      rw [List.length_drop]
      omega
  · -- the last bytes before join the unread ones
    obtain ⟨front, extra, hsplit, hfront⟩ :=
      exists_append_of_le before (n := (b.start + n).toNat) (by omega)
    have htotal : before.length = front.length + extra.length := by
      rw [hsplit, List.length_append]
    refine ⟨extra, by omega, ?_⟩
    apply @data_eq _ front _ after
    · show b.buffer = _
      conv_lhs => rw [hbuffer, hsplit]
      simp only [List.append_assoc]
    · show b.start + n = _
      omega
    · show b.dataLen - n = _
      rw [List.length_append]
      omega

/-- The calls of `consume_data` that are refused. -/
theorem consumeData_refused {n : Int} (h : ¬ (n ≤ b.dataLen ∧ 0 ≤ b.start + n))
    (hstart : 0 ≤ b.start) : b.consumeData n = (b, none) := by
  rw [consumeData]
  by_cases hlen : n > b.dataLen
  · rw [if_pos hlen]
  · rw [if_neg hlen, if_pos (by omega)]

theorem consumes (h : b.WellFormed) (n : Int) : b.Consumes n := by
  obtain ⟨-, -, -, -, hbytes⟩ := h.layout
  have hnonneg := h.start_nonneg
  by_cases haccept : n ≤ b.dataLen ∧ 0 ≤ b.start + n
  · obtain ⟨hsome, -, hdrop, hback⟩ := consumeData_spec h haccept.1 haccept.2
    exact ⟨fun hnone => absurd hnone hsome, fun hn _ => ⟨hsome, hdrop hn⟩, fun hn _ => hback hn⟩
  · have hrefused := consumeData_refused haccept hnonneg
    refine ⟨fun _ => by rw [hrefused], fun hn hle => ?_, fun _ hsome => ?_⟩
    · exact absurd ⟨by omega, by omega⟩ haccept
    · exact absurd (by rw [hrefused]) hsome

/-- One call, and the queue. -/
theorem step_spec (h : b.WellFormed) {op : Op} (hfits : Fits op b) :
    ∃ b', step op b = .ok b' ∧ b'.WellFormed ∧ QueueStep b.data op b'.data := by
  obtain ⟨-, -, -, -, hbytes⟩ := h.layout
  cases op with
  | append contents inputData =>
    obtain ⟨b', len, happend, hwf, hdata⟩ := appendData_spec h hfits
    refine ⟨b', by rw [step, happend]; rfl, hwf, ?_⟩
    rw [hdata]
    exact .append contents inputData
  | consume n =>
    refine ⟨(b.consumeData n).1, rfl, ?_⟩
    by_cases haccept : n ≤ b.dataLen ∧ 0 ≤ b.start + n
    · obtain ⟨-, hwf, hdrop, hback⟩ := consumeData_spec h haccept.1 haccept.2
      refine ⟨hwf, ?_⟩
      by_cases hn : 0 ≤ n
      · obtain ⟨k, rfl⟩ := Int.eq_ofNat_of_zero_le hn
        have hk : k ≤ b.data.length := by omega
        rw [hdrop hn, Int.toNat_natCast, ← DataBuffer.consumeData_eq_drop hk]
        exact .consume k hk
      · obtain ⟨extra, hlen, hdata⟩ := hback (by omega)
        have hne : extra ≠ [] := by
          rintro rfl
          rw [List.length_nil] at hlen
          omega
        rw [hdata, show n = -extra.length by omega]
        exact .takeBack extra hne
    · rw [consumeData_refused haccept h.start_nonneg]
      have hstart := h.start_nonneg
      exact ⟨h, .refuse n (by omega)⟩
  | reset =>
    obtain ⟨-, -, -, -, hreserve, hsize, hint⟩ := h
    refine ⟨b.reset, rfl, ⟨?_, ?_, ?_, ?_, hreserve, hsize, hint⟩, ?_⟩
    · exact Int.add_zero _
    · exact Int.natCast_nonneg _
    · exact Int.le_refl _
    · show (PRE_RESERVE_HEADER_SIZE : Int) ≤ b.buffer.length
      omega
    · rw [show b.reset.data = [] by simp [data, reset]]
      exact .reset

/-- The unread bytes of a new buffer stay where they are. -/
theorem appendData_start {b' : BufferMemory} {contents : Nat → UInt8} {inputData : Option Bytes}
    {len : Int} (h : b.appendData contents inputData = .ok (b', len))
    (hstart : b.start = PRE_RESERVE_HEADER_SIZE) : b'.start = PRE_RESERVE_HEADER_SIZE := by
  rcases inputData with _ | input
  · cases h
    exact hstart
  rw [appendData] at h
  split at h
  · cases h
    exact hstart
  obtain ⟨b₁, hbytes, hret⟩ := Run.exists_of_bind_ok h
  cases hret
  rw [appendBytes] at hbytes
  split at hbytes
  · split at hbytes
    · obtain ⟨_, -, hbytes⟩ := Run.exists_of_bind_ok hbytes
      obtain ⟨_, -, hbytes⟩ := Run.exists_of_bind_ok hbytes
      obtain ⟨_, -, hbytes⟩ := Run.exists_of_bind_ok hbytes
      obtain ⟨_, -, hbytes⟩ := Run.exists_of_bind_ok hbytes
      obtain ⟨_, -, hbytes⟩ := Run.exists_of_bind_ok hbytes
      cases hbytes
      rfl
    · rw [appendMove, ite_self] at hbytes
      obtain ⟨_, -, hbytes⟩ := Run.exists_of_bind_ok hbytes
      obtain ⟨_, -, hbytes⟩ := Run.exists_of_bind_ok hbytes
      obtain ⟨_, -, hbytes⟩ := Run.exists_of_bind_ok hbytes
      obtain ⟨_, -, hbytes⟩ := Run.exists_of_bind_ok hbytes
      cases hbytes
      rfl
  · obtain ⟨_, -, hbytes⟩ := Run.exists_of_bind_ok hbytes
    obtain ⟨_, -, hbytes⟩ := Run.exists_of_bind_ok hbytes
    obtain ⟨_, -, hbytes⟩ := Run.exists_of_bind_ok hbytes
    cases hbytes
    exact hstart

/-- The first unread bytes are written over. -/
theorem WellFormed.overwrite (h : b.WellFormed) {old rest bytes : Bytes}
    (hdata : b.data = old ++ rest) (hlen : old.length = bytes.length) :
    ∃ buffer, writeMemory b.buffer b.start bytes = .ok buffer ∧
      WellFormed { b with buffer := buffer } ∧ data { b with buffer := buffer } = bytes ++ rest := by
  obtain ⟨before, after, hbuffer, hstart, hcount⟩ := h.layout
  rw [hdata, ← List.append_assoc before, List.append_assoc _ rest] at hbuffer
  have hsame : (before ++ bytes ++ (rest ++ after)).length = b.buffer.length := by
    rw [hbuffer]
    simp only [List.length_append, hlen]
  refine ⟨before ++ bytes ++ (rest ++ after), ?_, ?_, ?_⟩
  · rw [hbuffer]
    exact writeMemory_append hstart hlen
  · obtain ⟨hcursors, hnonneg, hlennonneg, hinside, hreserve, hsize, hint⟩ := h
    rw [← hsame] at hinside hsize hint
    exact ⟨hcursors, hnonneg, hlennonneg, hinside, hreserve, hsize, hint⟩
  · apply @data_eq _ before _ after
    · simp only [List.append_assoc]
    · exact hstart
    · show b.dataLen = _
      rw [hcount, hdata, List.length_append, List.length_append, hlen]

theorem new_wellFormed (contents : Nat → UInt8) : (new contents EXTRA_LEN).WellFormed := by
  have hlen : (new contents EXTRA_LEN).buffer.length = EXTRA_LEN + PRE_RESERVE_HEADER_SIZE := by
    simp [new, allocate]
  refine ⟨rfl, ?_, ?_, ?_, ?_, ?_, ?_⟩
  · exact Int.natCast_nonneg _
  · exact Int.le_refl _
  · rw [hlen]
    show (PRE_RESERVE_HEADER_SIZE : Int) ≤ _
    omega
  · show PRE_RESERVE_HEADER_SIZE ≤ EXTRA_LEN
    decide
  · rw [hlen]
    exact Nat.le_add_right _ _
  · rw [hlen]
    decide

end Steps

/-- The state after calls whose sizes fit. -/
theorem run_spec {b : BufferMemory} {ops : List Op} (h : b.WellFormed)
    (hfits : Run.Along step Fits ops b) :
    ∃ b', Run.run step ops b = .ok b' ∧ b'.WellFormed ∧ QueueRun b.data ops b'.data := by
  induction ops generalizing b with
  | nil => exact ⟨b, rfl, h, .done b.data⟩
  | cons op ops ih =>
    obtain ⟨b₁, hstep, hwf, hqueue⟩ := step_spec h hfits.1
    obtain ⟨b₂, hrun, hwf', hrest⟩ := ih hwf (hfits.2 b₁ hstep)
    exact ⟨b₂, by rw [Run.run_cons hstep, hrun], hwf', .call hqueue hrest⟩

/-- **The buffer is a queue.**  Every run of calls whose sizes fit stays inside the
allocation and keeps the invariant, and the unread bytes are a queue that the
calls lead to.  In every state that is reached, `consume_data` drops bytes from
the front, takes bytes back in front of the others, or changes nothing. -/
theorem buffer_refines_queue (contents : Nat → UInt8) (ops : List Op)
    (hfits : Run.Along step Fits ops (new contents EXTRA_LEN)) :
    ∃ b, Run.run step ops (new contents EXTRA_LEN) = .ok b ∧ b.WellFormed ∧
      QueueRun [] ops b.data ∧ ∀ n, b.Consumes n := by
  obtain ⟨b, hrun, hwf, hqueue⟩ := run_spec (new_wellFormed contents) hfits
  rw [show (new contents EXTRA_LEN).data = [] by simp [data, new]] at hqueue
  exact ⟨b, hrun, hwf, hqueue, consumes hwf⟩

/-- Bytes that need a new allocation, of which some are read and taken back. -/
theorem buffer_refines_queue_grown :
    ∃ b, Run.run step [.append (fun _ => 7) (some (List.replicate 20000 1)), .consume 3,
        .consume (-5), .reset] (new (fun _ => 9) EXTRA_LEN) = .ok b ∧ b.WellFormed ∧
      QueueRun [] [.append (fun _ => 7) (some (List.replicate 20000 1)), .consume 3,
        .consume (-5), .reset] b.data ∧ ∀ n, b.Consumes n := by
  apply buffer_refines_queue
  refine ⟨fun _ _ => ?_, fun _ _ => ⟨trivial, fun _ _ => ⟨trivial, fun _ _ => ⟨trivial,
    fun _ _ => trivial⟩⟩⟩⟩
  rw [List.length_replicate]
  decide

end BufferMemory

end MediaServer
