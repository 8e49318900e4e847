import MediaServer.Lib.BigEndian

/-!
# Byte buffers and big-endian fields

`utils/data_buffer` keeps the unread bytes of a stream in one allocation and
moves two cursors over it.  What its callers see is a queue of bytes, and this
file models it as that queue: `appendData` adds at the end, `consumeData`
drops from the front, `require` asks whether enough bytes are there.

`utils/byte_stream` reads and writes big-endian fields through a pointer.
Here the pointer is the list of the bytes that follow it.  A read takes the
first bytes of that list, and the callers check the length first.

A run that leaves the defined behaviour of the program ends in a `Fault`.
-/

namespace MediaServer

/-- The ways in which a run leaves the defined behaviour of the program. -/
inductive Fault where
  | divisionByZero
  | nullPointer
  | outOfBounds
  | useAfterFree
  | assertFailed
  | hang
  | overflow
  | badShift
  deriving DecidableEq, Repr

/-- Raw bytes: the contents of a buffer or of a `std::string`. -/
abbrev Bytes := List UInt8

/-- The number that a conversion to `int` stores. -/
def wrapInt (n : Int) : Int := n.bmod (2 ^ 32)

theorem wrapInt_of_lt {n : Nat} (h : n < 2 ^ 31) : wrapInt n = n := by
  rw [wrapInt]
  exact Int.bmod_eq_of_le (by omega) (by omega)

/-- A length that does not fit into an `int` becomes a smaller number. -/
theorem wrapInt_add_le {n : Nat} (h : 2 ^ 31 ≤ n) : wrapInt n + (2 ^ 32 : Nat) ≤ n := by
  simp only [wrapInt, Int.bmod]
  split
  · omega
  · omega

theorem wrapInt_le (n : Nat) : wrapInt n ≤ n := by
  by_cases h : n < 2 ^ 31
  · exact Int.le_of_eq (wrapInt_of_lt h)
  · have hle := wrapInt_add_le (Nat.le_of_not_lt h)
    omega

/-- The bytes of an ASCII text. -/
def ascii (s : String) : Bytes := s.toList.map fun c => c.toNat.toUInt8

/-- The unread bytes of a `data_buffer`. -/
abbrev DataBuffer := Bytes

namespace DataBuffer

/-- `data_len`. -/
abbrev dataLen (buf : DataBuffer) : Nat := buf.length

/-- `append_data`. -/
def appendData (buf : DataBuffer) (input : Bytes) : DataBuffer := buf ++ input

/-- `consume_data` refuses to drop more bytes than there are. -/
def consumeData (buf : DataBuffer) (consumeLen : Nat) : DataBuffer :=
  if consumeLen > buf.dataLen then buf else buf.drop consumeLen

/-- `require`: as many bytes are there. -/
def require (buf : DataBuffer) (len : Nat) : Bool := len ≤ buf.dataLen

@[simp] theorem require_eq_true {buf : DataBuffer} {len : Nat} :
    buf.require len = true ↔ len ≤ buf.length := by
  simp [require]

@[simp] theorem require_eq_false {buf : DataBuffer} {len : Nat} :
    buf.require len = false ↔ buf.length < len := by
  simp [require]

theorem consumeData_eq_drop {buf : DataBuffer} {len : Nat} (h : len ≤ buf.length) :
    buf.consumeData len = buf.drop len := by
  simp [consumeData, Nat.not_lt.mpr h]

/-- Bytes behind the ones that are consumed stay where they are. -/
theorem consumeData_append {buf : DataBuffer} {len : Nat} (h : len ≤ buf.length)
    (e : Bytes) :
    consumeData (buf ++ e) len = buf.consumeData len ++ e := by
  rw [consumeData_eq_drop h,
    consumeData_eq_drop (by rw [List.length_append]; omega),
    List.drop_append_of_le_length h]

theorem consumeData_length_le (buf : DataBuffer) (len : Nat) :
    (buf.consumeData len).length ≤ buf.length := by
  unfold consumeData
  split <;> simp

end DataBuffer

/-! ## Fields -/

/-- `read_2bytes`. -/
def read2bytes (data : Bytes) : UInt16 := UInt16.ofNat (BigEndian.value (data.take 2))

/-- `read_3bytes`. -/
def read3bytes (data : Bytes) : UInt32 := UInt32.ofNat (BigEndian.value (data.take 3))

/-- `read_4bytes`. -/
def read4bytes (data : Bytes) : UInt32 := UInt32.ofNat (BigEndian.value (data.take 4))

/-- `read_8bytes`. -/
def read8bytes (data : Bytes) : UInt64 := UInt64.ofNat (BigEndian.value (data.take 8))

/-- `write_2bytes`. -/
def write2bytes (value : UInt16) : Bytes := BigEndian.digits 2 value.toNat

/-- `write_3bytes`, which drops the highest byte. -/
def write3bytes (value : UInt32) : Bytes := BigEndian.digits 3 value.toNat

/-- `write_4bytes`. -/
def write4bytes (value : UInt32) : Bytes := BigEndian.digits 4 value.toNat

/-- `write_8bytes`. -/
def write8bytes (value : UInt64) : Bytes := BigEndian.digits 8 value.toNat

@[simp] theorem write2bytes_length (v : UInt16) : (write2bytes v).length = 2 := by
  simp [write2bytes]

@[simp] theorem write3bytes_length (v : UInt32) : (write3bytes v).length = 3 := by
  simp [write3bytes]

@[simp] theorem write4bytes_length (v : UInt32) : (write4bytes v).length = 4 := by
  simp [write4bytes]

@[simp] theorem write8bytes_length (v : UInt64) : (write8bytes v).length = 8 := by
  simp [write8bytes]

/-- A 16-bit field reads back as it was written. -/
@[simp] theorem read2bytes_write2bytes (v : UInt16) (rest : Bytes) :
    read2bytes (write2bytes v ++ rest) = v := by
  have hv := v.toNat_lt
  rw [read2bytes, write2bytes, BigEndian.take_digits_append, BigEndian.value_digits,
    Nat.mod_eq_of_lt (by omega), UInt16.ofNat_toNat]

/-- Two bytes are the 16-bit field that is read from them. -/
theorem write2bytes_read2bytes {data : Bytes} (h : 2 ≤ data.length) :
    write2bytes (read2bytes data) = data.take 2 := by
  have hlen : (data.take 2).length = 2 := by
    rw [List.length_take]
    omega
  have hlt := BigEndian.value_lt (data.take 2)
  rw [hlen] at hlt
  have hvalue := BigEndian.digits_value (data.take 2)
  rw [hlen] at hvalue
  rw [write2bytes, read2bytes, UInt16.toNat_ofNat_of_lt' (by simpa using hlt), hvalue]

/-- A 32-bit field reads back as it was written. -/
@[simp] theorem read4bytes_write4bytes (v : UInt32) (rest : Bytes) :
    read4bytes (write4bytes v ++ rest) = v := by
  have hv := v.toNat_lt
  rw [read4bytes, write4bytes, BigEndian.take_digits_append, BigEndian.value_digits,
    Nat.mod_eq_of_lt (by omega), UInt32.ofNat_toNat]

/-- A 64-bit field reads back as it was written. -/
@[simp] theorem read8bytes_write8bytes (v : UInt64) (rest : Bytes) :
    read8bytes (write8bytes v ++ rest) = v := by
  have hv := v.toNat_lt
  rw [read8bytes, write8bytes, BigEndian.take_digits_append, BigEndian.value_digits,
    Nat.mod_eq_of_lt (by omega), UInt64.ofNat_toNat]

/-- A number below `2 ^ 24` reads back from a 24-bit field. -/
theorem read3bytes_write3bytes {v : UInt32} (h : v.toNat < 2 ^ 24) (rest : Bytes) :
    read3bytes (write3bytes v ++ rest) = v := by
  rw [read3bytes, write3bytes, BigEndian.take_digits_append, BigEndian.value_digits,
    Nat.mod_eq_of_lt (by omega), UInt32.ofNat_toNat]

/-- A 24-bit field does not hold more than `2 ^ 24 - 1`. -/
theorem read3bytes_le (data : Bytes) : read3bytes data ≤ 0xffffff := by
  have hlt := BigEndian.value_lt (data.take 3)
  have hpow : 256 ^ (data.take 3).length ≤ 256 ^ 3 :=
    Nat.pow_le_pow_right (by omega) (List.length_take_le 3 data)
  rw [read3bytes, UInt32.le_iff_toNat_le, UInt32.toNat_ofNat']
  show BigEndian.value (data.take 3) % 2 ^ 32 ≤ 0xffffff
  omega

/-- A field at the front is the same whatever follows it. -/
theorem read4bytes_append {data : Bytes} (h : 4 ≤ data.length) (e : Bytes) :
    read4bytes (data ++ e) = read4bytes data := by
  rw [read4bytes, List.take_append_of_le_length h, read4bytes]

end MediaServer
