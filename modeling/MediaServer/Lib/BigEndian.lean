import Mathlib.Algebra.Group.Nat.Defs
import Mathlib.Data.List.Basic

/-!
# Big-endian numbers in byte lists

A fixed-width unsigned number on the wire is a list of bytes, most
significant byte first.  `value` reads such a list and `digits` writes the
low `n` bytes of a natural number.  Reading back what was written gives the
number modulo `256 ^ n`, which is what a field of `n` bytes can hold.
-/

namespace BigEndian

/-- The number that a byte list denotes, most significant byte first. -/
def value : List UInt8 → Nat
  | [] => 0
  | b :: bs => b.toNat * 256 ^ bs.length + value bs

/-- The low `n` bytes of `v`, most significant byte first. -/
def digits : Nat → Nat → List UInt8
  | 0, _ => []
  | n + 1, v => UInt8.ofNat (v / 256 ^ n) :: digits n v

@[simp] theorem digits_length (n v : Nat) : (digits n v).length = n := by
  induction n with
  | zero => rfl
  | succ n ih => simp [digits, ih]

/-- A field of `n` bytes keeps a number modulo `256 ^ n`. -/
@[simp] theorem value_digits (n v : Nat) : value (digits n v) = v % 256 ^ n := by
  induction n with
  | zero => simp [digits, value, Nat.mod_one]
  | succ n ih =>
    simp only [digits, value, digits_length, ih, UInt8.toNat_ofNat']
    rw [Nat.mod_pow_succ (x := v), Nat.mul_comm, Nat.add_comm]

/-- A field of `n` bytes holds a number below `256 ^ n`. -/
theorem value_lt (bs : List UInt8) : value bs < 256 ^ bs.length := by
  induction bs with
  | nil => simp [value]
  | cons b bs ih =>
    have hb := b.toNat_lt
    have hle : b.toNat * 256 ^ bs.length ≤ 255 * 256 ^ bs.length :=
      Nat.mul_le_mul_right _ (by omega)
    rw [value, List.length_cons, Nat.pow_succ]
    omega

/-- The digits of a number do not depend on what is above them. -/
theorem digits_mod (n v : Nat) : digits n (v % 256 ^ n) = digits n v := by
  induction n generalizing v with
  | zero => rfl
  | succ n ih =>
    have hhead : UInt8.ofNat (v % 256 ^ (n + 1) / 256 ^ n) = UInt8.ofNat (v / 256 ^ n) := by
      rw [Nat.pow_succ, Nat.mod_mul_right_div_self, ← UInt8.toNat_inj, UInt8.toNat_ofNat',
        UInt8.toNat_ofNat', Nat.mod_mod]
    have htail : digits n (v % 256 ^ (n + 1)) = digits n v := by
      rw [← ih (v % 256 ^ (n + 1)), Nat.mod_mod_of_dvd v (Nat.pow_dvd_pow 256 n.le_succ), ih v]
    rw [digits, digits, hhead, htail]

/-- Writing back the number that a field holds gives its bytes. -/
theorem digits_value (bs : List UInt8) : digits bs.length (value bs) = bs := by
  induction bs with
  | nil => rfl
  | cons b bs ih =>
    have hlow := value_lt bs
    have hpos : 0 < 256 ^ bs.length := Nat.pow_pos (by omega)
    have hhead : (b.toNat * 256 ^ bs.length + value bs) / 256 ^ bs.length = b.toNat := by
      rw [Nat.add_comm, Nat.add_mul_div_right _ _ hpos, Nat.div_eq_of_lt hlow, Nat.zero_add]
    have hrest : digits bs.length (b.toNat * 256 ^ bs.length + value bs) = bs := by
      rw [← digits_mod, Nat.add_comm, Nat.add_mul_mod_self_right, digits_mod, ih]
    rw [List.length_cons, value, digits, hhead, hrest, UInt8.ofNat_toNat]

/-- Exclusive or byte by byte is exclusive or of the numbers. -/
theorem value_zipWith_xor {as bs : List UInt8} (h : as.length = bs.length) :
    value (as.zipWith (· ^^^ ·) bs) = value as ^^^ value bs := by
  induction as generalizing bs with
  | nil =>
    rw [List.length_eq_zero_iff.mp h.symm]
    rfl
  | cons a as ih =>
    cases bs with
    | nil => cases h
    | cons b bs =>
      have hlen : as.length = bs.length := Nat.succ.inj h
      have hpow : ∀ n, 256 ^ n = 2 ^ (8 * n) := fun n => by rw [Nat.pow_mul]
      have ha := value_lt as
      have hb := value_lt bs
      rw [hlen, hpow] at ha
      rw [hpow] at hb
      have hxor : value as ^^^ value bs < 2 ^ (8 * bs.length) := Nat.xor_lt_two_pow ha hb
      rw [List.zipWith_cons_cons, value, value, value, ih hlen, List.length_zipWith, hlen,
        Nat.min_self, UInt8.toNat_xor, hpow]
      apply Nat.eq_of_testBit_eq
      intro j
      simp only [Nat.testBit_xor, Nat.mul_comm _ (2 ^ _), Nat.testBit_two_pow_mul_add _ hxor,
        Nat.testBit_two_pow_mul_add _ ha, Nat.testBit_two_pow_mul_add _ hb]
      split <;> rfl

/-- The first `n` bytes of a written field followed by anything are the
field. -/
@[simp] theorem take_digits_append (n v : Nat) (rest : List UInt8) :
    (digits n v ++ rest).take n = digits n v := by
  rw [List.take_append_of_le_length (by simp)]
  exact List.take_of_length_le (by simp)

end BigEndian
