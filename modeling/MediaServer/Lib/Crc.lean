import Mathlib.Tactic.Common

/-!
# Reflected cyclic redundancy checks

A shift register over `BitVec w` with a polynomial, least significant bit first.
`crc` is the definition: the register takes the message one bit at a time.
`byteStep_eq_lookup` is what a table-driven implementation rests on.  The register
is linear in exclusive or, so eight steps from a word are eight steps from its low
byte, which a table holds, combined with the rest of the word shifted down.
-/

namespace MediaServer

namespace Crc

variable {w : Nat} (poly : BitVec w)

/-- The register with no input. -/
def bitStep (x : BitVec w) : BitVec w := x >>> 1 ^^^ (if x.getLsbD 0 then poly else 0#w)

/-- The register takes one bit of the message. -/
def feed (x : BitVec w) (b : Bool) : BitVec w :=
  x >>> 1 ^^^ (if x.getLsbD 0 != b then poly else 0#w)

/-- The bits of a byte in the order in which they are sent. -/
def bits (b : UInt8) : List Bool := (List.range 8).map b.toBitVec.getLsbD

/-- The check value of a message, bit by bit. -/
def crc (start final : BitVec w) (message : List UInt8) : BitVec w :=
  (message.flatMap bits).foldl (feed poly) start ^^^ final

/-- Several steps of the register, without a bit of the message. -/
def steps : Nat → BitVec w → BitVec w
  | 0, x => x
  | n + 1, x => steps n (bitStep poly x)

/-- A whole byte is added to the register, which then makes eight steps. -/
def byteStep (x : BitVec w) (b : UInt8) : BitVec w := steps poly 8 (x ^^^ b.toBitVec.setWidth w)

/-! ## The register is linear -/

theorem bitStep_xor (x y : BitVec w) :
    bitStep poly (x ^^^ y) = bitStep poly x ^^^ bitStep poly y := by
  simp only [bitStep, BitVec.getLsbD_xor, BitVec.ushiftRight_xor_distrib]
  cases x.getLsbD 0 <;> cases y.getLsbD 0 <;>
    simp only [Bool.xor_true, Bool.xor_false, Bool.not_true, Bool.not_false, Bool.false_eq_true,
      if_true, if_false, BitVec.xor_zero]
  · ac_rfl
  · ac_rfl
  · rw [BitVec.xor_assoc (x >>> 1), BitVec.xor_comm poly, BitVec.xor_assoc (y >>> 1),
      BitVec.xor_self, BitVec.xor_zero]

theorem steps_xor (n : Nat) (x y : BitVec w) :
    steps poly n (x ^^^ y) = steps poly n x ^^^ steps poly n y := by
  induction n generalizing x y with
  | zero => rfl
  | succ n ih => rw [steps, steps, steps, bitStep_xor, ih]

theorem bitStep_of_even {x : BitVec w} (h : x.getLsbD 0 = false) : bitStep poly x = x >>> 1 := by
  simp [bitStep, h]

/-- Bits that are not set leave the register by shifts only. -/
theorem steps_of_low_clear {n : Nat} {x : BitVec w} (h : ∀ i < n, x.getLsbD i = false) :
    steps poly n x = x >>> n := by
  induction n generalizing x with
  | zero => simp [steps]
  | succ n ih =>
    have hrest : ∀ i < n, (x >>> 1).getLsbD i = false := by
      intro i hi
      rw [BitVec.getLsbD_ushiftRight]
      exact h (1 + i) (by omega)
    rw [steps, bitStep_of_even poly (h 0 (by omega)), ih hrest, ← BitVec.shiftRight_add,
      Nat.add_comm]

/-! ## Bits of the message and bytes -/

theorem feed_eq (x v : BitVec w) :
    feed poly x (v.getLsbD 0) = bitStep poly (x ^^^ v) ^^^ v >>> 1 := by
  have hcancel : ∀ p : BitVec w, x >>> 1 ^^^ v >>> 1 ^^^ p ^^^ v >>> 1 = x >>> 1 ^^^ p := by
    intro p
    rw [BitVec.xor_assoc (x >>> 1), BitVec.xor_comm (v >>> 1) p, BitVec.xor_assoc (x >>> 1),
      BitVec.xor_assoc p, BitVec.xor_self, BitVec.xor_zero]
  rw [bitStep, BitVec.getLsbD_xor, BitVec.ushiftRight_xor_distrib, hcancel]
  rfl

/-- The register that takes the low bits of a word one at a time is ahead of the
one to which the word was added by what remains of the word. -/
theorem foldl_feed (n : Nat) (x v : BitVec w) :
    ((List.range n).map v.getLsbD).foldl (feed poly) x = steps poly n (x ^^^ v) ^^^ v >>> n := by
  induction n generalizing x v with
  | zero =>
    rw [List.range_zero, List.map_nil, List.foldl_nil, steps, BitVec.ushiftRight_zero,
      BitVec.xor_assoc, BitVec.xor_self, BitVec.xor_zero]
  | succ n ih =>
    have hrest : (List.range n).map (v.getLsbD ∘ Nat.succ) =
        (List.range n).map (v >>> 1).getLsbD := by
      apply List.map_congr_left
      intro i _
      rw [BitVec.getLsbD_ushiftRight, Function.comp_apply, Nat.add_comm]
    rw [List.range_succ_eq_map, List.map_cons, List.map_map, List.foldl_cons, hrest, ih, feed_eq,
      BitVec.xor_assoc, BitVec.xor_self, BitVec.xor_zero, steps, ← BitVec.shiftRight_add,
      Nat.add_comm]

theorem foldl_feed_bits (hw : 8 ≤ w) (x : BitVec w) (b : UInt8) :
    (bits b).foldl (feed poly) x = byteStep poly x b := by
  have hbits : bits b = (List.range 8).map (b.toBitVec.setWidth w).getLsbD := by
    apply List.map_congr_left
    intro i hi
    have hi := List.mem_range.mp hi
    rw [BitVec.getLsbD_setWidth, decide_eq_true (by omega), Bool.true_and]
  have hgone : b.toBitVec.setWidth w >>> 8 = 0#w := by
    apply BitVec.eq_of_getLsbD_eq
    intro i _
    rw [BitVec.getLsbD_ushiftRight, BitVec.getLsbD_setWidth, BitVec.getLsbD_of_ge _ _ (by omega)]
    simp
  rw [hbits, foldl_feed, hgone, BitVec.xor_zero, byteStep]

theorem crc_eq_foldl_byteStep (hw : 8 ≤ w) (start final : BitVec w) (message : List UInt8) :
    crc poly start final message = message.foldl (byteStep poly) start ^^^ final := by
  rw [crc]
  congr 1
  induction message generalizing start with
  | nil => rfl
  | cons b message ih =>
    rw [List.flatMap_cons, List.foldl_append, foldl_feed_bits poly hw, ih, List.foldl_cons]

/-! ## A table of 256 words -/

theorem byteStep_eq_lookup (x : BitVec w) (b : UInt8) :
    byteStep poly x b =
      steps poly 8 ((x ^^^ b.toBitVec.setWidth w) &&& BitVec.ofNat w 255) ^^^ x >>> 8 := by
  have hmask : ∀ i, (BitVec.ofNat w 255).getLsbD i = (decide (i < w) && decide (i < 8)) := by
    intro i
    rw [BitVec.getLsbD_ofNat, show 255 = 2 ^ 8 - 1 from rfl, Nat.testBit_two_pow_sub_one]
  generalize hy : x ^^^ b.toBitVec.setWidth w = y
  have hsplit : y = (y &&& BitVec.ofNat w 255) ^^^ (y &&& ~~~BitVec.ofNat w 255) := by
    apply BitVec.eq_of_getLsbD_eq
    intro i hi
    simp only [BitVec.getLsbD_xor, BitVec.getLsbD_and, BitVec.getLsbD_not, hmask, hi,
      decide_true, Bool.true_and]
    cases y.getLsbD i <;> cases decide (i < 8) <;> rfl
  have hlow : ∀ i < 8, (y &&& ~~~BitVec.ofNat w 255).getLsbD i = false := by
    intro i hi
    simp only [BitVec.getLsbD_and, BitVec.getLsbD_not, hmask, hi, decide_true, Bool.and_true]
    cases y.getLsbD i <;> cases decide (i < w) <;> rfl
  have hhigh : (y &&& ~~~BitVec.ofNat w 255) >>> 8 = x >>> 8 := by
    apply BitVec.eq_of_getLsbD_eq
    intro i hi
    have hbyte : b.toBitVec.getLsbD (8 + i) = false := BitVec.getLsbD_of_ge _ _ (by omega)
    have hge : ¬8 + i < 8 := by omega
    by_cases hin : 8 + i < w
    · simp only [BitVec.getLsbD_ushiftRight, BitVec.getLsbD_and, BitVec.getLsbD_not, hmask, hin,
        hge, ← hy, BitVec.getLsbD_xor, BitVec.getLsbD_setWidth, hbyte, decide_true, decide_false,
        Bool.and_false, Bool.not_false, Bool.and_true, Bool.xor_false]
    · have hout : w ≤ 8 + i := by omega
      simp only [BitVec.getLsbD_ushiftRight, BitVec.getLsbD_and, BitVec.getLsbD_not, hin,
        BitVec.getLsbD_of_ge x (8 + i) hout, decide_false, Bool.false_and, Bool.and_false]
  rw [byteStep, hy]
  calc steps poly 8 y
      = steps poly 8 (y &&& BitVec.ofNat w 255) ^^^
          steps poly 8 (y &&& ~~~BitVec.ofNat w 255) := by rw [← steps_xor, ← hsplit]
    _ = steps poly 8 (y &&& BitVec.ofNat w 255) ^^^ x >>> 8 := by
        rw [steps_of_low_clear poly hlow, hhigh]

end Crc

end MediaServer
