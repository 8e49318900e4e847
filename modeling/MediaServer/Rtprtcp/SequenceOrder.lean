import Mathlib.Order.Defs.Unbundled
import MediaServer.Webrtc.NackGenerator

/-!
# The order of sequence numbers

The comparisons of `net/rtprtcp/rtprtcp_pub.hpp`.  They see 16 bits of a number
that goes on counting, and answer for the numbers themselves when these are at
most half a cycle apart.  `Near` is this distance, and `seqLowerThan_residue` is
the case analysis of the comparison.
-/

namespace MediaServer

/-- `SEQ_HIGHER_THAN`. -/
def seqHigherThan (seq1 seq2 : UInt16) : Bool :=
  if seq1 = seq2 then false
  else
    let ret := seqLowerThan seq1 seq2
    !ret

/-- The residues of the 32768 numbers from `start` on. -/
def window (start : Nat) : Set UInt16 :=
  {seq | ∃ n : Nat, start ≤ n ∧ n < start + 32768 ∧ seq = UInt16.ofNat n}

namespace NackGenerator

theorem residue_natCast (n : Nat) : residue n = UInt16.ofNat n := by
  rw [← UInt16.toNat_inj, UInt16.toNat_ofNat']
  have hn := toNat_residue n
  omega

theorem seqHigherThan_residue {n m : Int} (h : Near n m) :
    seqHigherThan (residue n) (residue m) = true ↔ m < n := by
  obtain ⟨hnm, hmn⟩ := h
  by_cases heq : residue n = residue m
  · have hmod := residue_eq_iff.mp heq
    rw [seqHigherThan, if_pos heq]
    simp only [Bool.false_eq_true, false_iff]
    omega
  · have hne : n ≠ m := by
      intro hnm
      exact heq (by rw [hnm])
    have hlower := seqLowerThan_residue ⟨hnm, hmn⟩
    rw [seqHigherThan, if_neg heq]
    show (!seqLowerThan (residue n) (residue m)) = true ↔ m < n
    rw [Bool.not_eq_true', ← Bool.not_eq_true, hlower]
    omega

/-- Two numbers of a window, as the comparison sees them. -/
theorem seqLowerThan_window {start n m : Nat} (hn : start ≤ n ∧ n < start + 32768)
    (hm : start ≤ m ∧ m < start + 32768) :
    seqLowerThan (UInt16.ofNat n) (UInt16.ofNat m) = true ↔ n < m := by
  have hnear : Near (n : Int) (m : Int) := by
    constructor <;> omega
  rw [← residue_natCast, ← residue_natCast, seqLowerThan_residue hnear]
  omega

theorem isStrictTotalOrder_window (start : Nat) :
    IsStrictTotalOrder (window start) fun a b => seqLowerThan a.1 b.1 = true where
  trichotomous := by
    rintro ⟨_, n, hn, hn', rfl⟩ ⟨_, m, hm, hm', rfl⟩ hnm hmn
    rw [seqLowerThan_window ⟨hn, hn'⟩ ⟨hm, hm'⟩] at hnm
    rw [seqLowerThan_window ⟨hm, hm'⟩ ⟨hn, hn'⟩] at hmn
    have heq : n = m := by omega
    subst heq
    rfl
  irrefl := by
    rintro ⟨_, n, hn, hn', rfl⟩ hlower
    rw [seqLowerThan_window ⟨hn, hn'⟩ ⟨hn, hn'⟩] at hlower
    omega
  trans := by
    rintro ⟨_, n, hn, hn', rfl⟩ ⟨_, m, hm, hm', rfl⟩ ⟨_, k, hk, hk', rfl⟩ hnm hmk
    rw [seqLowerThan_window ⟨hn, hn'⟩ ⟨hm, hm'⟩] at hnm
    rw [seqLowerThan_window ⟨hm, hm'⟩ ⟨hk, hk'⟩] at hmk
    rw [seqLowerThan_window ⟨hn, hn'⟩ ⟨hk, hk'⟩]
    omega

/-- The comparisons of the residues are those of the numbers, up to a distance of
32767, and order every window of 32768 numbers. -/
theorem seq_compare_window :
    (∀ n m : Nat, n ≤ m + 32767 → m ≤ n + 32767 →
      (seqLowerThan (UInt16.ofNat n) (UInt16.ofNat m) = true ↔ n < m) ∧
      (seqHigherThan (UInt16.ofNat n) (UInt16.ofNat m) = true ↔ m < n)) ∧
    ∀ start, IsStrictTotalOrder (window start) fun a b => seqLowerThan a.1 b.1 = true := by
  refine ⟨fun n m hnm hmn => ?_, isStrictTotalOrder_window⟩
  have hnear : Near (n : Int) (m : Int) := by
    constructor <;> omega
  rw [← residue_natCast, ← residue_natCast, seqLowerThan_residue hnear, seqHigherThan_residue hnear]
  constructor <;> omega

/-- Across the wrap, at the largest distance. -/
theorem seq_compare_wrap :
    (seqLowerThan (UInt16.ofNat 60000) (UInt16.ofNat 92767) = true ↔ 60000 < 92767) ∧
    (seqHigherThan (UInt16.ofNat 60000) (UInt16.ofNat 92767) = true ↔ 92767 < 60000) :=
  seq_compare_window.1 60000 92767 (by decide) (by decide)

end NackGenerator

end MediaServer
