import Mathlib.Data.Set.Lattice
import Mathlib.Order.CompletePartialOrder
import Mathlib.Tactic.Common

/-!
# Copies between places of memory

A copy takes `len` cells from one offset to another, in another place or in the same one.
Its source and its destination are sets of cells, and it is `Separate` when they do not
meet (`separate_iff`).

A memory says what is in each cell.  A copy may be carried out cell by cell, in any
order and some cells more than once.  `foldl_move` is the result about separate copies:
every way leads to `result`, which reads the source as it was before the copy.
-/

namespace Copies

/-- A copy of `len` cells. -/
structure Copy (ρ : Type) where
  dest : ρ
  destOffset : Int
  source : ρ
  sourceOffset : Int
  len : Nat
  deriving DecidableEq, Repr

namespace Copy

variable {ρ α : Type} {c : Copy ρ}

/-- The cells that are written. -/
def target (c : Copy ρ) : Set (ρ × Int) :=
  {cell | cell.1 = c.dest ∧ c.destOffset ≤ cell.2 ∧ cell.2 < c.destOffset + c.len}

/-- The cells that are read. -/
def origin (c : Copy ρ) : Set (ρ × Int) :=
  {cell | cell.1 = c.source ∧ c.sourceOffset ≤ cell.2 ∧ cell.2 < c.sourceOffset + c.len}

/-- No cell is read and written.  A copy of no cells is separate. -/
def Separate (c : Copy ρ) : Prop := Disjoint c.target c.origin

theorem separate_iff :
    c.Separate ↔ (c.dest = c.source → c.len = 0 ∨ c.destOffset + c.len ≤ c.sourceOffset ∨
      c.sourceOffset + c.len ≤ c.destOffset) := by
  rw [Separate, Set.disjoint_left]
  constructor
  · intro h hplace
    by_contra hmeet
    -- the first cell of the range that begins later
    apply @h (c.dest, max c.destOffset c.sourceOffset)
    · refine ⟨rfl, ?_, ?_⟩
      · show c.destOffset ≤ max c.destOffset c.sourceOffset
        omega
      · show max c.destOffset c.sourceOffset < c.destOffset + c.len
        omega
    · refine ⟨hplace, ?_, ?_⟩
      · show c.sourceOffset ≤ max c.destOffset c.sourceOffset
        omega
      · show max c.destOffset c.sourceOffset < c.sourceOffset + c.len
        omega
  · rintro h ⟨place, offset⟩ ⟨hdest, hlow, hhigh⟩ ⟨hsource, hlow', hhigh'⟩
    have hapart := h (hdest.symm.trans hsource)
    simp only at hlow hhigh hlow' hhigh'
    omega

theorem separate_of_ne (h : c.dest ≠ c.source) : c.Separate :=
  separate_iff.mpr fun hplace => absurd hplace h

/-! ## Cell by cell -/

section Moves

variable [DecidableEq ρ] {memory : ρ × Int → α}

/-- One cell of the copy. -/
def move (c : Copy ρ) (memory : ρ × Int → α) (i : Nat) : ρ × Int → α :=
  Function.update memory (c.dest, c.destOffset + i) (memory (c.source, c.sourceOffset + i))

/-- The memory behind the copy, when the source is read first. -/
def result (c : Copy ρ) (memory : ρ × Int → α) : ρ × Int → α := fun cell =>
  if cell.1 = c.dest ∧ c.destOffset ≤ cell.2 ∧ cell.2 < c.destOffset + c.len then
    memory (c.source, c.sourceOffset + (cell.2 - c.destOffset))
  else memory cell

/-- A move leaves the source of a separate copy as it was. -/
theorem move_origin (h : c.Separate) {i j : Nat} (hi : i < c.len) (hj : j < c.len) :
    c.move memory i (c.source, c.sourceOffset + j) = memory (c.source, c.sourceOffset + j) := by
  rw [move, Function.update_of_ne]
  intro heq
  obtain ⟨hplace, hoffset⟩ := Prod.mk.inj heq
  have hapart := separate_iff.mp h hplace.symm
  omega

/-- Some cells of a separate copy, in any order. -/
theorem foldl_move_apply (memory : ρ × Int → α) (h : c.Separate) {order : List Nat}
    (horder : ∀ i ∈ order, i < c.len) (cell : ρ × Int) :
    (∃ i ∈ order, cell = (c.dest, c.destOffset + i) ∧
        order.foldl c.move memory cell = memory (c.source, c.sourceOffset + i)) ∨
      ((∀ i ∈ order, cell ≠ (c.dest, c.destOffset + i)) ∧
        order.foldl c.move memory cell = memory cell) := by
  induction order generalizing memory with
  | nil => exact .inr ⟨by simp, rfl⟩
  | cons i order ih =>
    obtain ⟨hi, horder⟩ := List.forall_mem_cons.mp horder
    rw [List.foldl_cons]
    rcases ih (c.move memory i) horder with ⟨j, hj, hcell, heq⟩ | ⟨hother, heq⟩
    · refine .inl ⟨j, List.mem_cons_of_mem i hj, hcell, ?_⟩
      rw [heq, move_origin h hi (horder j hj)]
    · by_cases hcell : cell = (c.dest, c.destOffset + i)
      · refine .inl ⟨i, List.mem_cons_self, hcell, ?_⟩
        rw [heq, hcell, move, Function.update_self]
      · refine .inr ⟨List.forall_mem_cons.mpr ⟨hcell, hother⟩, ?_⟩
        rw [heq, move, Function.update_of_ne hcell]

/-- **Any order.**  Moves of all the cells of a separate copy come to its result. -/
theorem foldl_move (h : c.Separate) {order : List Nat} (horder : ∀ i, i ∈ order ↔ i < c.len) :
    order.foldl c.move memory = c.result memory := by
  funext cell
  rw [result]
  rcases foldl_move_apply memory h (fun i => (horder i).mp) cell with
    ⟨i, hi, hcell, heq⟩ | ⟨hother, heq⟩
  · have hlt := (horder i).mp hi
    have hoffset : cell.2 = c.destOffset + i := by rw [hcell]
    have hback : c.sourceOffset + (cell.2 - c.destOffset) = c.sourceOffset + i := by omega
    rw [if_pos ⟨by rw [hcell], by omega, by omega⟩, heq, hback]
  · rw [if_neg, heq]
    rintro ⟨hplace, hlow, hhigh⟩
    apply hother (cell.2 - c.destOffset).toNat ((horder _).mpr (by omega))
    apply Prod.ext hplace
    show cell.2 = c.destOffset + (cell.2 - c.destOffset).toNat
    omega

end Moves

end Copy

end Copies
