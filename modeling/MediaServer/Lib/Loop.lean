import Mathlib.Tactic.Common

/-!
# Loops with a variant

A `while (true)` loop whose body ends it with a result or goes on.  A number that
every pass that goes on makes smaller bounds the passes.
-/

namespace MediaServer

namespace Loop

variable {σ β : Type}

/-- At most `n` passes of a loop, and `none` when it has not ended by then.  What a
pass does may depend on the number of passes that are left. -/
def run (pass : Nat → σ → Option β × σ) : Nat → σ → Option (β × σ)
  | 0, _ => none
  | n + 1, s =>
    match pass n s with
    | (some b, s') => some (b, s')
    | (none, s') => run pass n s'

/-- The loop ends in as many passes as the variant has values up to its start. -/
theorem exists_run {pass : Nat → σ → Option β × σ} {size : σ → Nat}
    (hless : ∀ i s s', pass i s = (none, s') → size s' < size s) {n : Nat} {s : σ}
    (hn : size s < n) : ∃ r, run pass n s = some r := by
  induction n generalizing s with
  | zero => omega
  | succ n ih =>
    rw [run]
    rcases hpass : pass n s with ⟨b, s'⟩
    cases b with
    | some b => exact ⟨(b, s'), rfl⟩
    | none =>
      have hsize := hless n s s' hpass
      exact ih (by omega)

end Loop

end MediaServer
