import Mathlib.Data.List.Basic

/-!
# Consumers fed with pieces of a stream

A consumer keeps its unread input inside its own state.  One `turn` either
takes a step, which may emit outputs and uses up part of the input, or waits
because the input does not suffice.  `consume` takes turns until the consumer
waits, and `feed` pushes a list of pieces, consuming after each of them.

The two laws that make the pieces irrelevant are these.

* A step that was possible stays the same when more input stands behind it
  (`turn_push`, a field of `Consumer`).
* A state in which the consumer waits is `Resumable`: the turn taken there
  after more input has arrived is the turn that would have been taken had the
  input been there from the start.

A consumer is put together from readers, and `Lawful` is the pair of the same
two laws for one of them.  `consume_push` carries the two laws through a whole `consume`, and
`feed_eq_consume` says that feeding pieces is consuming their concatenation
when every piece but the last ends in a resumable state.
-/

namespace Incremental

variable {σ β ω : Type}

/-! ## Readers

The parts of a consumer are readers: functions of a state and an input that
return a code, the state they leave and the input they leave. -/

/-- A reader that depends on how its input arrived through the input only.
`ok` is the code of success; any other code is a wait. -/
structure Lawful {ρ : Type} (ok : ρ) (read : σ → List β → ρ × σ × List β) : Prop where
  append : ∀ {s b s' b'} (e : List β),
    read s b = (ok, s', b') → read s (b ++ e) = (ok, s', b' ++ e)
  resume : ∀ {s b r s' b'} (e : List β),
    read s b = (r, s', b') → r ≠ ok → read s' (b' ++ e) = read s (b ++ e)
  length_le : ∀ {s b r s' b'}, read s b = (r, s', b') → b'.length ≤ b.length

/-! ## Consumers -/

/-- What one turn does: wait for more input, or take a step and emit. -/
inductive Turn (σ ω : Type) where
  | wait (s : σ)
  | step (s : σ) (out : List ω)

/-- A consumer of `β` that emits `ω`.  `size` bounds the steps that the input
held by a state allows. -/
structure Consumer (σ β ω : Type) where
  push : σ → List β → σ
  turn : σ → Turn σ ω
  size : σ → Nat
  push_nil : ∀ s, push s [] = s
  push_push : ∀ s a b, push (push s a) b = push s (a ++ b)
  size_lt : ∀ {s s' out}, turn s = .step s' out → size s' < size s
  turn_push : ∀ {s s' out} (e : List β),
    turn s = .step s' out → turn (push s e) = .step (push s' e) out

namespace Consumer

variable (C : Consumer σ β ω)

/-- At most `n` turns. -/
def drain : Nat → σ → σ × List ω
  | 0, s => (s, [])
  | n + 1, s =>
    match C.turn s with
    | .wait s' => (s', [])
    | .step s' out => ((drain n s').1, out ++ (drain n s').2)

/-- Turns until the consumer waits. -/
def consume (s : σ) : σ × List ω := C.drain (C.size s + 1) s

/-- Push the pieces one after another, consuming after each. -/
def feed : σ → List (List β) → σ × List ω
  | s, [] => (s, [])
  | s, piece :: rest =>
    let r := C.consume (C.push s piece)
    let t := feed r.1 rest
    (t.1, r.2 ++ t.2)

/-- A waiting state from which the consumer goes on as if the later input had
been there at once. -/
def Resumable (s' : σ) : Prop :=
  ∀ s e, C.turn s = .wait s' → C.turn (C.push s' e) = C.turn (C.push s e)

/-- One turn more than `size` allows changes nothing. -/
theorem drain_succ {n : Nat} {s : σ} (h : C.size s < n) :
    C.drain (n + 1) s = C.drain n s := by
  induction n generalizing s with
  | zero => omega
  | succ n ih =>
    rw [drain, drain]
    cases ht : C.turn s with
    | wait s' => rfl
    | step s' out =>
      have hlt := C.size_lt ht
      simp only [ih (show C.size s' < n by omega)]

/-- Any number of turns above `size` is a full `consume`. -/
theorem drain_eq_consume {n : Nat} {s : σ} (h : C.size s < n) :
    C.drain n s = C.consume s := by
  obtain ⟨k, rfl⟩ : ∃ k, n = C.size s + 1 + k := ⟨n - (C.size s + 1), by omega⟩
  induction k with
  | zero => rfl
  | succ k ih =>
    rw [← Nat.add_assoc, C.drain_succ (by omega)]
    exact ih (by omega)

theorem consume_of_wait {s s' : σ} (h : C.turn s = .wait s') :
    C.consume s = (s', []) := by
  rw [consume, drain, h]

theorem consume_of_step {s s' : σ} {out : List ω} (h : C.turn s = .step s' out) :
    C.consume s = ((C.consume s').1, out ++ (C.consume s').2) := by
  have hlt := C.size_lt h
  rw [consume, drain, h]
  simp only [C.drain_eq_consume hlt]

/-- What is consumed depends on the state through its turn only. -/
theorem consume_congr {s t : σ} (h : C.turn s = C.turn t) :
    C.consume s = C.consume t := by
  cases ht : C.turn t with
  | wait s' => rw [C.consume_of_wait ht, C.consume_of_wait (h.trans ht)]
  | step s' out => rw [C.consume_of_step ht, C.consume_of_step (h.trans ht)]

/-- Induction along the turns of a `consume`. -/
theorem consume_induction {P : σ → Prop}
    (wait : ∀ s s', C.turn s = .wait s' → P s)
    (step : ∀ s s' out, C.turn s = .step s' out → P s' → P s) (s : σ) : P s := by
  induction hn : C.size s using Nat.strongRecOn generalizing s with
  | ind n ih =>
    cases ht : C.turn s with
    | wait s' => exact wait s s' ht
    | step s' out =>
      have hlt := C.size_lt ht
      exact step s s' out ht (ih _ (by omega) s' rfl)

/-- Consuming an input that arrives in two parts is consuming the first part
and then, from the state reached, the second. -/
theorem consume_push (s : σ) (e : List β) (h : C.Resumable (C.consume s).1) :
    C.consume (C.push s e) =
      ((C.consume (C.push (C.consume s).1 e)).1,
        (C.consume s).2 ++ (C.consume (C.push (C.consume s).1 e)).2) := by
  induction s using C.consume_induction with
  | wait s s' ht =>
    rw [C.consume_of_wait ht] at h ⊢
    simpa using C.consume_congr (h s e ht).symm
  | step s s' out ht ih =>
    rw [C.consume_of_step ht] at h ⊢
    rw [C.consume_of_step (C.turn_push e ht), ih h]
    simp

/-- Feeding pieces is consuming their concatenation when every piece but the
last leaves a resumable state. -/
theorem feed_eq_consume (s : σ) (pieces : List (List β)) (hne : pieces ≠ [])
    (h : ∀ front back, pieces = front ++ back → front ≠ [] → back ≠ [] →
      C.Resumable (C.feed s front).1) :
    C.feed s pieces = C.consume (C.push s pieces.flatten) := by
  induction pieces generalizing s with
  | nil => exact absurd rfl hne
  | cons piece rest ih =>
    rw [feed, List.flatten_cons, ← C.push_push]
    cases rest with
    | nil => simp [feed, C.push_nil]
    | cons next rest =>
      have hres : C.Resumable (C.consume (C.push s piece)).1 := by
        simpa [feed] using h [piece] (next :: rest) rfl (by simp) (by simp)
      rw [C.consume_push _ _ hres, ih _ (by simp)]
      intro front back hsplit hfront hback
      exact h (piece :: front) back (by rw [hsplit]; rfl) (by simp) hback

end Consumer

end Incremental
