import MediaServer.Lib.Run

/-!
# Computations that avoid one error

`Guarded e P x` says that `x` does not end in the error `e`, and that what it gives
otherwise satisfies `P`.  Other errors are allowed.  It is `Avoids` with a postcondition, so
that one proof goes through a program for both.

`guarded_run` is the rule for runs: an invariant that every step keeps and under which no
step ends in `e`.
-/

namespace Run

variable {ε α β : Type} {e : ε} {P P' : α → Prop} {Q : β → Prop} {x : Except ε α}

/-- The computation does not end in `e`, and its value has `P`. -/
def Guarded (e : ε) (P : α → Prop) : Except ε α → Prop
  | .ok a => P a
  | .error e' => e' ≠ e

theorem guarded_ok {a : α} (h : P a) : Guarded e P (.ok a) := h

theorem guarded_pure {a : α} (h : P a) : Guarded e P (pure a) := h

theorem guarded_error {e' : ε} (h : e' ≠ e) : Guarded e P (.error e') := h

theorem guarded_of_ok {a : α} (hx : x = .ok a) (h : P a) : Guarded e P x := by
  rw [hx]
  exact guarded_ok h

theorem Guarded.of_eq_ok {a : α} (h : Guarded e P x) (hx : x = .ok a) : P a := by
  rw [hx] at h
  exact h

theorem Guarded.avoids (h : Guarded e P x) : Avoids e x := by
  intro hx
  rw [hx] at h
  exact h rfl

theorem guarded_iff : Guarded e P x ↔ Avoids e x ∧ ∀ a, x = .ok a → P a := by
  refine ⟨fun h => ⟨h.avoids, fun _ hx => h.of_eq_ok hx⟩, ?_⟩
  rintro ⟨havoids, hok⟩
  rcases x with e' | a
  · exact guarded_error fun he => havoids (by rw [he])
  · exact hok a rfl

theorem guarded_of_avoids (h : Avoids e x) : Guarded e (fun _ => True) x :=
  guarded_iff.mpr ⟨h, fun _ _ => trivial⟩

theorem Guarded.mono (h : Guarded e P x) (hP : ∀ a, x = .ok a → P a → P' a) : Guarded e P' x := by
  rcases x with e' | a
  · exact h
  · exact hP a rfl h

theorem Guarded.bind {f : α → Except ε β} (h : Guarded e P x)
    (hf : ∀ a, x = .ok a → P a → Guarded e Q (f a)) : Guarded e Q (x >>= f) := by
  rcases x with e' | a
  · exact h
  · exact hf a rfl h

theorem guarded_ite {c : Prop} [Decidable c] {x y : Except ε α} (hx : c → Guarded e P x)
    (hy : ¬ c → Guarded e P y) : Guarded e P (if c then x else y) := by
  split
  · exact hx ‹_›
  · exact hy ‹_›

/-- A loop over a list that goes to its end, with what is left of the list in the
invariant. -/
theorem exists_foldlM {f : β → α → Except ε β} {inv : List α → β → Prop}
    (hf : ∀ a rest b, inv (a :: rest) b → ∃ b', f b a = .ok b' ∧ inv rest b') (as : List α) (b : β)
    (h : inv as b) : ∃ b', as.foldlM f b = .ok b' ∧ inv [] b' := by
  induction as generalizing b with
  | nil => exact ⟨b, rfl, h⟩
  | cons a rest ih =>
    obtain ⟨b₁, hfirst, h₁⟩ := hf a rest b h
    rw [List.foldlM_cons, hfirst]
    exact ih b₁ h₁

/-- A loop whose turns keep what a preorder says. -/
theorem rel_of_foldlM {f : β → α → Except ε β} {R : β → β → Prop} (hrefl : ∀ b, R b b)
    (htrans : ∀ b b' b'', R b b' → R b' b'' → R b b'')
    (hf : ∀ b a b', f b a = .ok b' → R b b') {as : List α} {b b' : β}
    (h : as.foldlM f b = .ok b') : R b b' := by
  induction as generalizing b with
  | nil =>
    cases h
    exact hrefl _
  | cons a rest ih =>
    rw [List.foldlM_cons] at h
    obtain ⟨b₁, hfirst, hrest⟩ := exists_of_bind_ok h
    exact htrans b b₁ b' (hf b a b₁ hfirst) (ih hrest)

section Machine

variable {σ : Type} {step : α → σ → Except ε σ} {cond : α → σ → Prop} {inv : σ → Prop}

theorem guarded_run (hstep : ∀ a s, cond a s → inv s → Guarded e inv (step a s)) {as : List α}
    {s : σ} (hs : inv s) (hcond : Along step cond as s) : Guarded e inv (run step as s) := by
  induction as generalizing s with
  | nil => exact hs
  | cons a rest ih =>
    have hfirst := hstep a s hcond.1 hs
    rw [run]
    rcases hs' : step a s with e' | s'
    · rw [hs'] at hfirst
      exact hfirst
    · rw [hs'] at hfirst
      exact ih hfirst (hcond.2 s' hs')

end Machine

end Run
