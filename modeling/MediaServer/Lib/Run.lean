import Mathlib.Data.List.Basic

/-!
# Runs of a machine that can fail

A machine is a step function from an action and a state to the next state, or
to an error that ends the run.  `run` takes a list of actions.  `Along` says
that every step of a run meets a condition on its action and on the state
before it.

`run_invariant` is the rule by which a property of all reachable states is
proved: the start has it, and every step that meets the condition keeps it.
-/

namespace Run

/-- A computation goes on with the value of its first part. -/
theorem ok_bind {ε α β : Type} (a : α) (f : α → Except ε β) : (Except.ok a >>= f) = f a := rfl

/-- The parts of a computation that succeeds. -/
theorem exists_of_bind_ok {ε α β : Type} {x : Except ε α} {f : α → Except ε β} {b : β}
    (h : (x >>= f) = .ok b) : ∃ a, x = .ok a ∧ f a = .ok b := by
  rcases x with e | a
  · cases h
  · exact ⟨a, rfl, h⟩

/-- A computation that fails does so in its first part or behind it. -/
theorem error_of_bind_error {ε α β : Type} {x : Except ε α} {f : α → Except ε β} {e : ε}
    (h : (x >>= f) = .error e) : x = .error e ∨ ∃ a, x = .ok a ∧ f a = .error e := by
  rcases x with e' | a
  · cases h
    exact Or.inl rfl
  · exact Or.inr ⟨a, rfl, h⟩

/-- The computation does not end in the error `e`. -/
def Avoids {ε α : Type} (e : ε) (x : Except ε α) : Prop := x ≠ .error e

theorem avoids_ok {ε α : Type} (e : ε) (a : α) : Avoids e (.ok a) := by
  simp [Avoids]

theorem avoids_of_ne {ε α : Type} {e e' : ε} (h : e' ≠ e) :
    Avoids e (.error e' : Except ε α) := by
  simpa [Avoids] using h

theorem Avoids.bind {ε α β : Type} {e : ε} {x : Except ε α} {f : α → Except ε β}
    (hx : Avoids e x) (hf : ∀ a, x = .ok a → Avoids e (f a)) : Avoids e (x >>= f) := by
  intro h
  rcases error_of_bind_error h with h | ⟨a, ha, h⟩
  · exact hx h
  · exact hf a ha h

theorem avoids_ite {ε α : Type} {e : ε} {c : Prop} [Decidable c] {x y : Except ε α}
    (hx : Avoids e x) (hy : Avoids e y) : Avoids e (if c then x else y) := by
  split
  · exact hx
  · exact hy

/-- The value whose image a computation gives. -/
theorem exists_of_map_ok {ε α β : Type} {x : Except ε α} {f : α → β} {b : β}
    (h : x.map f = .ok b) : ∃ a, x = .ok a ∧ f a = b := by
  rcases x with e | a
  · cases h
  · exact ⟨a, rfl, Except.ok.inj h⟩

/-- A computation succeeds with a part of its value. -/
theorem exists_map_ok_iff {ε α β : Type} {x : Except ε α} {f : α → β} {P : β → Prop} :
    (∃ b, x.map f = .ok b ∧ P b) ↔ ∃ a, x = .ok a ∧ P (f a) := by
  rcases x with e | a
  · simp [Except.map]
  · simp [Except.map]

/-- What a computation gives, when it has been evaluated. -/
theorem exists_of_map_toOption {ε α β : Type} {x : Except ε α} {f : α → β} {b : β}
    (h : x.toOption.map f = some b) : ∃ a, x = .ok a ∧ f a = b := by
  rcases x with e | a
  · cases h
  · exact ⟨a, rfl, Option.some.inj h⟩

theorem eq_ok_of_toOption {ε α : Type} {x : Except ε α} {a : α} (h : x.toOption = some a) :
    x = .ok a := by
  rcases x with e | a'
  · cases h
  · cases h
    rfl

/-- What the value of a computation is known to be, when it has been evaluated. -/
theorem eq_of_map_toOption {ε α β : Type} {x : Except ε α} {a : α} {f : α → β} {b : β}
    (hx : x = .ok a) (h : x.toOption.map f = some b) : f a = b := by
  obtain ⟨a', hx', hb⟩ := exists_of_map_toOption h
  rw [hx, Except.ok.injEq] at hx'
  rw [hx', hb]

/-- The error of a computation. -/
def fault {ε α : Type} : Except ε α → Option ε
  | .error e => some e
  | .ok _ => none

theorem eq_error_of_fault {ε α : Type} {x : Except ε α} {e : ε} (h : fault x = some e) :
    x = .error e := by
  rcases x with e' | a
  · cases h
    rfl
  · cases h

variable {σ ε α : Type} (step : α → σ → Except ε σ)

/-- The state after the actions, one after another. -/
def run : List α → σ → Except ε σ
  | [], s => .ok s
  | a :: rest, s =>
    match step a s with
    | .ok s' => run rest s'
    | .error e => .error e

/-- Every step of the run meets `cond`. -/
def Along (cond : α → σ → Prop) : List α → σ → Prop
  | [], _ => True
  | a :: rest, s => cond a s ∧ ∀ s', step a s = .ok s' → Along cond rest s'

variable {step}

theorem run_nil (s : σ) : run step [] s = .ok s := rfl

theorem run_cons {a : α} {rest : List α} {s s' : σ} (h : step a s = .ok s') :
    run step (a :: rest) s = run step rest s' := by
  rw [run, h]

/-- The first step of a run that goes on. -/
theorem exists_of_run_cons {a : α} {rest : List α} {s t : σ}
    (h : run step (a :: rest) s = .ok t) :
    ∃ s', step a s = .ok s' ∧ run step rest s' = .ok t := by
  rw [run] at h
  rcases hs : step a s with e | s'
  · rw [hs] at h
    cases h
  · rw [hs] at h
    exact ⟨s', rfl, h⟩

theorem run_append {as bs : List α} {s s' : σ} (h : run step as s = .ok s') :
    run step (as ++ bs) s = run step bs s' := by
  induction as generalizing s with
  | nil =>
    cases h
    rfl
  | cons a as ih =>
    obtain ⟨t, hstep, hrun⟩ := exists_of_run_cons h
    rw [List.cons_append, run_cons hstep, ih hrun]

/-- A run can be cut anywhere. -/
theorem exists_of_run_append {as bs : List α} {s t : σ}
    (h : run step (as ++ bs) s = .ok t) :
    ∃ s', run step as s = .ok s' ∧ run step bs s' = .ok t := by
  induction as generalizing s with
  | nil => exact ⟨s, rfl, h⟩
  | cons a as ih =>
    obtain ⟨s₁, hstep, hrun⟩ := exists_of_run_cons h
    obtain ⟨s', hfirst, hrest⟩ := ih hrun
    exact ⟨s', by rw [run_cons hstep, hfirst], hrest⟩

/-- A property that the start has and that every step meeting `cond` keeps
holds in every state of a run whose steps all meet `cond`. -/
theorem run_invariant {cond : α → σ → Prop} {inv : σ → Prop}
    (hstep : ∀ a s s', inv s → cond a s → step a s = .ok s' → inv s')
    {as : List α} {s t : σ} (hs : inv s) (halong : Along step cond as s)
    (hrun : run step as s = .ok t) : inv t := by
  induction as generalizing s with
  | nil =>
    cases hrun
    exact hs
  | cons a as ih =>
    obtain ⟨s', hfirst, hrest⟩ := exists_of_run_cons hrun
    exact ih (hstep a s s' hs halong.1 hfirst) (halong.2 s' hfirst) hrest

/-- A run does not end in the error `e` when no step of it does. -/
theorem run_avoids {cond : α → σ → Prop} {inv : σ → Prop} {e : ε}
    (hstep : ∀ a s s', inv s → cond a s → step a s = .ok s' → inv s')
    (havoids : ∀ a s, inv s → cond a s → Avoids e (step a s))
    {as : List α} {s : σ} (hs : inv s) (halong : Along step cond as s) :
    Avoids e (run step as s) := by
  induction as generalizing s with
  | nil => exact avoids_ok e s
  | cons a as ih =>
    have hfirst := havoids a s hs halong.1
    unfold run
    rcases hs' : step a s with e' | s'
    · rw [hs'] at hfirst
      intro h
      cases h
      exact hfirst rfl
    · exact ih (hstep a s s' hs halong.1 hs') (halong.2 s' hs')

/-- A run does not fail when no step of it does. -/
theorem exists_run_ok {cond : α → σ → Prop} {inv : σ → Prop}
    (hstep : ∀ a s s', inv s → cond a s → step a s = .ok s' → inv s')
    (htotal : ∀ a s, inv s → cond a s → ∃ s', step a s = .ok s')
    {as : List α} {s : σ} (hs : inv s) (halong : Along step cond as s) :
    ∃ t, run step as s = .ok t := by
  induction as generalizing s with
  | nil => exact ⟨s, rfl⟩
  | cons a as ih =>
    obtain ⟨s', hs'⟩ := htotal a s hs halong.1
    obtain ⟨t, ht⟩ := ih (hstep a s s' hs halong.1 hs') (halong.2 s' hs')
    exact ⟨t, by rw [run_cons hs', ht]⟩

/-- Actions that leave less to do, until there is nothing to do any more. -/
theorem run_settles {β : Type} {act : β → α} {inv idle : σ → Prop} {size : σ → Nat}
    (hidle : ∀ b s s', idle s → step (act b) s = .ok s' → idle s')
    (hstep : ∀ b s s', inv s → step (act b) s = .ok s' →
      idle s' ∨ (inv s' ∧ size s' < size s))
    {bs : List β} {s t : σ} (hs : inv s) (hlen : size s < bs.length)
    (hrun : run step (bs.map act) s = .ok t) : idle t := by
  have hrest : ∀ {bs : List β} {s : σ}, idle s → run step (bs.map act) s = .ok t → idle t := by
    intro bs
    induction bs with
    | nil =>
      intro s hs hrun
      cases hrun
      exact hs
    | cons b bs ih =>
      intro s hs hrun
      obtain ⟨s₁, hfirst, hrun⟩ := exists_of_run_cons hrun
      exact ih (hidle b s s₁ hs hfirst) hrun
  induction bs generalizing s with
  | nil => cases hlen
  | cons b bs ih =>
    obtain ⟨s₁, hfirst, hrun⟩ := exists_of_run_cons hrun
    rcases hstep b s s₁ hs hfirst with hdone | ⟨hs₁, hless⟩
    · exact hrest hdone hrun
    · rw [List.length_cons] at hlen
      exact ih hs₁ (by omega) hrun

/-- A run that meets a condition can be continued by a step that meets it. -/
theorem Along.concat {cond : α → σ → Prop} {as : List α} {a : α} {s : σ}
    (h : Along step cond as s) (hlast : ∀ t, run step as s = .ok t → cond a t) :
    Along step cond (as ++ [a]) s := by
  induction as generalizing s with
  | nil => exact ⟨hlast s rfl, fun _ _ => trivial⟩
  | cons b as ih =>
    refine ⟨h.1, fun s' hs' => ih (h.2 s' hs') fun t ht => hlast t ?_⟩
    rw [run_cons hs']
    exact ht

/-- A run whose steps all meet `amb`: every state of it has `P` if and only if every
step of it meets `cond`, where `P` is kept exactly by the steps that meet `cond`. -/
theorem forall_prefix_iff_along_of {amb cond : α → σ → Prop} {inv P : σ → Prop}
    (hinv : ∀ a s s', inv s → amb a s → step a s = .ok s' → inv s')
    (hstep : ∀ a s s', inv s → amb a s → P s → step a s = .ok s' → (P s' ↔ cond a s))
    {as : List α} {s t : σ} (hs : inv s) (hP : P s) (hamb : Along step amb as s)
    (hrun : run step as s = .ok t) :
    (∀ pre s', pre <+: as → run step pre s = .ok s' → P s') ↔ Along step cond as s := by
  induction as generalizing s with
  | nil =>
    refine ⟨fun _ => trivial, ?_⟩
    intro _ pre s' hpre hrun'
    rw [List.prefix_nil] at hpre
    subst hpre
    cases hrun'
    exact hP
  | cons a as ih =>
    obtain ⟨s₁, hfirst, hrest⟩ := exists_of_run_cons hrun
    have hinv₁ := hinv a s s₁ hs hamb.1 hfirst
    have hamb₁ := hamb.2 s₁ hfirst
    have hiff := hstep a s s₁ hs hamb.1 hP hfirst
    constructor
    · intro h
      have hP₁ : P s₁ := h [a] s₁ ⟨as, rfl⟩ (by rw [run_cons hfirst, run_nil])
      refine ⟨hiff.mp hP₁, ?_⟩
      intro s' hs'
      rw [hfirst, Except.ok.injEq] at hs'
      subst hs'
      refine (ih hinv₁ hP₁ hamb₁ hrest).mp ?_
      intro pre s' hpre hrun'
      exact h (a :: pre) s' (List.prefix_cons_inj a |>.mpr hpre) (by rw [run_cons hfirst, hrun'])
    · rintro ⟨hcond, hafter⟩ pre s' hpre hrun'
      cases pre with
      | nil =>
        cases hrun'
        exact hP
      | cons b pre =>
        obtain ⟨hab, hpre'⟩ := List.cons_prefix_cons.mp hpre
        rw [hab, run_cons hfirst] at hrun'
        exact (ih hinv₁ (hiff.mpr hcond) hamb₁ hrest).mpr (hafter s₁ hfirst) pre s' hpre' hrun'

/-- The conditions on both parts of a run. -/
theorem Along.append {cond : α → σ → Prop} {as bs : List α} {s t : σ}
    (h : Along step cond (as ++ bs) s) (hrun : run step as s = .ok t) :
    Along step cond as s ∧ Along step cond bs t := by
  induction as generalizing s with
  | nil =>
    cases hrun
    exact ⟨trivial, h⟩
  | cons a as ih =>
    obtain ⟨s', hs', hrest⟩ := exists_of_run_cons hrun
    obtain ⟨has, hbs⟩ := ih (h.2 s' hs') hrest
    refine ⟨⟨h.1, fun s'' hs'' => ?_⟩, hbs⟩
    rw [hs', Except.ok.injEq] at hs''
    exact hs'' ▸ has

theorem Along.and {P Q : α → σ → Prop} {as : List α} {s : σ} (hP : Along step P as s)
    (hQ : Along step Q as s) : Along step (fun a s => P a s ∧ Q a s) as s := by
  induction as generalizing s with
  | nil => trivial
  | cons a as ih => exact ⟨⟨hP.1, hQ.1⟩, fun s' hs' => ih (hP.2 s' hs') (hQ.2 s' hs')⟩

instance decidableAlong {cond : α → σ → Prop} [∀ a s, Decidable (cond a s)] :
    ∀ (as : List α) (s : σ), Decidable (Along step cond as s)
  | [], _ => isTrue trivial
  | a :: as, s =>
    match h : step a s with
    | .ok s' =>
      have : Decidable (Along step cond as s') := decidableAlong as s'
      decidable_of_iff (cond a s ∧ Along step cond as s')
        ⟨fun hc => ⟨hc.1, fun t ht => by
          rw [h, Except.ok.injEq] at ht
          exact ht ▸ hc.2⟩, fun hc => ⟨hc.1, hc.2 s' h⟩⟩
    | .error e =>
      decidable_of_iff (cond a s)
        ⟨fun hc => ⟨hc, fun t ht => by
          rw [h] at ht
          cases ht⟩, fun hc => hc.1⟩

/-- A condition that says nothing holds along every run. -/
theorem along_of_forall {cond : α → σ → Prop} (h : ∀ a s, cond a s) (as : List α) (s : σ) :
    Along step cond as s := by
  induction as generalizing s with
  | nil => trivial
  | cons a as ih => exact ⟨h a s, fun s' _ => ih s'⟩

/-- A condition on the actions alone. -/
theorem along_of_forall_mem {cond : α → Prop} {as : List α} (h : ∀ a ∈ as, cond a) (s : σ) :
    Along step (fun a _ => cond a) as s := by
  induction as generalizing s with
  | nil => trivial
  | cons a as ih =>
    rw [List.forall_mem_cons] at h
    exact ⟨h.1, fun s' _ => ih h.2 s'⟩

/-- A property that the start has and that every step keeps holds in every state. -/
theorem run_preserves {inv : σ → Prop}
    (hstep : ∀ a s s', inv s → step a s = .ok s' → inv s') {as : List α} {s t : σ} (hs : inv s)
    (hrun : run step as s = .ok t) : inv t :=
  run_invariant (fun a s s' h _ => hstep a s s' h) hs
    (along_of_forall (fun _ _ => trivial : ∀ a s, (fun _ _ => True) a s) as s) hrun

/-- Every state of a run has `P` if and only if every step of it meets `cond`,
where `P` is kept exactly by the steps that meet `cond`. -/
theorem forall_prefix_iff_along {cond : α → σ → Prop} {inv P : σ → Prop}
    (hinv : ∀ a s s', inv s → step a s = .ok s' → inv s')
    (hstep : ∀ a s s', inv s → P s → step a s = .ok s' → (P s' ↔ cond a s))
    {as : List α} {s t : σ} (hs : inv s) (hP : P s) (hrun : run step as s = .ok t) :
    (∀ pre s', pre <+: as → run step pre s = .ok s' → P s') ↔ Along step cond as s :=
  forall_prefix_iff_along_of (fun a s s' hs _ => hinv a s s' hs)
    (fun a s s' hs _ => hstep a s s' hs) hs hP
    (along_of_forall (fun _ _ => trivial : ∀ a s, (fun _ _ => True) a s) as s) hrun

/-- A property that a step keeps exactly when it meets `cond`, and that does not come
back once it is lost, holds at the end exactly when every step meets `cond`. -/
theorem holds_iff_along {cond : α → σ → Prop} {inv P : σ → Prop}
    (hinv : ∀ a s s', inv s → step a s = .ok s' → inv s')
    (hstep : ∀ a s s', inv s → step a s = .ok s' → (P s' ↔ P s ∧ cond a s))
    {as : List α} {s t : σ} (hs : inv s) (hrun : run step as s = .ok t) :
    P t ↔ P s ∧ Along step cond as s := by
  induction as generalizing s with
  | nil =>
    cases hrun
    exact (and_iff_left trivial).symm
  | cons a as ih =>
    obtain ⟨s', hfirst, hrest⟩ := exists_of_run_cons hrun
    have hafter : (∀ t, step a s = .ok t → Along step cond as t) ↔ Along step cond as s' := by
      simp only [hfirst, Except.ok.injEq, forall_eq']
    rw [ih (hinv a s s' hs hfirst) hrest, hstep a s s' hs hfirst, Along, hafter, and_assoc]

/-- A property that follows, step by step, from a condition and from an invariant
that the condition keeps. -/
theorem Along.of_invariant {cond P : α → σ → Prop} (inv : σ → Prop)
    (hstep : ∀ a s s', inv s → cond a s → step a s = .ok s' → inv s')
    (hP : ∀ a s, inv s → cond a s → P a s) {as : List α} {s : σ} (hs : inv s)
    (h : Along step cond as s) : Along step P as s := by
  induction as generalizing s with
  | nil => trivial
  | cons a as ih =>
    refine ⟨hP a s hs h.1, ?_⟩
    intro s' hs'
    exact ih (hstep a s s' hs h.1 hs') (h.2 s' hs')

/-- Two conditions on the steps say the same where an invariant holds. -/
theorem along_iff_along {P Q : α → σ → Prop} {inv : σ → Prop}
    (hinv : ∀ a s s', inv s → step a s = .ok s' → inv s')
    (hiff : ∀ a s, inv s → (P a s ↔ Q a s)) {as : List α} {s : σ} (hs : inv s) :
    Along step P as s ↔ Along step Q as s := by
  constructor
  · intro h
    exact h.of_invariant inv (fun a s s' hs _ => hinv a s s' hs)
      (fun a s hs => (hiff a s hs).mp) hs
  · intro h
    exact h.of_invariant inv (fun a s s' hs _ => hinv a s s' hs)
      (fun a s hs => (hiff a s hs).mpr) hs

/-- A run comes to its end exactly when each of its steps does. -/
theorem exists_run_iff_along {as : List α} {s : σ} :
    (∃ t, run step as s = .ok t) ↔ Along step (fun a s => ∃ s', step a s = .ok s') as s := by
  induction as generalizing s with
  | nil => exact ⟨fun _ => trivial, fun _ => ⟨s, rfl⟩⟩
  | cons a as ih =>
    constructor
    · rintro ⟨t, hrun⟩
      obtain ⟨s', hs', hrest⟩ := exists_of_run_cons hrun
      refine ⟨⟨s', hs'⟩, ?_⟩
      intro s'' hs''
      rw [hs'] at hs''
      cases hs''
      exact ih.mp ⟨t, hrest⟩
    · rintro ⟨⟨s', hs'⟩, halong⟩
      obtain ⟨t, hrest⟩ := ih.mpr (halong s' hs')
      exact ⟨t, by rw [run_cons hs', hrest]⟩

/-- A run that avoids an error and keeps a property in all its states does both at each
of its steps. -/
theorem avoids_and_forall_prefix_iff {e : ε} {P : σ → Prop} {as : List α} {s : σ} (hs : P s) :
    (Avoids e (run step as s) ∧ ∀ pre t, pre <+: as → run step pre s = .ok t → P t) ↔
      Along step (fun a s => Avoids e (step a s) ∧ ∀ s', step a s = .ok s' → P s') as s := by
  induction as generalizing s with
  | nil =>
    refine ⟨fun _ => trivial, fun _ => ⟨avoids_ok e s, ?_⟩⟩
    intro pre t hpre hrun
    rw [List.prefix_nil] at hpre
    subst hpre
    cases hrun
    exact hs
  | cons a as ih =>
    rcases hfirst : step a s with e' | s₁
    · have hrun : run step (a :: as) s = .error e' := by rw [run, hfirst]
      simp only [Along, hrun, hfirst, reduceCtorEq, false_implies, implies_true, and_true]
      refine ⟨And.left, fun h => ⟨h, ?_⟩⟩
      intro pre t hpre hrun'
      cases pre with
      | nil =>
        cases hrun'
        exact hs
      | cons b pre =>
        obtain ⟨s', hs', -⟩ := exists_of_run_cons hrun'
        rw [(List.cons_prefix_cons.mp hpre).1, hfirst] at hs'
        cases hs'
    · have hP : (∀ pre t, pre <+: a :: as → run step pre s = .ok t → P t) ↔
          ∀ pre t, pre <+: as → run step pre s₁ = .ok t → P t := by
        constructor
        · intro h pre t hpre hrun
          exact h (a :: pre) t (List.prefix_cons_inj a |>.mpr hpre) (by rw [run_cons hfirst, hrun])
        · intro h pre t hpre hrun
          cases pre with
          | nil =>
            cases hrun
            exact hs
          | cons b pre =>
            obtain ⟨hab, hpre'⟩ := List.cons_prefix_cons.mp hpre
            rw [hab, run_cons hfirst] at hrun
            exact h pre t hpre' hrun
      rw [run_cons hfirst, hP]
      simp only [Along, hfirst, Except.ok.injEq, forall_eq']
      constructor
      · intro h
        have hP₁ : P s₁ := h.2 [] s₁ List.nil_prefix rfl
        exact ⟨⟨avoids_ok e s₁, hP₁⟩, (ih hP₁).mp h⟩
      · intro h
        exact (ih h.1.2).mpr h.2

/-! ## A value beside the state -/

section Ghost

variable {γ : Type} (note : α → σ → γ → γ)

/-- The machine with a value beside its state.  The steps bring the value up to
date, and no step looks at it. -/
def withGhost (step : α → σ → Except ε σ) (a : α) (s : γ × σ) : Except ε (γ × σ) :=
  (step a s.2).map fun s' => (note a s.2 s.1, s')

variable {note} in
theorem withGhost_ok {a : α} {s s' : γ × σ} :
    withGhost note step a s = .ok s' ↔ step a s.2 = .ok s'.2 ∧ s'.1 = note a s.2 s.1 := by
  rcases s' with ⟨g', t'⟩
  rw [withGhost]
  rcases step a s.2 with e | t
  · simp [Except.map]
  · simp [Except.map, and_comm, eq_comm]

/-- The value does not get in the way of a run. -/
theorem exists_run_withGhost {as : List α} {s t : σ} (h : run step as s = .ok t) (g : γ) :
    ∃ g', run (withGhost note step) as (g, s) = .ok (g', t) := by
  induction as generalizing s g with
  | nil =>
    cases h
    exact ⟨g, rfl⟩
  | cons a as ih =>
    obtain ⟨s', hstep, hrest⟩ := exists_of_run_cons h
    obtain ⟨g', hg'⟩ := ih hrest (note a s g)
    have hfirst : withGhost note step a (g, s) = .ok (note a s g, s') :=
      withGhost_ok.mpr ⟨hstep, rfl⟩
    exact ⟨g', by rw [run_cons hfirst, hg']⟩

/-- A condition that does not look at the value. -/
theorem along_withGhost {cond : α → σ → Prop} {as : List α} {s : σ} (g : γ) :
    Along (withGhost note step) (fun a t => cond a t.2) as (g, s) ↔ Along step cond as s := by
  induction as generalizing s g with
  | nil => exact Iff.rfl
  | cons a as ih =>
    constructor
    · rintro ⟨hcond, hrest⟩
      refine ⟨hcond, ?_⟩
      intro s' hs'
      exact (ih _).mp (hrest (note a s g, s') (withGhost_ok.mpr ⟨hs', rfl⟩))
    · rintro ⟨hcond, hrest⟩
      refine ⟨hcond, ?_⟩
      rintro ⟨g', s'⟩ hs'
      exact (ih _).mpr (hrest s' (withGhost_ok.mp hs').1)

end Ghost

end Run
