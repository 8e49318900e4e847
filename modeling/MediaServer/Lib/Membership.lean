import Mathlib.Data.List.Induction
import MediaServer.Lib.Run

/-!
# The time in which a member is there

A member of a running machine can come once and can leave once.  As long as it is there, it
belongs to one topic, and it gets whatever is added to the history of that topic.

`exists_window` says what such a member has got at the end of a run: nothing if it never
came, and else a segment of the history, which begins where the history stood when the
member came and ends where it stood when the member was there for the last time.

`Justified` is for logs.  Every entry of a log has a reason in the entries before it, and
a log keeps that when entries with a reason are added to it.
-/

namespace Run

section Membership

variable {σ ε α π χ : Type} {step : α → σ → Except ε σ} {inv : σ → Prop} {topic : σ → Option π}
  {gone : σ → Prop} {history : π → σ → List χ} {got : σ → List χ}

/-- The member comes with the last of the actions `before`, belongs to `p` during `during`,
and is not there behind these. -/
structure Window (step : α → σ → Except ε σ) (topic : σ → Option π) (history : π → σ → List χ)
    (got : σ → List χ) (as : List α) (s t : σ) (p : π) (before during after : List α)
    (first last : σ) : Prop where
  split : as = before ++ during ++ after
  comes : run step before s = .ok first
  lasts : run step during first = .ok last
  there : ∀ pre s', pre <+: as → run step pre s = .ok s' →
    topic s' = if before.length ≤ pre.length ∧ pre.length ≤ before.length + during.length
      then some p else none
  grows : history p first <+: history p last
  segment : got t = (history p last).drop (history p first).length

/-- The prefixes of a list with one more item. -/
theorem forall_prefix_concat {as : List α} {a : α} {s t u : σ} {P : List α → σ → Prop}
    (hrun : run step as s = .ok u) (hstep : step a u = .ok t)
    (hold : ∀ pre s', pre <+: as → run step pre s = .ok s' → P pre s')
    (hnew : P (as ++ [a]) t) (pre : List α) (s' : σ) (hpre : pre <+: as ++ [a])
    (hs' : run step pre s = .ok s') : P pre s' := by
  rcases List.prefix_concat_iff.mp hpre with rfl | hpre
  · rw [run_append hrun, run_cons hstep, run_nil, Except.ok.injEq] at hs'
    exact hs' ▸ hnew
  · exact hold pre s' hpre hs'

variable {as before during after : List α} {a : α} {s t u first last : σ} {p : π}

/-- The member goes on, and gets what is new. -/
theorem Window.goesOn (h : Window step topic history got as s u p before during [] first last)
    (hrun : run step as s = .ok u) (hstep : step a u = .ok t) (hp : topic t = some p)
    {new : List χ} (hhistory : history p t = history p u ++ new) (hgot : got t = got u ++ new) :
    Window step topic history got (as ++ [a]) s t p before (during ++ [a]) [] first t := by
  have hsplit : as = before ++ during := by rw [h.split, List.append_nil]
  have hlast : last = u := by
    have hboth : run step (before ++ during) s = run step during first := run_append h.comes
    rw [h.lasts, ← hsplit, hrun, Except.ok.injEq] at hboth
    exact hboth.symm
  subst hlast
  refine ⟨by simp [hsplit], h.comes, ?_, ?_, ?_, ?_⟩
  · rw [run_append h.lasts, run_cons hstep, run_nil]
  · refine forall_prefix_concat hrun hstep (fun pre s' hpre hs' => ?_) ?_
    · have hlen := hpre.length_le
      rw [hsplit, List.length_append] at hlen
      rw [h.there pre s' hpre hs']
      simp only [List.length_append, List.length_cons, List.length_nil]
      split_ifs <;> first | rfl | omega
    · rw [hp, if_pos]
      simp only [hsplit, List.length_append, List.length_cons, List.length_nil]
      omega
  · exact h.grows.trans (hhistory ▸ List.prefix_append _ _)
  · rw [hgot, h.segment, hhistory, List.drop_append_of_le_length h.grows.length_le]

/-- The member is not there behind the step, and gets nothing. -/
theorem Window.ends (h : Window step topic history got as s u p before during after first last)
    (hrun : run step as s = .ok u) (hstep : step a u = .ok t) (hnone : topic t = none)
    (hgot : got t = got u) :
    Window step topic history got (as ++ [a]) s t p before during (after ++ [a]) first last := by
  refine ⟨by simp [h.split], h.comes, h.lasts, ?_, h.grows, by rw [hgot, h.segment]⟩
  refine forall_prefix_concat hrun hstep h.there ?_
  rw [hnone, if_neg]
  simp only [h.split, List.length_append, List.length_cons, List.length_nil]
  omega

end Membership

/-! ## Logs -/

section Justified

variable {χ : Type} {reason : List χ → χ → Prop} {log new : List χ} {x : χ}

/-- Every entry of the log has its reason in the entries before it. -/
def Justified (reason : List χ → χ → Prop) (log : List χ) : Prop :=
  ∀ before x after, log = before ++ x :: after → reason before x

theorem justified_nil : Justified reason [] := by
  intro before x after h
  simp at h

/-- An entry with a reason is added. -/
theorem Justified.concat (h : Justified reason log) (hx : reason log x) :
    Justified reason (log ++ [x]) := by
  intro before y after heq
  rcases List.eq_nil_or_concat after with rfl | ⟨after, z, rfl⟩
  · obtain ⟨rfl, hlast⟩ := List.append_inj' heq rfl
    cases hlast
    exact hx
  · refine h before y after ?_
    have hcut : log ++ [x] = (before ++ y :: after) ++ [z] := by simpa using heq
    exact (List.append_inj' hcut rfl).1

/-- Entries that have their reason in any log that goes on from this one. -/
theorem Justified.append (h : Justified reason log)
    (hnew : ∀ x ∈ new, ∀ more, more <+: new → reason (log ++ more) x) :
    Justified reason (log ++ new) := by
  induction new using List.reverseRecOn with
  | nil => simpa using h
  | append_singleton new x ih =>
    rw [← List.append_assoc]
    refine (ih fun y hy more hmore => ?_).concat ?_
    · exact hnew y (List.mem_append_left _ hy) more (hmore.trans (List.prefix_append _ _))
    · exact hnew x (by simp) new (List.prefix_append _ _)

end Justified

end Run
