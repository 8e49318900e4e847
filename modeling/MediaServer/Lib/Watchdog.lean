import Mathlib.Data.List.Induction
import Mathlib.Data.List.Infix
import Mathlib.Tactic.Common
import MediaServer.Lib.Run

/-!
# Watchdogs

Something is watched from a `start` on.  A timer ticks, and `idle` is the number of ticks
since the start or since the last sign of life, as a function of what has happened so far.
`Expired limit log` says that at some time the number has reached the limit.

A component that counts the ticks by itself agrees with `idle` by `idle_concat`.  What has
gone silent expires after as many ticks as the limit (`Expired.of_silence`); in a run whose
steps keep a log, `exists_silent_run` counts the ticks.
-/

namespace Watchdog

variable {α : Type} (start active tick : α → Bool)

/-- What an entry of the log does to the number of ticks. -/
def beat (n : Option Nat) (a : α) : Option Nat :=
  if start a then some 0
  else n.map fun n => if active a then 0 else if tick a then n + 1 else n

/-- The ticks since the last sign of life, none before the start. -/
def idle (log : List α) : Option Nat := log.foldl (beat start active tick) none

/-- At some time the number of ticks has reached the limit. -/
def Expired (limit : Nat) (log : List α) : Prop :=
  ∃ pre, pre <+: log ∧ idle start active tick pre = some limit

variable {start active tick} {limit n : Nat} {a : α} {log obs : List α}

@[simp] theorem idle_nil : idle start active tick ([] : List α) = none := rfl

theorem idle_concat :
    idle start active tick (log ++ [a]) =
      beat start active tick (idle start active tick log) a := by
  rw [idle, List.foldl_append]
  rfl

theorem Expired.append (h : Expired start active tick limit log) :
    Expired start active tick limit (log ++ obs) := by
  obtain ⟨pre, hpre, hidle⟩ := h
  exact ⟨pre, hpre.trans (List.prefix_append _ _), hidle⟩

theorem expired_concat :
    Expired start active tick limit (log ++ [a]) ↔
      Expired start active tick limit log ∨ idle start active tick (log ++ [a]) = some limit := by
  constructor
  · rintro ⟨pre, hpre, hidle⟩
    rcases List.prefix_concat_iff.mp hpre with rfl | hpre
    · exact Or.inr hidle
    · exact Or.inl ⟨pre, hpre, hidle⟩
  · rintro (h | h)
    · exact h.append
    · exact ⟨_, List.prefix_rfl, h⟩

/-- The number of ticks goes up by one at most, so that it does not jump over the limit. -/
theorem Expired.of_idle (h : idle start active tick log = some n) (hn : limit ≤ n) :
    Expired start active tick limit log := by
  induction log using List.reverseRecOn generalizing n with
  | nil => cases h
  | append_singleton log a ih =>
    by_cases heq : n = limit
    · exact expired_concat.mpr (Or.inr (heq ▸ h))
    · have hlt : limit < n := by omega
      rw [idle_concat, beat] at h
      split at h
      · cases h
        omega
      · obtain ⟨m, hm, hnm⟩ := Option.map_eq_some_iff.mp h
        refine expired_concat.mpr (Or.inl (ih hm ?_))
        split_ifs at hnm
        · omega
        · omega
        · omega

/-- Without a tick nothing expires. -/
theorem expired_append_of_no_tick (hlimit : 0 < limit) (hobs : ∀ a ∈ obs, tick a = false) :
    Expired start active tick limit (log ++ obs) ↔ Expired start active tick limit log := by
  induction obs using List.reverseRecOn with
  | nil => rw [List.append_nil]
  | append_singleton obs a ih =>
    have ih := ih fun b hb => hobs b (by simp [hb])
    rw [← List.append_assoc, expired_concat, ih]
    refine ⟨fun h => ?_, Or.inl⟩
    rcases h with h | h
    · exact h
    · rw [idle_concat, beat, hobs a (by simp)] at h
      split at h
      · cases h
        omega
      · obtain ⟨n, hn, hlimit'⟩ := Option.map_eq_some_iff.mp h
        simp only [Bool.false_eq_true, if_false] at hlimit'
        split_ifs at hlimit'
        · omega
        · exact ih.mp (.of_idle hn hlimit'.ge)

/-- Nothing is counted before the start. -/
theorem exists_start_of_idle (h : idle start active tick log = some n) :
    ∃ a ∈ log, start a = true := by
  induction log using List.reverseRecOn generalizing n with
  | nil => cases h
  | append_singleton log a ih =>
    rw [idle_concat, beat] at h
    split at h
    · next hstart => exact ⟨a, by simp, hstart⟩
    · obtain ⟨m, hm, -⟩ := Option.map_eq_some_iff.mp h
      obtain ⟨b, hb, hstart⟩ := ih hm
      exact ⟨b, by simp [hb], hstart⟩

theorem Expired.exists_start (h : Expired start active tick limit log) :
    ∃ a ∈ log, start a = true := by
  obtain ⟨pre, hpre, hidle⟩ := h
  obtain ⟨a, ha, hstart⟩ := exists_start_of_idle hidle
  exact ⟨a, hpre.subset ha, hstart⟩

/-- Nothing but ticks. -/
def Silent (start active : α → Bool) (obs : List α) : Prop :=
  ∀ a ∈ obs, start a = false ∧ active a = false

theorem idle_of_silent (h : idle start active tick log = some n) (hobs : Silent start active obs) :
    idle start active tick (log ++ obs) = some (n + obs.countP tick) := by
  induction obs using List.reverseRecOn with
  | nil => simpa using h
  | append_singleton obs a ih =>
    obtain ⟨hstart, hactive⟩ := hobs a (by simp)
    rw [← List.append_assoc, idle_concat, ih fun b hb => hobs b (by simp [hb]), beat]
    simp only [hstart, hactive, Bool.false_eq_true, if_false, Option.map_some, List.countP_append,
      List.countP_singleton]
    split
    · rw [Nat.add_assoc]
    · rfl

/-- What is silent for as many ticks as the limit has expired. -/
theorem Expired.of_silence (h : idle start active tick log = some n)
    (hobs : Silent start active obs) (hticks : limit ≤ obs.countP tick) :
    Expired start active tick limit (log ++ obs) :=
  .of_idle (idle_of_silent h hobs) (by omega)

/-- A run in which every step is silent, and steps of one kind tick. -/
theorem exists_silent_run {σ ε β : Type} {step : β → σ → Except ε σ} {cond : β → σ → Prop}
    (inv : σ → Prop) (logOf : σ → List α) {ticks : β → Bool}
    (hstep : ∀ b s s', inv s → cond b s → step b s = .ok s' → inv s' ∧
      ∃ obs, logOf s' = logOf s ++ obs ∧ Silent start active obs ∧
        (ticks b = true → 0 < obs.countP tick))
    {bs : List β} {s t : σ} (hs : inv s) (hcond : Run.Along step cond bs s)
    (hrun : Run.run step bs s = .ok t) :
    inv t ∧ ∃ obs, logOf t = logOf s ++ obs ∧ Silent start active obs ∧
      bs.countP ticks ≤ obs.countP tick := by
  induction bs generalizing s with
  | nil =>
    cases hrun
    exact ⟨hs, [], by simp, fun _ ho => absurd ho List.not_mem_nil, Nat.le_refl _⟩
  | cons b bs ih =>
    obtain ⟨s', hfirst, hrest⟩ := Run.exists_of_run_cons hrun
    obtain ⟨hs', obs, hlog, hobs, htick⟩ := hstep b s s' hs hcond.1 hfirst
    obtain ⟨ht, obs', hlog', hobs', hcount⟩ := ih hs' (hcond.2 s' hfirst) hrest
    refine ⟨ht, obs ++ obs', by rw [hlog', hlog, List.append_assoc], fun a ha => ?_, ?_⟩
    · exact (List.mem_append.mp ha).elim (hobs a) (hobs' a)
    · rw [List.countP_cons, List.countP_append]
      by_cases hb : ticks b = true
      · have hpos := htick hb
        rw [if_pos hb]
        omega
      · rw [if_neg hb]
        omega

end Watchdog
