import Mathlib.Data.List.Forall2
import Mathlib.Data.List.Nodup

/-!
# Lists that are related item by item

`List.Forall₂` relates two lists of one length item by item.  A map that can fail gives such
a pair of lists (`forall₂_of_mapM`), and so does a pass behind another one
(`forall₂_trans`).  From the relation of the items follow equations and conditions of the
lists (`map_eq_of_forall₂`, `forall_mem_iff_of_forall₂`, `forall₂_iff_of_forall₂`), and where
an item comes from (`exists_of_mem_forall₂`).

`forall_find?_iff_nodup` is about a search by a key: it reaches every item exactly when the
keys are distinct.
-/

namespace RelatedLists

variable {α β γ : Type} {R : α → β → Prop} {as : List α} {bs : List β}

theorem forall₂_of_mapM {f : α → Option β} (h : as.mapM f = some bs) :
    List.Forall₂ (fun a b => f a = some b) as bs := by
  induction as generalizing bs with
  | nil =>
    cases h
    exact .nil
  | cons a as ih =>
    rw [List.mapM_cons] at h
    obtain ⟨b, hb, h⟩ := Option.bind_eq_some_iff.mp h
    obtain ⟨bs', hbs, h⟩ := Option.bind_eq_some_iff.mp h
    cases h
    exact .cons hb (ih hbs)

theorem forall₂_trans {S : β → γ → Prop} {T : α → γ → Prop} {cs : List γ}
    (hR : List.Forall₂ R as bs) (hS : List.Forall₂ S bs cs)
    (hT : ∀ a b c, R a b → S b c → T a c) : List.Forall₂ T as cs := by
  induction hR generalizing cs with
  | nil =>
    cases hS
    exact .nil
  | cons hab _ ih =>
    cases hS with
    | cons hbc hS => exact .cons (hT _ _ _ hab hbc) (ih hS)

theorem map_eq_of_forall₂ {f : α → γ} {g : β → γ} (h : List.Forall₂ R as bs)
    (heq : ∀ a b, R a b → f a = g b) : as.map f = bs.map g := by
  induction h with
  | nil => rfl
  | cons hab _ ih => rw [List.map_cons, List.map_cons, heq _ _ hab, ih]

theorem exists_of_mem_forall₂ (h : List.Forall₂ R as bs) {b : β} (hb : b ∈ bs) :
    ∃ a ∈ as, R a b := by
  induction h with
  | nil => cases hb
  | cons hab _ ih =>
    rcases List.mem_cons.mp hb with rfl | hb
    · exact ⟨_, List.mem_cons_self, hab⟩
    · obtain ⟨a, ha, hR⟩ := ih hb
      exact ⟨a, List.mem_cons_of_mem _ ha, hR⟩

/-- A condition on the second items that says the same as one on the first. -/
theorem forall_mem_iff_of_forall₂ {P : β → Prop} {Q : α → Prop} (h : List.Forall₂ R as bs)
    (hiff : ∀ a b, R a b → (P b ↔ Q a)) : (∀ b ∈ bs, P b) ↔ ∀ a ∈ as, Q a := by
  induction h with
  | nil => simp
  | cons hab _ ih => rw [List.forall_mem_cons, List.forall_mem_cons, hiff _ _ hab, ih]

theorem forall₂_iff_of_forall₂ {S : α → β → Prop} {Q : α → Prop} (h : List.Forall₂ R as bs)
    (hiff : ∀ a b, R a b → (S a b ↔ Q a)) : List.Forall₂ S as bs ↔ ∀ a ∈ as, Q a := by
  induction h with
  | nil => simp
  | cons hab _ ih => rw [List.forall₂_cons, List.forall_mem_cons, hiff _ _ hab, ih]

/-- Each item is the first one with its key exactly when no two have one key. -/
theorem forall_find?_iff_nodup [DecidableEq β] {f : α → β} (h : as.Nodup) :
    (∀ a ∈ as, as.find? (fun b => f b = f a) = some a) ↔ (as.map f).Nodup := by
  rw [List.nodup_map_iff_inj_on h]
  constructor
  · intro hfirst a ha b hb heq
    have hfound := hfirst a ha
    rw [heq, hfirst b hb, Option.some.injEq] at hfound
    exact hfound.symm
  · intro hinj a ha
    obtain ⟨b, hb⟩ := Option.isSome_iff_exists.mp
      (@List.find?_isSome _ as (fun b => decide (f b = f a)) |>.mpr ⟨a, ha, decide_eq_true rfl⟩)
    have heq : f b = f a := by simpa using List.find?_some hb
    rw [hb, hinj b (List.mem_of_find?_eq_some hb) a ha heq]

end RelatedLists
