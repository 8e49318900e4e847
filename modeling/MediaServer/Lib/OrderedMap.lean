import Mathlib.Data.List.Lex
import Mathlib.Data.List.Sort
import Mathlib.Order.Basic

/-!
# Ordered maps

A map that keeps its entries in the order of their keys, as `std::map` does.
An iterator is a key here.  Everything about a map follows from which entries it
has: `mem_assign` and `mem_erase` say so for the two operations, `assign_perm` and
`erase_perm` count them, `find?_eq_some`, `find?_assign` and `find?_erase` are about a
lookup, `after_eq_some` and `first_eq_some` about a walk.
-/

/-- A finite map whose entries stand in the order of their keys. -/
structure OrderedMap (κ α : Type) [LinearOrder κ] where
  entries : List (κ × α)
  sorted : entries.Pairwise fun e f => e.1 < f.1

namespace OrderedMap

variable {κ α : Type} [LinearOrder κ]

instance [DecidableEq α] : DecidableEq (OrderedMap κ α) := fun m n =>
  decidable_of_iff (m.entries = n.entries) (by cases m; cases n; simp)

/-- The map without entries. -/
def empty : OrderedMap κ α := ⟨[], List.Pairwise.nil⟩

/-- The number of keys. -/
def size (m : OrderedMap κ α) : Nat := m.entries.length

/-- The keys in their order. -/
def keys (m : OrderedMap κ α) : List κ := m.entries.map Prod.fst

/-- `find`. -/
def find? (m : OrderedMap κ α) (k : κ) : Option α :=
  (m.entries.find? fun e => e.1 = k).map Prod.snd

/-- `erase`. -/
def erase (m : OrderedMap κ α) (k : κ) : OrderedMap κ α :=
  ⟨m.entries.filter fun e => e.1 ≠ k, m.sorted.filter _⟩

/-- `operator[]` with an assignment: an entry that was there is replaced. -/
def assign (m : OrderedMap κ α) (k : κ) (v : α) : OrderedMap κ α :=
  ⟨(m.entries.filter fun e => e.1 < k) ++ (k, v) :: m.entries.filter fun e => k < e.1, by
    refine List.pairwise_append.mpr ⟨m.sorted.filter _, ?_, ?_⟩
    · refine List.pairwise_cons.mpr ⟨fun e he => ?_, m.sorted.filter _⟩
      simpa using (List.mem_filter.mp he).2
    · intro e he f hf
      have hlow : e.1 < k := by simpa using (List.mem_filter.mp he).2
      rcases List.mem_cons.mp hf with rfl | hf
      · exact hlow
      · have hhigh : k < f.1 := by simpa using (List.mem_filter.mp hf).2
        exact hlow.trans hhigh⟩

/-- `begin`. -/
def first (m : OrderedMap κ α) : Option (κ × α) := m.entries.head?

/-- The entry behind a key, which `erase` of an iterator returns. -/
def after (m : OrderedMap κ α) (k : κ) : Option (κ × α) := m.entries.find? fun e => k < e.1

section Entries

variable {m : OrderedMap κ α} {k : κ} {v : α} {e : κ × α}

@[simp] theorem entries_empty : (empty : OrderedMap κ α).entries = [] := rfl

@[simp] theorem size_empty : (empty : OrderedMap κ α).size = 0 := rfl

@[simp] theorem mem_erase : e ∈ (m.erase k).entries ↔ e ∈ m.entries ∧ e.1 ≠ k := by
  simp [erase]

@[simp] theorem mem_assign :
    e ∈ (m.assign k v).entries ↔ e = (k, v) ∨ e ∈ m.entries ∧ e.1 ≠ k := by
  simp only [assign, List.mem_append, List.mem_cons, List.mem_filter, decide_eq_true_eq]
  constructor
  · rintro (⟨he, hlow⟩ | rfl | ⟨he, hhigh⟩)
    · exact .inr ⟨he, hlow.ne⟩
    · exact .inl rfl
    · exact .inr ⟨he, hhigh.ne'⟩
  · rintro (rfl | ⟨he, hne⟩)
    · exact .inr (.inl rfl)
    · rcases lt_or_gt_of_ne hne with hlow | hhigh
      · exact .inl ⟨he, hlow⟩
      · exact .inr (.inr ⟨he, hhigh⟩)

theorem mem_keys : k ∈ m.keys ↔ ∃ v, (k, v) ∈ m.entries := by
  simp [keys]

theorem keys_nodup (m : OrderedMap κ α) : m.keys.Nodup :=
  List.pairwise_map.mpr (m.sorted.imp fun h => h.ne)

theorem entries_nodup (m : OrderedMap κ α) : m.entries.Nodup :=
  m.keys_nodup.of_map _

/-- A key has one entry. -/
theorem eq_of_mem {f : κ × α} (he : e ∈ m.entries) (hf : f ∈ m.entries) (hkey : e.1 = f.1) :
    e = f :=
  List.inj_on_of_nodup_map m.keys_nodup he hf hkey

theorem find?_eq_some : m.find? k = some v ↔ (k, v) ∈ m.entries := by
  rw [find?, Option.map_eq_some_iff]
  constructor
  · rintro ⟨⟨k', v'⟩, hfind, rfl⟩
    have hkey : k' = k := by simpa using List.find?_some hfind
    exact hkey ▸ List.mem_of_find?_eq_some hfind
  · intro hmem
    obtain ⟨e, hfind⟩ : ∃ e, (m.entries.find? fun e => e.1 = k) = some e := by
      rw [← Option.isSome_iff_exists, List.find?_isSome]
      exact ⟨(k, v), hmem, by simp⟩
    have hkey : e.1 = k := by simpa using List.find?_some hfind
    have hsame := eq_of_mem (List.mem_of_find?_eq_some hfind) hmem hkey
    exact ⟨e, hfind, by rw [hsame]⟩

theorem find?_eq_none : m.find? k = none ↔ k ∉ m.keys := by
  rw [mem_keys, Option.eq_none_iff_forall_ne_some, not_exists]
  exact forall_congr' fun v => not_congr find?_eq_some

theorem mem_keys_iff : k ∈ m.keys ↔ m.find? k ≠ none := by
  rw [ne_eq, find?_eq_none, not_not]

/-- The entries under one key. -/
theorem filter_key {p : κ × α → Bool} (m : OrderedMap κ α) {k : κ} (hp : ∀ e, p e ↔ e.1 = k) :
    m.entries.filter p = ((m.find? k).map fun v => (k, v)).toList := by
  rcases hfind : m.find? k with _ | v
  · refine List.filter_eq_nil_iff.mpr fun e he => ?_
    rw [hp]
    rintro rfl
    exact find?_eq_none.mp hfind (mem_keys.mpr ⟨e.2, he⟩)
  · have hmem := find?_eq_some.mp hfind
    refine List.perm_singleton.mp ((List.perm_ext_iff_of_nodup (m.entries_nodup.filter _)
      (List.nodup_singleton _)).mpr fun e => ?_)
    rw [List.mem_filter, hp, List.mem_singleton]
    constructor
    · rintro ⟨he, hk⟩
      exact eq_of_mem he hmem hk
    · rintro rfl
      exact ⟨hmem, rfl⟩

@[simp] theorem find?_empty : (empty : OrderedMap κ α).find? k = none := rfl

theorem find?_assign {k' : κ} :
    (m.assign k v).find? k' = if k' = k then some v else m.find? k' := by
  refine Option.ext fun w => ?_
  rw [find?_eq_some, mem_assign, Prod.mk.injEq]
  split
  · rename_i hk
    simp [hk, eq_comm]
  · rename_i hk
    simp [hk, find?_eq_some]

theorem find?_erase {k' : κ} :
    (m.erase k).find? k' = if k' = k then none else m.find? k' := by
  refine Option.ext fun w => ?_
  rw [find?_eq_some, mem_erase]
  split
  · rename_i hk
    simp [hk]
  · rename_i hk
    simp [hk, find?_eq_some]

@[simp] theorem find?_assign_self : (m.assign k v).find? k = some v := by
  rw [find?_assign, if_pos rfl]

theorem find?_assign_of_ne {k' : κ} (h : k' ≠ k) : (m.assign k v).find? k' = m.find? k' := by
  rw [find?_assign, if_neg h]

@[simp] theorem find?_erase_self : (m.erase k).find? k = none := by
  rw [find?_erase, if_pos rfl]

theorem find?_erase_of_ne {k' : κ} (h : k' ≠ k) : (m.erase k).find? k' = m.find? k' := by
  rw [find?_erase, if_neg h]

/-- A map in which nothing is found has no entries. -/
theorem entries_eq_nil (h : ∀ k, m.find? k = none) : m.entries = [] := by
  refine List.eq_nil_iff_forall_not_mem.mpr fun e he => ?_
  have hfind : m.find? e.1 = some e.2 := find?_eq_some.mpr he
  rw [h e.1] at hfind
  cases hfind

end Entries

section Permutations

variable {m : OrderedMap κ α} {k : κ} {v : α}

theorem assign_perm (h : k ∉ m.keys) : (m.assign k v).entries.Perm ((k, v) :: m.entries) := by
  refine (List.perm_ext_iff_of_nodup (entries_nodup _) ?_).mpr fun e => ?_
  · exact List.nodup_cons.mpr ⟨fun hmem => h (mem_keys.mpr ⟨v, hmem⟩), entries_nodup m⟩
  · rw [mem_assign, List.mem_cons]
    refine or_congr_right (and_iff_left_of_imp fun he hkey => h (mem_keys.mpr ⟨e.2, ?_⟩))
    exact hkey ▸ he

theorem erase_perm (h : (k, v) ∈ m.entries) : m.entries.Perm ((k, v) :: (m.erase k).entries) := by
  refine (List.perm_ext_iff_of_nodup (entries_nodup _) ?_).mpr fun e => ?_
  · exact List.nodup_cons.mpr ⟨by simp, entries_nodup _⟩
  · rw [List.mem_cons, mem_erase]
    constructor
    · intro he
      by_cases hkey : e.1 = k
      · exact .inl (eq_of_mem he h hkey)
      · exact .inr ⟨he, hkey⟩
    · rintro (rfl | ⟨he, -⟩)
      · exact h
      · exact he

end Permutations

section Walk

variable {m : OrderedMap κ α} {k : κ} {e : κ × α}

/-- The smallest entry that meets a condition is the first one found. -/
theorem find?_smallest {p : κ × α → Bool} (hmem : e ∈ m.entries) (hp : p e)
    (hleast : ∀ f ∈ m.entries, p f → e.1 ≤ f.1) : m.entries.find? p = some e := by
  obtain ⟨f, hfind⟩ : ∃ f, m.entries.find? p = some f := by
    rw [← Option.isSome_iff_exists, List.find?_isSome]
    exact ⟨e, hmem, hp⟩
  have hf := List.mem_of_find?_eq_some hfind
  have hle := hleast f hf (List.find?_some hfind)
  obtain ⟨-, before, rest, hsplit, hbefore⟩ := List.find?_eq_some_iff_append.mp hfind
  have hge : f.1 ≤ e.1 := by
    rw [hsplit] at hmem
    rcases List.mem_append.mp hmem with hmem | hmem
    · exact absurd hp (by simpa using hbefore e hmem)
    · rcases List.mem_cons.mp hmem with rfl | hmem
      · exact le_rfl
      · have hsorted := m.sorted
        rw [hsplit, List.pairwise_append] at hsorted
        exact ((List.pairwise_cons.mp hsorted.2.1).1 e hmem).le
  rw [hfind, eq_of_mem hf hmem (le_antisymm hge hle)]

theorem after_eq_some (hmem : e ∈ m.entries) (hk : k < e.1)
    (hleast : ∀ f ∈ m.entries, k < f.1 → e.1 ≤ f.1) : m.after k = some e :=
  find?_smallest hmem (by simpa using hk) fun f hf hlt => hleast f hf (by simpa using hlt)

theorem after_eq_none (h : ∀ f ∈ m.entries, f.1 ≤ k) : m.after k = none :=
  List.find?_eq_none.mpr fun f hf => by simpa using h f hf

theorem first_eq_some (hmem : e ∈ m.entries) (hleast : ∀ f ∈ m.entries, e.1 ≤ f.1) :
    m.first = some e := by
  have hfind := find?_smallest (p := fun _ => true) hmem rfl fun f hf _ => hleast f hf
  rw [first, ← hfind]
  cases m.entries <;> rfl

end Walk

end OrderedMap

/-- The order of the numbers, over the comparisons that `UInt16` has. -/
instance uint16LinearOrder : LinearOrder UInt16 where
  le_refl a := UInt16.le_refl a
  le_trans _ _ _ := UInt16.le_trans
  le_antisymm _ _ := UInt16.le_antisymm
  lt_iff_le_not_ge a b := by
    rw [UInt16.lt_iff_toNat_lt, UInt16.le_iff_toNat_le, UInt16.le_iff_toNat_le]
    omega
  le_total := UInt16.le_total
  toDecidableLE := UInt16.decLe
  toDecidableEq := instDecidableEqUInt16
  toDecidableLT := UInt16.decLt

/-- The order of the numbers, over the comparisons that `UInt8` has.  It is not an
instance, so that bytes are compared as before. -/
abbrev uint8LinearOrder : LinearOrder UInt8 where
  le_refl a := UInt8.le_refl a
  le_trans _ _ _ := UInt8.le_trans
  le_antisymm _ _ := UInt8.le_antisymm
  lt_iff_le_not_ge a b := by
    rw [UInt8.lt_iff_toNat_lt, UInt8.le_iff_toNat_le, UInt8.le_iff_toNat_le]
    omega
  le_total := UInt8.le_total
  toDecidableLE := UInt8.decLe
  toDecidableEq := instDecidableEqUInt8
  toDecidableLT := UInt8.decLt

/-- The order of byte strings, in which `std::map` keeps them. -/
instance bytesLinearOrder : LinearOrder (List UInt8) :=
  @List.instLinearOrder UInt8 uint8LinearOrder
