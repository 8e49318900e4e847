import Mathlib.Data.List.Induction
import Mathlib.Order.Lattice
import Mathlib.Tactic.Common
import MediaServer.Lib.OrderedMap

/-!
# The list of missing packets

`net/webrtc/nack_generator`: the receiver of a stream keeps a map of the packets
that it waits for.  `update_nacklist` sees every packet that arrives.

Sequence numbers have 16 bits and wrap.  Behind each stands an unwrapped number,
and `residue` takes it to the number in the packet.  `Tracks` says what the map
holds in terms of unwrapped numbers, and `tracks_run` proves it for every order of
arrival.  The map lacks the packets that a jump over a multiple of 2^16 leaves
out, because the loop that adds them compares wrapped numbers.  `Leapt` names
these packets.
-/

namespace MediaServer

/-- The last sequence number. -/
def SEQUENCE_MAX : Nat := 65535

/-- The comparisons are those of `int`, to which both numbers are promoted. -/
def seqLowerThan (seq1 seq2 : UInt16) : Bool :=
  if seq1 > seq2 ∧ (seq1.toNat : Int) - seq2.toNat > (SEQUENCE_MAX / 2 : Nat) then true
  else if seq1 < seq2 ∧ (seq2.toNat : Int) - seq1.toNat ≤ (SEQUENCE_MAX / 2 : Nat) then true
  else false

/-- `NACK_INFO`. -/
structure NackInfo where
  seq : UInt16
  sentMs : Int
  retry : Int
  deriving DecidableEq, Repr

/-- `nack_generator`, without the timer. -/
structure NackGenerator where
  initFlag : Bool := false
  lastSeq : UInt16 := 0
  nackMap : OrderedMap UInt16 NackInfo := OrderedMap.empty
  deriving DecidableEq

namespace NackGenerator

/-- The values of `key_seq` in the loop from `seq_start + 1`, which is a number of
16 bits, up to `seq_end`. -/
def keySeqs (seqStart seqEnd : UInt16) : List UInt16 :=
  (List.range (seqEnd.toNat - (seqStart + 1).toNat)).map fun i => seqStart + 1 + UInt16.ofNat i

/-- One turn of this loop. -/
def addKey (nackMap : OrderedMap UInt16 NackInfo) (keySeq : UInt16) :
    OrderedMap UInt16 NackInfo :=
  match nackMap.find? keySeq with
  | none => nackMap.assign keySeq { seq := keySeq, sentMs := 0, retry := 0 }
  | some _ => nackMap

/-- `update_nacklist`, for a packet with the number `seq`. -/
def updateNacklist (g : NackGenerator) (seq : UInt16) : NackGenerator :=
  if !g.initFlag then { g with initFlag := true, lastSeq := seq }
  else if seq = g.lastSeq then g
  else if seqLowerThan seq g.lastSeq then
    match g.nackMap.find? seq with
    | some _ => { g with nackMap := g.nackMap.erase seq }
    | none => g
  else if g.lastSeq.toNat + 1 = seq.toNat then { g with lastSeq := seq }
  else { g with lastSeq := seq, nackMap := (keySeqs g.lastSeq seq).foldl addKey g.nackMap }

/-- The packets of a stream, in the order in which they arrive. -/
def run (g : NackGenerator) (seqs : List UInt16) : NackGenerator := seqs.foldl updateNacklist g

/-! ## What the steps do to the map -/

theorem initFlag_updateNacklist (g : NackGenerator) (seq : UInt16) :
    (g.updateNacklist seq).initFlag = true := by
  rw [updateNacklist]
  split
  · rfl
  · rename_i hstarted
    rw [Bool.not_eq_true, Bool.not_eq_false'] at hstarted
    split_ifs
    · exact hstarted
    · split
      · exact hstarted
      · exact hstarted
    · exact hstarted
    · exact hstarted

theorem mem_keys_addKey {m : OrderedMap UInt16 NackInfo} {key k : UInt16} :
    k ∈ (addKey m key).keys ↔ k = key ∨ k ∈ m.keys := by
  rw [addKey]
  split
  · simp only [OrderedMap.mem_keys, OrderedMap.mem_assign, Prod.mk.injEq]
    by_cases hk : k = key <;> simp [hk]
  · rename_i v hfind
    have hmem : key ∈ m.keys := OrderedMap.mem_keys.mpr ⟨v, OrderedMap.find?_eq_some.mp hfind⟩
    constructor
    · exact .inr
    · rintro (rfl | hk)
      · exact hmem
      · exact hk

theorem mem_keys_addKeys {m : OrderedMap UInt16 NackInfo} {keys : List UInt16} {k : UInt16} :
    k ∈ (keys.foldl addKey m).keys ↔ k ∈ keys ∨ k ∈ m.keys := by
  induction keys generalizing m with
  | nil => simp
  | cons key keys ih =>
    rw [List.foldl_cons, ih, mem_keys_addKey, List.mem_cons]
    tauto

/-- The loop adds the numbers between its ends, which are none when the upper
end has wrapped. -/
theorem mem_keySeqs {seqStart seqEnd k : UInt16} :
    k ∈ keySeqs seqStart seqEnd ↔ (seqStart + 1).toNat ≤ k.toNat ∧ k.toNat < seqEnd.toNat := by
  rw [keySeqs, List.mem_map]
  generalize seqStart + 1 = start
  have hend := seqEnd.toNat_lt
  constructor
  · rintro ⟨i, hi, rfl⟩
    rw [List.mem_range] at hi
    rw [UInt16.toNat_add, UInt16.toNat_ofNat']
    omega
  · rintro ⟨hlow, hhigh⟩
    refine ⟨k.toNat - start.toNat, List.mem_range.mpr (by omega), ?_⟩
    rw [← UInt16.toNat_inj, UInt16.toNat_add, UInt16.toNat_ofNat']
    omega

/-! ## Unwrapped numbers -/

/-- The number that a packet carries. -/
def residue (n : Int) : UInt16 := UInt16.ofNat (n % 65536).toNat

@[simp] theorem toNat_residue (n : Int) : ((residue n).toNat : Int) = n % 65536 := by
  rw [residue, UInt16.toNat_ofNat']
  omega

theorem residue_eq_iff {n m : Int} : residue n = residue m ↔ n % 65536 = m % 65536 := by
  rw [← UInt16.toNat_inj]
  have hn := toNat_residue n
  have hm := toNat_residue m
  omega

/-- Two numbers are at most half a cycle away from each other. -/
def Near (n m : Int) : Prop := n - m ≤ 32767 ∧ m - n ≤ 32767

instance (n m : Int) : Decidable (Near n m) := inferInstanceAs (Decidable (_ ∧ _))

theorem seqLowerThan_residue {n m : Int} (h : Near n m) :
    seqLowerThan (residue n) (residue m) = true ↔ n < m := by
  have hn := toNat_residue n
  have hm := toNat_residue m
  obtain ⟨hnm, hmn⟩ := h
  simp only [seqLowerThan, SEQUENCE_MAX, gt_iff_lt, UInt16.lt_iff_toNat_lt]
  split
  · simp only [true_iff]
    omega
  · split
    · simp only [true_iff]
      omega
    · simp only [Bool.false_eq_true, false_iff]
      omega

/-- The largest number that has arrived. -/
def highest (start : Int) (rest : List Int) : Int := rest.foldl max start

theorem start_le_highest (start : Int) (rest : List Int) : start ≤ highest start rest := by
  induction rest generalizing start with
  | nil => exact Int.le_refl start
  | cons n rest ih => exact (le_max_left start n).trans (ih (max start n))

theorem le_highest {start n : Int} {rest : List Int} (h : n ∈ start :: rest) :
    n ≤ highest start rest := by
  induction rest generalizing start with
  | nil => exact (List.mem_singleton.mp h).le
  | cons x rest ih =>
    rcases List.mem_cons.mp h with rfl | h
    · exact start_le_highest n (x :: rest)
    · rcases List.mem_cons.mp h with rfl | h
      · exact (le_max_right start n).trans (start_le_highest _ rest)
      · exact ih (List.mem_cons_of_mem _ h)

theorem highest_mem (start : Int) (rest : List Int) : highest start rest ∈ start :: rest := by
  induction rest generalizing start with
  | nil => simp [highest]
  | cons x rest ih =>
    have hmem := ih (max start x)
    rw [highest, List.foldl_cons, ← highest]
    rcases List.mem_cons.mp hmem with heq | hmem
    · rw [heq]
      rcases le_total start x with h | h <;> simp [h]
    · simp [hmem]

@[simp] theorem highest_concat (start : Int) (rest : List Int) (n : Int) :
    highest start (rest ++ [n]) = max (highest start rest) n := by
  simp [highest]

theorem highest_sub_start_le {start : Int} {rest : List Int}
    (hnear : (start :: rest).Pairwise Near) : highest start rest - start ≤ 32767 := by
  rcases List.mem_cons.mp (highest_mem start rest) with heq | hmem
  · omega
  · exact ((List.pairwise_cons.mp hnear).1 _ hmem).2

/-- A jump from `top` to `n` that goes over a multiple of 2^16 and does not start
right before it. -/
def Leap (top n : Int) : Prop := (top + 1) / 65536 < n / 65536

/-- The numbers that such jumps have left out. -/
def Leapt (top : Int) : List Int → Int → Prop
  | [], _ => False
  | n :: rest, m => (top < m ∧ m < n ∧ Leap top n) ∨ Leapt (max top n) rest m

theorem leapt_concat {top n m : Int} {rest : List Int} :
    Leapt top (rest ++ [n]) m ↔
      Leapt top rest m ∨ (highest top rest < m ∧ m < n ∧ Leap (highest top rest) n) := by
  induction rest generalizing top with
  | nil => simp [Leapt, highest]
  | cons x rest ih =>
    rw [List.cons_append, Leapt, ih, Leapt, or_assoc]
    rfl

/-- The numbers that a leap leaves out are below the largest. -/
theorem Leapt.bounds {top m : Int} {rest : List Int} (h : Leapt top rest m) :
    top < m ∧ m < highest top rest := by
  induction rest generalizing top with
  | nil => cases h
  | cons n rest ih =>
    rcases h with ⟨hlow, hhigh, -⟩ | h
    · have hle : n ≤ highest top (n :: rest) := le_highest (by simp)
      exact ⟨hlow, by omega⟩
    · have hlt := (ih h).1
      exact ⟨by omega, (ih h).2⟩

/-! ## The map over a whole stream -/

/-- The state after packets with unwrapped numbers. -/
structure Tracks (start : Int) (rest : List Int) (g : NackGenerator) : Prop where
  started : g.initFlag = true
  lastSeq : g.lastSeq = residue (highest start rest)
  keys : ∀ k, k ∈ g.nackMap.keys ↔
    ∃ m, residue m = k ∧ start < m ∧ m < highest start rest ∧ m ∉ start :: rest ∧
      ¬ Leapt start rest m

theorem tracks_start (start : Int) : Tracks start [] (run {} [residue start]) where
  started := rfl
  lastSeq := rfl
  keys k := by
    constructor
    · intro hk
      cases hk
    · rintro ⟨m, -, hlow, hhigh, -⟩
      exact absurd hhigh (by simpa [highest] using hlow.le)

/-- The loop adds the numbers that the packet `n` has jumped over, unless the
jump is a leap. -/
theorem mem_keySeqs_residue {top n : Int} (hlow : top < n) (hnear : Near top n) {k : UInt16} :
    k ∈ keySeqs (residue top) (residue n) ↔
      ∃ m, residue m = k ∧ top < m ∧ m < n ∧ ¬ Leap top n := by
  have hnext : ((residue top + 1).toNat : Int) = (top + 1) % 65536 := by
    have htop := toNat_residue top
    rw [UInt16.toNat_add]
    simp only [UInt16.reduceToNat]
    omega
  have hn := toNat_residue n
  obtain ⟨-, hnear⟩ := hnear
  rw [mem_keySeqs, Leap]
  constructor
  · rintro ⟨hge, hlt⟩
    refine ⟨65536 * (n / 65536) + k.toNat, ?_, ?_, ?_, ?_⟩
    · have hk := k.toNat_lt
      have hm := toNat_residue (65536 * (n / 65536) + k.toNat)
      rw [← UInt16.toNat_inj]
      omega
    all_goals omega
  · rintro ⟨m, rfl, hm, hmn, hleap⟩
    have hres := toNat_residue m
    omega

/-- What a packet with the number `n` does, in terms of unwrapped numbers. -/
theorem updateNacklist_cases {g : NackGenerator} {top n : Int} (hstarted : g.initFlag = true)
    (hlast : g.lastSeq = residue top) (hnear : Near top n) :
    (g.updateNacklist (residue n)).initFlag = true ∧
    (n = top ∧ g.updateNacklist (residue n) = g ∨
     n < top ∧ (g.updateNacklist (residue n)).lastSeq = g.lastSeq ∧
      (∀ k, k ∈ (g.updateNacklist (residue n)).nackMap.keys ↔ k ∈ g.nackMap.keys ∧ k ≠ residue n) ∨
     top < n ∧ (g.updateNacklist (residue n)).lastSeq = residue n ∧
      ∀ k, k ∈ (g.updateNacklist (residue n)).nackMap.keys ↔
        k ∈ keySeqs (residue top) (residue n) ∨ k ∈ g.nackMap.keys) := by
  have htop := toNat_residue top
  have hn := toNat_residue n
  have hlower := seqLowerThan_residue (n := n) (m := top) ⟨hnear.2, hnear.1⟩
  have hsame : residue n = residue top ↔ n = top := by
    obtain ⟨h₁, h₂⟩ := hnear
    rw [residue_eq_iff]
    omega
  rw [updateNacklist, hstarted, hlast]
  simp only [Bool.not_true, Bool.false_eq_true, if_false]
  by_cases heq : n = top
  · rw [if_pos (hsame.mpr heq)]
    exact ⟨hstarted, .inl ⟨heq, rfl⟩⟩
  rw [if_neg (mt hsame.mp heq)]
  by_cases hlt : n < top
  · rw [if_pos (hlower.mpr hlt)]
    refine ⟨by split <;> simp [hstarted], .inr (.inl ⟨hlt, by split <;> simp [hlast], fun k => ?_⟩)⟩
    split
    · simp only [OrderedMap.mem_keys, OrderedMap.mem_erase, exists_and_right]
    · rename_i hnone
      refine (and_iff_left_of_imp fun hk heq => ?_).symm
      exact OrderedMap.find?_eq_none.mp hnone (heq ▸ hk)
  rw [if_neg (mt hlower.mp hlt)]
  split
  · rename_i hnext
    refine ⟨rfl, .inr (.inr ⟨by omega, rfl, fun k => ?_⟩)⟩
    have hempty : k ∉ keySeqs (residue top) (residue n) := by
      rw [mem_keySeqs, UInt16.toNat_add]
      simp only [UInt16.reduceToNat]
      omega
    simp [hempty]
  · exact ⟨rfl, .inr (.inr ⟨by omega, rfl, fun k => mem_keys_addKeys⟩)⟩

/-- The map waits for the packet `m`: it has been jumped over, and not in a leap. -/
def Waiting (start : Int) (rest : List Int) (m : Int) : Prop :=
  start < m ∧ m < highest start rest ∧ m ∉ start :: rest ∧ ¬ Leapt start rest m

theorem waiting_concat_same {start n m : Int} {rest : List Int} (heq : n = highest start rest) :
    Waiting start (rest ++ [n]) m ↔ Waiting start rest m := by
  simp only [Waiting, highest_concat, heq, max_self, leapt_concat, ← List.cons_append,
    List.mem_append, List.mem_singleton]
  have hmem := highest_mem start rest
  grind

/-- A late packet is not waited for any more. -/
theorem waiting_concat_late {start n m : Int} {rest : List Int} (hlt : n < highest start rest) :
    Waiting start (rest ++ [n]) m ↔ Waiting start rest m ∧ m ≠ n := by
  simp only [Waiting, highest_concat, max_eq_left hlt.le, leapt_concat, ← List.cons_append,
    List.mem_append, List.mem_singleton]
  constructor
  · rintro ⟨hm, hmtop, hnew, hleapt⟩
    exact ⟨⟨hm, hmtop, fun hmem => hnew (.inl hmem), fun hl => hleapt (.inl hl)⟩,
      fun heq => hnew (.inr heq)⟩
  · rintro ⟨⟨hm, hmtop, hnew, hleapt⟩, hne⟩
    refine ⟨hm, hmtop, ?_, ?_⟩
    · rintro (hmem | heq)
      · exact hnew hmem
      · exact hne heq
    · rintro (hl | ⟨hhigh, -⟩)
      · exact hleapt hl
      · omega

/-- A packet that is newer than all before adds those that it jumps over. -/
theorem waiting_concat_newer {start n m : Int} {rest : List Int} (hgt : highest start rest < n) :
    Waiting start (rest ++ [n]) m ↔
      (highest start rest < m ∧ m < n ∧ ¬ Leap (highest start rest) n) ∨ Waiting start rest m := by
  have hlow := start_le_highest start rest
  simp only [Waiting, highest_concat, max_eq_right hgt.le, leapt_concat, ← List.cons_append,
    List.mem_append, List.mem_singleton]
  constructor
  · rintro ⟨hm, hmn, hnew, hleapt⟩
    by_cases hmtop : m < highest start rest
    · exact .inr ⟨hm, hmtop, fun hmem => hnew (.inl hmem), fun hl => hleapt (.inl hl)⟩
    · have hne : m ≠ highest start rest := by
        rintro rfl
        exact hnew (.inl (highest_mem start rest))
      exact .inl ⟨by omega, hmn, fun hl => hleapt (.inr ⟨by omega, hmn, hl⟩)⟩
  · rintro (⟨hm, hmn, hleap⟩ | ⟨hm, hmtop, hnew, hleapt⟩)
    · refine ⟨by omega, hmn, ?_, ?_⟩
      · rintro (hmem | rfl)
        · exact absurd (le_highest hmem) (by omega)
        · omega
      · rintro (hl | ⟨-, -, hl⟩)
        · exact absurd hl.bounds.2 (by omega)
        · exact hleap hl
    · refine ⟨hm, by omega, ?_, ?_⟩
      · rintro (hmem | rfl)
        · exact hnew hmem
        · omega
      · rintro (hl | ⟨hhigh, -⟩)
        · exact hleapt hl
        · omega

theorem tracks_step {start n : Int} {rest : List Int} {g : NackGenerator}
    (h : Tracks start rest g) (hnear : (start :: (rest ++ [n])).Pairwise Near) :
    Tracks start (rest ++ [n]) (g.updateNacklist (residue n)) := by
  have hn : ∀ x ∈ start :: rest, Near x n := by
    rw [← List.cons_append, List.pairwise_append] at hnear
    exact fun x hx => hnear.2.2 x hx n (by simp)
  have hstart : Near start n := hn start (by simp)
  have htop : Near (highest start rest) n := hn _ (highest_mem start rest)
  have hwidth : highest start rest - start ≤ 32767 := highest_sub_start_le (hnear.sublist
    ((List.sublist_append_left rest [n]).cons_cons start))
  obtain ⟨hstarted, hcases⟩ := updateNacklist_cases h.started h.lastSeq htop
  have hbefore : ∀ k, k ∈ g.nackMap.keys ↔ ∃ m, residue m = k ∧ Waiting start rest m := h.keys
  suffices hafter : (g.updateNacklist (residue n)).lastSeq = residue (max (highest start rest) n) ∧
      ∀ k, k ∈ (g.updateNacklist (residue n)).nackMap.keys ↔
        ∃ m, residue m = k ∧ Waiting start (rest ++ [n]) m from
    ⟨hstarted, by rw [highest_concat, hafter.1], hafter.2⟩
  obtain ⟨heq, hg⟩ | ⟨hlt, hlast, hkeys⟩ | ⟨hgt, hlast, hkeys⟩ := hcases
  · -- a packet that has arrived twice
    refine ⟨by rw [hg, h.lastSeq, heq, max_self], fun k => ?_⟩
    simp only [hg, hbefore, waiting_concat_same heq]
  · -- a packet that comes late
    refine ⟨by rw [hlast, h.lastSeq, max_eq_left hlt.le], fun k => ?_⟩
    simp only [hkeys, hbefore, waiting_concat_late hlt]
    constructor
    · rintro ⟨⟨m, rfl, hwaiting⟩, hne⟩
      exact ⟨m, rfl, hwaiting, fun heq => hne (by rw [heq])⟩
    · rintro ⟨m, rfl, hwaiting, hne⟩
      refine ⟨⟨m, rfl, hwaiting⟩, ?_⟩
      rw [ne_eq, residue_eq_iff]
      obtain ⟨hlow, hhigh, -⟩ := hwaiting
      obtain ⟨h₁, h₂⟩ := htop
      obtain ⟨h₃, h₄⟩ := hstart
      omega
  · -- a packet that is newer than all before
    refine ⟨by rw [hlast, max_eq_right hgt.le], fun k => ?_⟩
    rw [hkeys, hbefore, mem_keySeqs_residue hgt htop, ← exists_or]
    refine exists_congr fun m => ?_
    rw [waiting_concat_newer hgt, and_or_left]

/-- The state after any packets whose unwrapped numbers lie near each other. -/
theorem tracks_run {start : Int} {rest : List Int} (hnear : (start :: rest).Pairwise Near) :
    Tracks start rest (run {} ((start :: rest).map residue)) := by
  induction rest using List.reverseRecOn with
  | nil => exact tracks_start start
  | append_singleton rest n ih =>
    have hbefore : (start :: rest).Pairwise Near := by
      rw [← List.cons_append, List.pairwise_append] at hnear
      exact hnear.1
    have hstep := tracks_step (ih hbefore) hnear
    rw [← List.cons_append, List.map_append, run, List.foldl_append]
    exact hstep

/-! ## The missing packets -/

/-- Numbers in one cycle leave nothing out. -/
theorem not_leapt_of_small {top : Int} {rest : List Int} (htop : 0 ≤ top ∧ top < 65536)
    (hsmall : ∀ n ∈ rest, n < 65536) {m : Int} : ¬ Leapt top rest m := by
  induction rest generalizing top with
  | nil => exact id
  | cons n rest ih =>
    have hn := hsmall n (by simp)
    rintro (⟨hlow, hhigh, hleap⟩ | h)
    · rw [Leap] at hleap
      omega
    · exact ih (by omega) (fun x hx => hsmall x (List.mem_cons_of_mem _ hx)) h

/-- The residue of a number of 16 bits is this number. -/
@[simp] theorem residue_toNat (s : UInt16) : residue s.toNat = s := by
  have hres := toNat_residue s.toNat
  have hs := s.toNat_lt
  rw [← UInt16.toNat_inj]
  omega

/-- **No wrap.**  After any packets whose numbers lie within half a cycle,
`last_seq_` is the largest number, and the map has the numbers between the first
and the largest that have not arrived. -/
theorem nack_keys_within_cycle (s₀ : UInt16) (rest : List UInt16)
    (hnear : (s₀ :: rest).Pairwise fun s t => Near s.toNat t.toNat) :
    ((run {} (s₀ :: rest)).lastSeq ∈ s₀ :: rest ∧
      ∀ s ∈ s₀ :: rest, s ≤ (run {} (s₀ :: rest)).lastSeq) ∧
    ∀ k, k ∈ (run {} (s₀ :: rest)).nackMap.keys ↔
      s₀ < k ∧ k < (run {} (s₀ :: rest)).lastSeq ∧ k ∉ s₀ :: rest := by
  -- the numbers are their own unwrapped numbers
  set ns : List Int := rest.map fun s => (s.toNat : Int)
  have hmap : (s₀ :: rest).map (fun s => (s.toNat : Int)) =
      (s₀.toNat : Int) :: ns := rfl
  have hback : ((s₀.toNat : Int) :: ns).map residue = s₀ :: rest := by
    rw [← hmap, List.map_map]
    exact (List.map_congr_left fun s _ => residue_toNat s).trans (List.map_id _)
  have htracks : Tracks s₀.toNat ns (run {} (((s₀.toNat : Int) :: ns).map residue)) := tracks_run (by
    rw [← hmap]
    exact List.pairwise_map.mpr hnear)
  rw [hback] at htracks
  obtain ⟨last, hlast, htop⟩ : ∃ s ∈ s₀ :: rest, (s.toNat : Int) = highest s₀.toNat ns :=
    List.mem_map.mp (hmap ▸ highest_mem s₀.toNat ns)
  have hlastSeq : (run {} (s₀ :: rest)).lastSeq = last := by
    rw [htracks.lastSeq, ← htop, residue_toNat]
  have hleapt : ∀ m, ¬ Leapt s₀.toNat ns m := by
    have hs₀ := s₀.toNat_lt
    refine fun m => not_leapt_of_small (by omega) fun n hn => ?_
    obtain ⟨s, -, rfl⟩ := List.mem_map.mp hn
    have hs := s.toNat_lt
    omega
  rw [hlastSeq]
  refine ⟨⟨hlast, fun s hs => ?_⟩, fun k => ?_⟩
  · have hle := le_highest (hmap ▸ List.mem_map_of_mem hs)
    rw [UInt16.le_iff_toNat_le]
    omega
  · rw [htracks.keys, ← htop]
    constructor
    · rintro ⟨m, rfl, hlow, hhigh, hnew, -⟩
      have hbound := last.toNat_lt
      have hres := toNat_residue m
      have hm : ((residue m).toNat : Int) = m := by omega
      rw [UInt16.lt_iff_toNat_lt, UInt16.lt_iff_toNat_lt]
      refine ⟨by omega, by omega, fun hmem => hnew ?_⟩
      rw [← hmap, ← hm]
      exact List.mem_map_of_mem hmem
    · rintro ⟨hlow, hhigh, hnew⟩
      rw [UInt16.lt_iff_toNat_lt] at hlow hhigh
      refine ⟨k.toNat, residue_toNat k, by omega, by omega, fun hmem => hnew ?_, hleapt _⟩
      rw [← hmap] at hmem
      obtain ⟨s, hs, heq⟩ := List.mem_map.mp hmem
      have hsame : s = k := UInt16.toNat_inj.mp (by omega)
      exact hsame ▸ hs

/-- Packets in disorder, one of them older than the first. -/
theorem nack_keys_within_cycle_disorder :
    (run {} [10, 14, 12, 9]).lastSeq = 14 ∧
      (∀ k, k ∈ (run {} [10, 14, 12, 9]).nackMap.keys ↔
        10 < k ∧ k < (run {} [10, 14, 12, 9]).lastSeq ∧ k ∉ [10, 14, 12, 9]) ∧
      (run {} [10, 14, 12, 9]).nackMap.keys = [11, 13] :=
  ⟨by decide +kernel, (nack_keys_within_cycle 10 [14, 12, 9] (by decide)).2, by decide +kernel⟩

/-- **Across the wrap.**  The map has exactly the missing numbers if and only if
every number that was left out by a leap has arrived since. -/
theorem nack_keys_across_wrap_iff {start : Int} {rest : List Int}
    (hnear : (start :: rest).Pairwise Near) :
    (∀ k, k ∈ (run {} ((start :: rest).map residue)).nackMap.keys ↔
      ∃ m, residue m = k ∧ start < m ∧ m < highest start rest ∧ m ∉ start :: rest) ↔
    ∀ m, Leapt start rest m → m ∈ start :: rest := by
  have hkeys := (tracks_run hnear).keys
  have hwidth := highest_sub_start_le hnear
  constructor
  · intro hexact m hleapt
    by_contra hnew
    have hbounds := hleapt.bounds
    -- the number ought to have an entry, and only it could have put it there
    obtain ⟨m', hsame, hlow, hhigh, -, hnot⟩ :=
      (hkeys _).mp ((hexact (residue m)).mpr ⟨m, rfl, hbounds.1, hbounds.2, hnew⟩)
    have heq : m' = m := by
      rw [residue_eq_iff] at hsame
      omega
    exact hnot (heq ▸ hleapt)
  · intro hback k
    rw [hkeys]
    refine exists_congr fun m => ?_
    constructor
    · rintro ⟨hm, hlow, hhigh, hnew, -⟩
      exact ⟨hm, hlow, hhigh, hnew⟩
    · rintro ⟨hm, hlow, hhigh, hnew⟩
      exact ⟨hm, hlow, hhigh, hnew, fun hleapt => hnew (hback m hleapt)⟩

/-- A loss that begins right at the wrap. -/
theorem nack_keys_across_wrap_at_zero :
    [(65535 : Int), 65538].Pairwise Near ∧
      ∀ k, k ∈ (run {} ([65535, 65538].map residue)).nackMap.keys ↔
        ∃ m, residue m = k ∧ (65535 : Int) < m ∧ m < highest 65535 [65538] ∧
          m ∉ [(65535 : Int), 65538] := by
  refine ⟨by decide, (nack_keys_across_wrap_iff (by decide)).mpr ?_⟩
  intro m h
  rcases h with ⟨-, -, hleap⟩ | h
  · exact absurd hleap (by simp [Leap])
  · cases h

/-- The packets 65535 and 0 are lost, and the map has neither. -/
theorem nack_keys_across_wrap_lost :
    [(65534 : Int), 65537].Pairwise Near ∧
      ¬ ∀ k, k ∈ (run {} ([65534, 65537].map residue)).nackMap.keys ↔
        ∃ m, residue m = k ∧ (65534 : Int) < m ∧ m < highest 65534 [65537] ∧
          m ∉ [(65534 : Int), 65537] := by
  refine ⟨by decide, fun h => ?_⟩
  have hmem := (h 65535).mpr ⟨65535, by decide, by decide, by decide, by decide⟩
  exact absurd hmem (by decide +kernel)

end NackGenerator

end MediaServer
