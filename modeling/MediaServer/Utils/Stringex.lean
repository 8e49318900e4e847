import Mathlib.Algebra.Group.Int.Defs
import Mathlib.Data.List.Infix
import Mathlib.Tactic.Common
import MediaServer.Utils.DataBuffer
import MediaServer.Utils.Json

/-!
# Strings

`find`, `substr` and `atoi` on the bytes of a `std::string`, and `string_split` of
`utils/stringex`.  A string that ends with the separator has no empty piece behind it,
so the pieces of `t ++ [sep]` are those that `splitOn` gives for `t`
(`stringSplitAt_concat`).
-/

namespace MediaServer

/-- `find`: the position of the first occurrence. -/
def find (pat : Bytes) : Bytes → Option Nat
  | [] => if pat.isPrefixOf [] then some 0 else none
  | c :: s => if pat.isPrefixOf (c :: s) then some 0 else (find pat s).map (· + 1)

/-- `substr(pos)`.  It throws when the position is behind the end. -/
def substr (s : Bytes) (pos : Nat) : Except Fault Bytes :=
  if pos ≤ s.length then .ok (s.drop pos) else .error .outOfBounds

theorem substr_of_le {s : Bytes} {pos : Nat} (h : pos ≤ s.length) :
    substr s pos = .ok (s.drop pos) := if_pos h

theorem substr_of_lt {s : Bytes} {pos : Nat} (h : s.length < pos) :
    substr s pos = .error .outOfBounds := if_neg (Nat.not_le.mpr h)

/-- The turns of the loop in `string_split`, each of which takes a byte or more. -/
def splitLoop (splitStr : Bytes) : Nat → Bytes → List Bytes
  | 0, _ => []
  | turns + 1, tempString =>
    match find splitStr tempString with
    | none => [tempString]
    | some pos =>
      tempString.take pos ::
        if (tempString.drop (pos + splitStr.length)).length > 0 then
          splitLoop splitStr turns (tempString.drop (pos + splitStr.length))
        else []

/-- The pieces that `string_split` adds to its output.  `stringSplit` is that of a blank
(`stringSplit_eq_at`). -/
def stringSplitAt (inputStr splitStr : Bytes) : List Bytes :=
  if inputStr.length = 0 then [] else splitLoop splitStr inputStr.length inputStr

/-- `c_str()`, as a C string: what is before the first zero. -/
def cStr (s : Bytes) : Bytes := s.takeWhile (· ≠ 0)

/-- `isspace` in the locale of C. -/
def isSpace (c : UInt8) : Bool := c = 32 || (9 ≤ c && c ≤ 13)

/-- `isdigit`. -/
def isDigit (c : UInt8) : Bool := 48 ≤ c && c ≤ 57

/-- `atoi`: blanks, a sign and digits, of which `strtol` makes a `long` that is
converted to `int`. -/
def atoi (s : Bytes) : Int :=
  let s := (cStr s).dropWhile isSpace
  let (negative, s) :=
    match s with
    | 45 :: rest => (true, rest)
    | 43 :: rest => (false, rest)
    | s => (false, s)
  let value : Int := (s.takeWhile isDigit).foldl (fun n c => n * 10 + (c.toNat - 48)) 0
  (max (-2 ^ 63) (min (2 ^ 63 - 1) (if negative then -value else value))).bmod (2 ^ 32)

example : atoi (ascii " -0042x7") = -42 := by decide +kernel

/-! ## Finding -/

section Find

variable {pat s : Bytes} {pos : Nat}

theorem find_eq_some (h : find pat s = some pos) :
    s = s.take pos ++ pat ++ s.drop (pos + pat.length) := by
  induction s generalizing pos with
  | nil =>
    rw [find] at h
    split at h
    · rename_i hpat
      cases h
      simpa using hpat
    · cases h
  | cons c s ih =>
    rw [find] at h
    split at h
    · rename_i hpat
      cases h
      have happend := List.prefix_iff_eq_append.mp (List.isPrefixOf_iff_prefix.mp hpat)
      rw [List.take_zero, List.nil_append, Nat.zero_add, happend]
    · obtain ⟨pos', hfind, rfl⟩ := Option.map_eq_some_iff.mp h
      rw [List.take_succ_cons, Nat.add_right_comm, List.drop_succ_cons, List.cons_append,
        List.cons_append, ← ih hfind]

theorem find_eq_none_iff : find pat s = none ↔ ¬ pat <:+: s := by
  induction s with
  | nil =>
    rw [find, List.infix_nil]
    cases pat with
    | nil => simp
    | cons c pat => simp
  | cons c s ih =>
    rw [find, List.infix_cons_iff, ← List.isPrefixOf_iff_prefix]
    split
    · rename_i hpat
      simp [hpat]
    · rename_i hpat
      rw [Option.map_eq_none_iff, ih]
      simp [hpat]

theorem find_singleton_none {b : UInt8} : find [b] s = none ↔ b ∉ s := by
  rw [find_eq_none_iff, List.singleton_infix_iff]

/-- The first of some bytes has none of them before it. -/
theorem find_singleton_some {b : UInt8} :
    find [b] s = some pos ↔ ∃ key rest, s = key ++ b :: rest ∧ b ∉ key ∧ key.length = pos := by
  induction s generalizing pos with
  | nil =>
    rw [find]
    simp
  | cons c s ih =>
    rw [find]
    by_cases hc : c = b
    · subst hc
      have hpat : ([c] : Bytes).isPrefixOf (c :: s) = true := by simp
      rw [if_pos hpat]
      constructor
      · intro h
        cases h
        exact ⟨[], s, rfl, by simp, rfl⟩
      · rintro ⟨key, rest, heq, hkey, rfl⟩
        cases key with
        | nil => rfl
        | cons k key =>
          cases heq
          exact absurd (List.mem_cons_self) hkey
    · have hpat : ¬ ([b] : Bytes).isPrefixOf (c :: s) = true := by
        simp [Ne.symm hc]
      rw [if_neg hpat, Option.map_eq_some_iff]
      constructor
      · rintro ⟨pos', hfind, rfl⟩
        obtain ⟨key, rest, rfl, hkey, rfl⟩ := ih.mp hfind
        exact ⟨c :: key, rest, rfl, by simp [Ne.symm hc, hkey], rfl⟩
      · rintro ⟨key, rest, heq, hkey, rfl⟩
        cases key with
        | nil =>
          cases heq
          exact absurd rfl hc
        | cons k key =>
          cases heq
          exact ⟨key.length, ih.mpr ⟨key, rest, rfl, fun h => hkey (List.mem_cons_of_mem _ h), rfl⟩,
            rfl⟩

end Find

/-! ## Splitting -/

theorem splitLoop_turns {splitStr : Bytes} (hsplit : splitStr ≠ []) {m n : Nat} {s : Bytes}
    (hm : s.length ≤ m) (hn : s.length ≤ n) (hs : s ≠ []) :
    splitLoop splitStr m s = splitLoop splitStr n s := by
  have hpos := List.length_pos_iff.mpr hsplit
  induction m generalizing n s with
  | zero => exact absurd (List.length_eq_zero_iff.mp (Nat.le_zero.mp hm)) hs
  | succ m ih =>
    cases n with
    | zero => exact absurd (List.length_eq_zero_iff.mp (Nat.le_zero.mp hn)) hs
    | succ n =>
      rw [splitLoop, splitLoop]
      split
      · rfl
      · rename_i pos hfind
        have hlen := List.length_drop (i := pos + splitStr.length) (l := s)
        have hsome := List.length_pos_iff.mpr hs
        congr 1
        split
        · exact ih (by omega) (by omega) (List.length_pos_iff.mp ‹_›)
        · rfl

theorem stringSplitAt_nil (splitStr : Bytes) : stringSplitAt [] splitStr = [] := rfl

/-- One turn. -/
theorem stringSplitAt_eq {splitStr s : Bytes} (hsplit : splitStr ≠ []) (hs : s ≠ []) :
    stringSplitAt s splitStr =
      match find splitStr s with
      | none => [s]
      | some pos => s.take pos :: stringSplitAt (s.drop (pos + splitStr.length)) splitStr := by
  have hpos := List.length_pos_iff.mpr hsplit
  obtain ⟨n, hn⟩ : ∃ n, s.length = n + 1 :=
    ⟨s.length - 1, by have := List.length_pos_iff.mpr hs; omega⟩
  rw [stringSplitAt, if_neg (by omega), hn, splitLoop]
  split
  · rfl
  · rename_i pos hfind
    have hlen := List.length_drop (i := pos + splitStr.length) (l := s)
    congr 1
    rw [stringSplitAt]
    split
    · rw [if_neg (by omega)]
      exact splitLoop_turns hsplit (by omega) (by omega) (List.length_pos_iff.mp ‹_›)
    · rw [if_pos (by omega)]

section Separator

variable {b : UInt8} {s : Bytes}

/-- `splitOn` has one piece more when there is nothing behind the last separator. -/
theorem splitOn_eq_stringSplitAt (b : UInt8) (s : Bytes) :
    s.splitOn b =
      stringSplitAt s [b] ++ if s = [] ∨ s.getLast? = some b then [[]] else [] := by
  induction hn : s.length using Nat.strong_induction_on generalizing s with
  | _ n ih =>
    by_cases hs : s = []
    · subst hs
      simp [stringSplitAt]
    · rw [stringSplitAt_eq (by simp) hs]
      rcases hfind : find [b] s with _ | pos
      · have hmem := find_singleton_none.mp hfind
        have hlast : s.getLast? ≠ some b := fun h => hmem (List.mem_of_getLast? h)
        simp [hs, hlast, List.splitOn_eq_singleton hmem]
      · obtain ⟨key, rest, rfl, hkey, rfl⟩ := find_singleton_some.mp hfind
        have hlen : rest.length < n := by
          rw [← hn, List.length_append, List.length_cons]
          omega
        have hrest : (key ++ b :: rest).drop (key.length + [b].length) = rest := by
          rw [← List.drop_drop, List.drop_left]
          rfl
        have hend : (key ++ b :: rest = [] ∨ (key ++ b :: rest).getLast? = some b) ↔
            (rest = [] ∨ rest.getLast? = some b) := by
          cases rest with
          | nil => simp
          | cons c rest => simp [List.getLast?_cons_cons]
        simp only [hrest, List.take_left, hend]
        rw [List.splitOn_append_cons_self_of_not_mem hkey, ih _ hlen rest rfl, List.cons_append]

/-- A string that does not end with the separator. -/
theorem stringSplitAt_of_getLast? (hs : s ≠ []) (hlast : s.getLast? ≠ some b) :
    stringSplitAt s [b] = s.splitOn b := by
  rw [splitOn_eq_stringSplitAt, if_neg (by simp [hs, hlast]), List.append_nil]

/-- A separator at the end is not seen. -/
theorem stringSplitAt_concat (b : UInt8) (s : Bytes) : stringSplitAt (s ++ [b]) [b] = s.splitOn b := by
  have hall := splitOn_eq_stringSplitAt b (s ++ [b])
  rw [List.splitOn_append_cons_self, List.splitOn_nil, if_pos (by simp)] at hall
  exact (List.append_cancel_right hall).symm

/-- Splitting at blanks, with the piece that has been begun. -/
theorem splitBlanks_eq {part text : Bytes} (hpart : (32 : UInt8) ∉ part) :
    splitBlanks part text = stringSplitAt (part ++ text) [32] := by
  induction text generalizing part with
  | nil =>
    rw [List.append_nil]
    cases part with
    | nil => rfl
    | cons c part =>
      rw [stringSplitAt_eq (by simp) (by simp), find_singleton_none.mpr hpart, splitBlanks]
      simp
  | cons c text ih =>
    rw [splitBlanks]
    by_cases hc : c = 32
    · have hfind : find [32] (part ++ c :: text) = some part.length :=
        find_singleton_some.mpr ⟨part, text, by rw [hc], hpart, rfl⟩
      have hrest : (part ++ c :: text).drop (part.length + [(32 : UInt8)].length) = text := by
        rw [← List.drop_drop, List.drop_left]
        rfl
      rw [if_pos hc, stringSplitAt_eq (by simp) (by simp), hfind]
      simp only [hrest, List.take_left]
      rw [ih (by simp), List.nil_append]
    · have hnext : (32 : UInt8) ∉ part ++ [c] := by
        simp only [List.mem_append, List.mem_singleton, not_or]
        exact ⟨hpart, fun h => hc h.symm⟩
      rw [if_neg hc, ih hnext, List.append_assoc, List.singleton_append]

theorem stringSplit_eq_at (text : Bytes) : stringSplit text = stringSplitAt text [32] :=
  splitBlanks_eq (by simp)

end Separator

end MediaServer
