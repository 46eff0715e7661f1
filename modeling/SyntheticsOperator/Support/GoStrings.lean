import Mathlib.Algebra.Group.Nat.Defs
import Mathlib.Data.List.DropRight

/-!
# Go strings

A Go string is a sequence of bytes, valid UTF-8 or not.  This module holds the
functions of `strings` and `strconv` that the heartbeat receiver calls on text
it did not write itself.
-/

namespace SyntheticsOperator.Support

abbrev GoString := List UInt8

namespace GoString

def lit (s : String) : GoString := s.toUTF8.data.toList

/-- `strings.Trim` with a one-byte cutset. -/
def trim (c : UInt8) (s : GoString) : GoString :=
  (s.dropWhile (· == c)).rdropWhile (· == c)

/-- `strings.Split` at a one-byte separator; never empty. -/
def split (sep : UInt8) (s : GoString) : List GoString := s.splitOn sep

/-- The UTF-8 encodings of the runes `unicode.IsSpace` accepts. -/
def spaces : List GoString :=
  [[0x09], [0x0A], [0x0B], [0x0C], [0x0D], [0x20], [0xC2, 0x85], [0xC2, 0xA0],
    [0xE1, 0x9A, 0x80], [0xE2, 0x80, 0x80], [0xE2, 0x80, 0x81], [0xE2, 0x80, 0x82],
    [0xE2, 0x80, 0x83], [0xE2, 0x80, 0x84], [0xE2, 0x80, 0x85], [0xE2, 0x80, 0x86],
    [0xE2, 0x80, 0x87], [0xE2, 0x80, 0x88], [0xE2, 0x80, 0x89], [0xE2, 0x80, 0x8A],
    [0xE2, 0x80, 0xA8], [0xE2, 0x80, 0xA9], [0xE2, 0x80, 0xAF], [0xE2, 0x81, 0x9F],
    [0xE3, 0x80, 0x80]]

/-- Drop encodings out of `runes` from the front, at most `fuel` of them. -/
def dropRunes (runes : List GoString) : Nat → GoString → GoString
  | 0, s => s
  | fuel + 1, s =>
      match runes.find? (·.isPrefixOf s) with
      | some rune => dropRunes runes fuel (s.drop rune.length)
      | none => s

def trimSpace (s : GoString) : GoString :=
  let front := dropRunes spaces s.length s
  (dropRunes (spaces.map List.reverse) front.length front.reverse).reverse

/-- `strings.TrimSuffix` with a one-byte suffix. -/
def trimSuffix (c : UInt8) (s : GoString) : GoString :=
  if s.getLast? = some c then s.dropLast else s

/-- `strings.ToLower` of an ASCII byte. -/
def lowerByte (c : UInt8) : UInt8 := if 65 ≤ c ∧ c ≤ 90 then c + 32 else c

/-- The value of a non-empty string of decimal digits. -/
def decimal (s : GoString) : Option Nat :=
  if s ≠ [] ∧ s.all (fun c => 48 ≤ c && c ≤ 57) then
    some (s.foldl (fun n c => 10 * n + (c.toNat - 48)) 0)
  else none

/-- `strconv.Atoi` on a 64-bit platform; `none` is a syntax or range error. -/
def atoi (s : GoString) : Option Int :=
  match s with
  | 0x2B :: digits => (decimal digits).bind fun n => if n < 2 ^ 63 then some (n : Int) else none
  | 0x2D :: digits => (decimal digits).bind fun n => if n ≤ 2 ^ 63 then some (-n : Int) else none
  | digits => (decimal digits).bind fun n => if n < 2 ^ 63 then some (n : Int) else none

/-- A statement about bytes holds if it holds of the numbers below 256. -/
theorem forall_byte {P : UInt8 → Prop} (h : ∀ n < 256, P (UInt8.ofNat n)) (c : UInt8) : P c := by
  have hc := h c.toNat c.toNat_lt
  rwa [UInt8.ofNat_toNat] at hc

theorem dropRunes_eq_self {runes : List GoString} {s : GoString}
    (h : ∀ rune ∈ runes, ¬ rune <+: s) (fuel : Nat) :
    dropRunes runes fuel s = s := by
  cases fuel with
  | zero => rfl
  | succ fuel =>
      have hnone : runes.find? (·.isPrefixOf s) = none := by
        rw [List.find?_eq_none]
        intro rune hrune
        simpa using h rune hrune
      rw [dropRunes, hnone]

/-- Printable ASCII other than the blank. -/
def Plain (s : GoString) : Prop := ∀ c ∈ s, 0x20 < c ∧ c < 0x80

theorem trimSpace_eq_self {s : GoString} (h : Plain s) : trimSpace s = s := by
  have hbyte : ∀ rune ∈ spaces, rune ≠ [] ∧ ∀ c ∈ rune, ¬ (0x20 < c ∧ c < 0x80) := by
    decide +kernel
  have hno (runes : List GoString)
      (hrunes : ∀ rune ∈ runes, rune ≠ [] ∧ ∀ c ∈ rune, ¬ (0x20 < c ∧ c < 0x80))
      (t : GoString) (ht : Plain t) :
      ∀ rune ∈ runes, ¬ rune <+: t := by
    intro rune hrune hprefix
    obtain ⟨hne, hout⟩ := hrunes rune hrune
    obtain ⟨c, rest, rfl⟩ := List.exists_cons_of_ne_nil hne
    have hmem : c ∈ t := hprefix.subset (.head _)
    exact hout c (.head _) (ht c hmem)
  have hreversed : ∀ rune ∈ spaces.map List.reverse,
      rune ≠ [] ∧ ∀ c ∈ rune, ¬ (0x20 < c ∧ c < 0x80) := by
    intro rune hrune
    obtain ⟨space, hspace, rfl⟩ := List.mem_map.mp hrune
    obtain ⟨hne, hout⟩ := hbyte space hspace
    exact ⟨by simpa using hne, fun c hc => hout c (List.mem_reverse.mp hc)⟩
  have hs : Plain s.reverse := fun c hc => h c (List.mem_reverse.mp hc)
  rw [trimSpace, dropRunes_eq_self (hno _ hbyte s h)]
  rw [dropRunes_eq_self (hno _ hreversed s.reverse hs), List.reverse_reverse]

/-! ## Integers -/

/-- A decimal integer in the range of `int64`, with or without a sign, and its value. -/
inductive Numeral : GoString → Int → Prop where
  | plain {digits : GoString} {n : Nat} (h : decimal digits = some n) (hn : n < 2 ^ 63) :
      Numeral digits n
  | plus {digits : GoString} {n : Nat} (h : decimal digits = some n) (hn : n < 2 ^ 63) :
      Numeral (0x2B :: digits) n
  | minus {digits : GoString} {n : Nat} (h : decimal digits = some n) (hn : n ≤ 2 ^ 63) :
      Numeral (0x2D :: digits) (-n)

theorem digit_of_mem {s : GoString} {n : Nat} (h : decimal s = some n) :
    ∀ c ∈ s, 48 ≤ c ∧ c ≤ 57 := by
  unfold decimal at h
  split at h
  · rename_i hdigits
    intro c hc
    simpa using List.all_eq_true.mp hdigits.2 c hc
  · cases h

theorem atoi_eq_some_iff {s : GoString} {v : Int} : atoi s = some v ↔ Numeral s v := by
  constructor
  · intro h
    unfold atoi at h
    split at h
    all_goals
      simp only [Option.bind_eq_some_iff, Option.ite_none_right_eq_some, Option.some.injEq] at h
      obtain ⟨n, hn, hrange, rfl⟩ := h
    · exact .plus hn hrange
    · exact .minus hn hrange
    · exact .plain hn hrange
  · intro h
    cases h with
    | plain h hn =>
        have hdigits := digit_of_mem h
        unfold atoi
        split
        · exact absurd (hdigits 0x2B (.head _)) (by decide)
        · exact absurd (hdigits 0x2D (.head _)) (by decide)
        · rw [h, Option.bind_some, if_pos hn]
    | plus h hn => rw [atoi, h, Option.bind_some, if_pos hn]
    | minus h hn => rw [atoi, h, Option.bind_some, if_pos hn]

/-- A numeral is made of digits and a sign. -/
theorem Numeral.not_mem {s : GoString} {v : Int} (h : Numeral s v) {c : UInt8}
    (hdigit : ¬ (48 ≤ c ∧ c ≤ 57)) (hplus : c ≠ 0x2B) (hminus : c ≠ 0x2D) : c ∉ s := by
  intro hc
  cases h with
  | plain h hn => exact hdigit (digit_of_mem h c hc)
  | plus h hn => exact hdigit (digit_of_mem h c ((List.mem_cons.mp hc).resolve_left hplus))
  | minus h hn => exact hdigit (digit_of_mem h c ((List.mem_cons.mp hc).resolve_left hminus))

/-- `strconv.Itoa` of a number that is not negative. -/
def itoa (n : Nat) : GoString := (Nat.toDigits 10 n).map fun c => UInt8.ofNat c.toNat

theorem toNat_ofNat_digit {c : Char} (h : c.isDigit = true) :
    (UInt8.ofNat c.toNat).toNat = c.toNat ∧
      48 ≤ UInt8.ofNat c.toNat ∧ UInt8.ofNat c.toNat ≤ 57 := by
  simp only [Char.isDigit, Bool.and_eq_true, decide_eq_true_eq, ge_iff_le, UInt32.le_iff_toNat_le]
    at h
  have hlow : 48 ≤ c.toNat := h.1
  have hhigh : c.toNat ≤ 57 := h.2
  have heq : (UInt8.ofNat c.toNat).toNat = c.toNat := 
    UInt8.toNat_ofNat_of_lt (Nat.lt_of_le_of_lt hhigh (by decide))
  rw [UInt8.le_iff_toNat_le, UInt8.le_iff_toNat_le, heq]
  exact ⟨rfl, hlow, hhigh⟩

theorem decimal_itoa (n : Nat) : decimal (itoa n) = some n := by
  have hdigit : ∀ c ∈ Nat.toDigits 10 n, c.isDigit = true :=
    fun c hc => Nat.isDigit_of_mem_toDigits (by decide) (by decide) hc
  have hall : (itoa n).all (fun c => 48 ≤ c && c ≤ 57) = true := by
    rw [List.all_eq_true]
    intro b hb
    obtain ⟨c, hc, rfl⟩ := List.mem_map.mp hb
    simpa using (toNat_ofNat_digit (hdigit c hc)).2
  have hne : itoa n ≠ [] := fun h => Nat.toDigits_ne_nil (List.map_eq_nil_iff.mp h)
  rw [decimal, if_pos ⟨hne, hall⟩, itoa, List.foldl_map]
  calc _ = some (Nat.ofDigitChars 10 (Nat.toDigits 10 n) 0) := by
        congr 1
        apply List.foldl_ext
        intro sum c hc
        rw [(toNat_ofNat_digit (hdigit c hc)).1]
        rfl
    _ = some n := by rw [Nat.ofDigitChars_ten_toDigits]

end GoString

end SyntheticsOperator.Support
