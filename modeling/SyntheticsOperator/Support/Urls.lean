import SyntheticsOperator.Support.GoStrings

/-!
# URLs

The parts of `net/url` that render a path segment and read the path of an absolute
URL back.  `urlPath_origin` is the round trip.
-/

namespace SyntheticsOperator.Support.Urls

/-! ## Percent encoding -/

def hexDigit (n : UInt8) : UInt8 := if n < 10 then 48 + n else 55 + n

def unhex (c : UInt8) : Option UInt8 :=
  if 48 ≤ c ∧ c ≤ 57 then some (c - 48)
  else if 97 ≤ c ∧ c ≤ 102 then some (c - 87)
  else if 65 ≤ c ∧ c ≤ 70 then some (c - 55)
  else none

/-- What `PathEscape` leaves alone: unreserved characters and `$ & + : = @`. -/
def plainInSegment (c : UInt8) : Bool :=
  (97 ≤ c && c ≤ 122) || (65 ≤ c && c ≤ 90) || (48 ≤ c && c ≤ 57) ||
    [0x2D, 0x5F, 0x2E, 0x7E, 0x24, 0x26, 0x2B, 0x3A, 0x3D, 0x40].contains c

def escapeByte (c : UInt8) : GoString :=
  if plainInSegment c then [c] else [0x25, hexDigit (c / 16), hexDigit (c % 16)]

def pathEscape (s : GoString) : GoString := s.flatMap escapeByte

/-- `url.PathUnescape`; `none` is an error. -/
def pathUnescape : GoString → Option GoString
  | [] => some []
  | 0x25 :: high :: low :: rest =>
      (unhex high).bind fun h => (unhex low).bind fun l =>
        (pathUnescape rest).map fun s => (16 * h + l) :: s
  | [0x25] => none
  | [0x25, _] => none
  | c :: rest => (pathUnescape rest).map fun s => c :: s

/-! ## The path of a URL -/

/-- The decoded path of an absolute URL `scheme:rest`: the fragment, the query and,
after `//`, the authority are cut off. -/
def urlPath (url : GoString) : Option GoString :=
  let noFragment := url.takeWhile (· ≠ 0x23)
  let afterScheme := (noFragment.dropWhile (· ≠ 0x3A)).drop 1
  let noQuery := afterScheme.takeWhile (· ≠ 0x3F)
  match noQuery with
  | 0x2F :: 0x2F :: rest => pathUnescape (rest.dropWhile (· ≠ 0x2F))
  | path => pathUnescape path

/-- `scheme://authority` and nothing behind it. -/
def IsOrigin (url : GoString) : Prop :=
  ∃ scheme authority : GoString, url = scheme ++ [0x3A, 0x2F, 0x2F] ++ authority ∧
    (∀ c ∈ scheme, c ≠ 0x3A ∧ c ≠ 0x23) ∧
    ∀ c ∈ authority, c ≠ 0x2F ∧ c ≠ 0x3F ∧ c ≠ 0x23

theorem unescape_escapeByte (c : UInt8) (rest : GoString) :
    pathUnescape (escapeByte c ++ rest) = (pathUnescape rest).map fun s => c :: s := by
  have hhex : ∀ c : UInt8, plainInSegment c = false →
      unhex (hexDigit (c / 16)) = some (c / 16) ∧ unhex (hexDigit (c % 16)) = some (c % 16) ∧
        16 * (c / 16) + c % 16 = c :=
    GoString.forall_byte (by decide +kernel)
  have hplain : ∀ c : UInt8, plainInSegment c = true → c ≠ 0x25 :=
    GoString.forall_byte (by decide +kernel)
  rw [escapeByte]
  split
  · rename_i h
    have hne := hplain c h
    rw [List.singleton_append, pathUnescape]
    · intro _ _ _ h'
      exact absurd h' hne
    · intro h'
      exact absurd h' hne
    · intro _ h'
      exact absurd h' hne
  · rename_i h
    obtain ⟨hhigh, hlow, hsum⟩ := hhex c (by simpa using h)
    simp only [List.cons_append, List.nil_append, pathUnescape, hhigh, hlow, Option.bind_some, hsum]

/-- Every byte string survives escaping. -/
theorem unescape_escape (s : GoString) : pathUnescape (pathEscape s) = some s := by
  induction s with
  | nil => rfl
  | cons c s ih =>
      rw [pathEscape, List.flatMap_cons, unescape_escapeByte]
      rw [pathEscape] at ih
      rw [ih]
      rfl

/-- An escaped segment holds nothing that ends a path. -/
theorem not_mem_pathEscape (s : GoString) : 0x23 ∉ pathEscape s ∧ 0x3F ∉ pathEscape s := by
  have hbyte : ∀ c : UInt8, 0x23 ∉ escapeByte c ∧ 0x3F ∉ escapeByte c :=
    GoString.forall_byte (by decide +kernel)
  constructor
  · intro h
    obtain ⟨c, -, hc⟩ := List.mem_flatMap.mp h
    exact (hbyte c).1 hc
  · intro h
    obtain ⟨c, -, hc⟩ := List.mem_flatMap.mp h
    exact (hbyte c).2 hc

theorem takeWhile_ne_eq_self {c : UInt8} {s : GoString} (h : c ∉ s) :
    s.takeWhile (· ≠ c) = s := by
  rw [List.takeWhile_eq_self_iff]
  intro b hb
  have hne : b ≠ c := fun heq => h (heq ▸ hb)
  simpa using hne

theorem dropWhile_ne_append {c : UInt8} {s : GoString} (rest : GoString) (h : c ∉ s) :
    (s ++ c :: rest).dropWhile (· ≠ c) = c :: rest := by
  rw [List.dropWhile_append_of_pos]
  · simp
  · intro b hb
    have hne : b ≠ c := fun heq => h (heq ▸ hb)
    simpa using hne

/-- A segment rendered below an origin is read back as it was. -/
theorem urlPath_origin {origin : GoString} (h : IsOrigin origin) (s : GoString) :
    urlPath (origin ++ 0x2F :: pathEscape s) = some (0x2F :: s) := by
  obtain ⟨scheme, authority, rfl, hscheme, hauthority⟩ := h
  obtain ⟨hhash, hquery⟩ := not_mem_pathEscape s
  have hschemeColon : (0x3A : UInt8) ∉ scheme := fun hmem => (hscheme _ hmem).1 rfl
  have hschemeHash : (0x23 : UInt8) ∉ scheme := fun hmem => (hscheme _ hmem).2 rfl
  have hauthoritySlash : (0x2F : UInt8) ∉ authority := fun hmem => (hauthority _ hmem).1 rfl
  have hauthorityQuery : (0x3F : UInt8) ∉ authority := fun hmem => (hauthority _ hmem).2.1 rfl
  have hauthorityHash : (0x23 : UInt8) ∉ authority := fun hmem => (hauthority _ hmem).2.2 rfl
  have hurl : scheme ++ [0x3A, 0x2F, 0x2F] ++ authority ++ 0x2F :: pathEscape s =
      scheme ++ 0x3A :: (0x2F :: 0x2F :: (authority ++ 0x2F :: pathEscape s)) := by
    simp
  have hfragment : (0x23 : UInt8) ∉
      scheme ++ 0x3A :: (0x2F :: 0x2F :: (authority ++ 0x2F :: pathEscape s)) := by
    simp [hschemeHash, hauthorityHash, hhash]
  have hquestion : (0x3F : UInt8) ∉ 0x2F :: 0x2F :: (authority ++ 0x2F :: pathEscape s) := by
    simp [hauthorityQuery, hquery]
  rw [hurl, urlPath]
  simp only [takeWhile_ne_eq_self hfragment, dropWhile_ne_append _ hschemeColon, List.drop_one,
    List.tail_cons, takeWhile_ne_eq_self hquestion, dropWhile_ne_append _ hauthoritySlash]
  rw [pathUnescape, unescape_escape]
  · rfl
  · intro _ _ _ heq
    cases heq
  · intro heq
    cases heq
  · intro _ heq
    cases heq

end SyntheticsOperator.Support.Urls
