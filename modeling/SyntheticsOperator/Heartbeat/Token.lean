import SyntheticsOperator.Support.Base32

/-!
# Heartbeat tokens

How a token is minted, and the check every token has to pass, whether generated or
supplied by a user.
-/

namespace SyntheticsOperator.Heartbeat

open SyntheticsOperator.Support

def tokenPrefix : GoString := GoString.lit "hb_"

def tokenEntropyBytes : Nat := 20

/-- `NewToken`, given what `rand.Read` put into its buffer. -/
def newToken (buf : Vector UInt8 tokenEntropyBytes) : GoString :=
  tokenPrefix ++ (Base32.encode buf.toList).map GoString.lowerByte

/-- `tokenRe`, `^hb_[a-z2-7]{32}$`. -/
def validToken (s : GoString) : Bool :=
  tokenPrefix.isPrefixOf s && (s.drop tokenPrefix.length).length == 32 &&
    (s.drop tokenPrefix.length).all fun c => (97 ≤ c && c ≤ 122) || (50 ≤ c && c ≤ 55)

def minAcceptableTokenLength : Nat := 16

/-- Why a token is refused. -/
inductive TokenError where
  /-- token must be at least 16 characters -/
  | tooShort
  /-- token contains a rune that is not an unreserved URL character; `rest` is
  the token from that rune on -/
  | contains (rest : GoString)
deriving DecidableEq

/-- The text of the error; `quoteRune` is `%q` of the first rune. -/
def TokenError.text (quoteRune : GoString → String) : TokenError → String
  | tooShort => "token must be at least " ++ toString minAcceptableTokenLength ++ " characters"
  | contains rest => "token contains " ++ quoteRune rest ++
      "; only unreserved URL characters (A-Z a-z 0-9 - _ . ~) are allowed"

/-- `A-Z a-z 0-9 - _ . ~` -/
def unreserved (c : UInt8) : Bool :=
  (97 ≤ c && c ≤ 122) || (65 ≤ c && c ≤ 90) || (48 ≤ c && c ≤ 57) ||
    c == 0x2D || c == 0x5F || c == 0x2E || c == 0x7E

/-- `none` is a nil error.  The accepted runes are single bytes, and a byte from
0x80 on is part of a rune that is not accepted, so the loop over the runes
stops at the first byte that is not `unreserved`. -/
def acceptableToken (s : GoString) : Option TokenError :=
  if s.length < minAcceptableTokenLength then some .tooShort
  else
    match s.dropWhile unreserved with
    | [] => none
    | rest => some (.contains rest)

/-! ## What is accepted -/

theorem acceptableToken_eq_none_iff (s : GoString) :
    acceptableToken s = none ↔
      minAcceptableTokenLength ≤ s.length ∧ ∀ c ∈ s, unreserved c = true := by
  unfold acceptableToken
  split
  · rename_i hshort
    refine iff_of_false (by simp) ?_
    rintro ⟨hlong, -⟩
    omega
  · rename_i hlong
    split
    · rename_i hnil
      refine iff_of_true rfl ⟨by omega, ?_⟩
      exact List.dropWhile_eq_nil_iff.mp hnil
    · rename_i rest hrest
      refine iff_of_false (by simp) ?_
      rintro ⟨-, hall⟩
      exact hrest (List.dropWhile_eq_nil_iff.mpr hall)

theorem unreserved_plain {s : GoString} (h : ∀ c ∈ s, unreserved c = true) :
    GoString.Plain s := by
  have hbyte : ∀ c, unreserved c = true → 0x20 < c ∧ c < 0x80 :=
    GoString.forall_byte (by decide +kernel)
  exact fun c hc => hbyte c (h c hc)

/-! ## Minted tokens -/

theorem length_encode_buf (buf : Vector UInt8 tokenEntropyBytes) :
    (Base32.encode buf.toList).length = 32 :=
  Base32.length_encode 4 Vector.length_toList

/-- The characters after the start are digits of base 32 in lower case. -/
theorem exists_digit_of_mem {buf : Vector UInt8 tokenEntropyBytes} {c : UInt8}
    (h : c ∈ (Base32.encode buf.toList).map GoString.lowerByte) :
    ∃ n < 32, c = GoString.lowerByte (Base32.digit n) := by
  obtain ⟨d, hd, rfl⟩ := List.mem_map.mp h
  obtain ⟨n, hn, rfl⟩ := Base32.exists_digit_of_mem_encode hd
  exact ⟨n, hn, rfl⟩

/-- Every token that is minted is accepted. -/
theorem acceptableToken_newToken (buf : Vector UInt8 tokenEntropyBytes) :
    acceptableToken (newToken buf) = none := by
  have hdigit : ∀ n < 32, unreserved (GoString.lowerByte (Base32.digit n)) = true := by
    decide +kernel
  rw [acceptableToken_eq_none_iff, newToken]
  constructor
  · rw [List.length_append, List.length_map, length_encode_buf]
    decide
  · intro c hc
    rcases List.mem_append.mp hc with hc | hc
    · have hprefix : ∀ c ∈ tokenPrefix, unreserved c = true := by
        decide +kernel
      exact hprefix c hc
    · obtain ⟨n, hn, rfl⟩ := exists_digit_of_mem hc
      exact hdigit n hn

theorem validToken_newToken (buf : Vector UInt8 tokenEntropyBytes) :
    validToken (newToken buf) = true := by
  have hdigit : ∀ n < 32,
      (97 ≤ GoString.lowerByte (Base32.digit n) && GoString.lowerByte (Base32.digit n) ≤ 122 ||
        50 ≤ GoString.lowerByte (Base32.digit n) && GoString.lowerByte (Base32.digit n) ≤ 55) =
      true := by
    decide +kernel
  have hdrop : (newToken buf).drop tokenPrefix.length =
      (Base32.encode buf.toList).map GoString.lowerByte := List.drop_left
  have hprefix : tokenPrefix.isPrefixOf (newToken buf) = true :=
    List.isPrefixOf_iff_prefix.mpr (List.prefix_append _ _)
  rw [validToken, hdrop, hprefix, List.length_map, length_encode_buf, Bool.true_and,
    BEq.rfl, Bool.true_and, List.all_eq_true]
  intro c hc
  obtain ⟨n, hn, rfl⟩ := exists_digit_of_mem hc
  exact hdigit n hn

/-- Different buffers give different tokens. -/
theorem newToken_injective : Function.Injective newToken := by
  intro buf buf' h
  have hcase : ∀ m < 32, ∀ n < 32,
      GoString.lowerByte (Base32.digit m) = GoString.lowerByte (Base32.digit n) → m = n := by
    decide +kernel
  have htail := List.append_cancel_left h
  exact Vector.toList_inj.mp
    (Base32.encode_injective hcase 4 Vector.length_toList Vector.length_toList htail)

end SyntheticsOperator.Heartbeat
