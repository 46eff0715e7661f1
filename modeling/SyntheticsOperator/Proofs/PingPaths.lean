import SyntheticsOperator.Heartbeat.Receiver
import SyntheticsOperator.Support.Texts

/-!
# Paths of pings

What the receiver takes for a ping, as a relation between a path without its outer slashes,
a token and an outcome.  `parsePath` is that relation, so a path is read back as what it
was rendered from, for a token from any source and in particular for a minted one.
-/

namespace SyntheticsOperator.Proofs.PingPaths

open SyntheticsOperator.Heartbeat
open SyntheticsOperator.Support
open SyntheticsOperator.Support.GoString (Numeral)

/-- The path of a token says this about the run. -/
inductive Reads (token : GoString) : GoString → Outcome → Prop where
  | bare : Reads token token ⟨false, 0⟩
  | fail : Reads token (token ++ 0x2F :: failSuffix) ⟨true, 0⟩
  | code {digits : GoString} {v : Int} (h : Numeral digits v) (hv : 0 ≤ v) :
      Reads token (token ++ 0x2F :: digits) ⟨v ≠ 0, v⟩

theorem slash_not_mem {token : GoString} (h : acceptableToken token = none) :
    0x2F ∉ token := by
  intro hmem
  exact absurd (((acceptableToken_eq_none_iff token).mp h).2 _ hmem) (by decide)

theorem token_ne_nil {token : GoString} (h : acceptableToken token = none) : token ≠ [] := by
  rintro rfl
  exact absurd h (by decide)

theorem split_token {token : GoString} (h : acceptableToken token = none) :
    GoString.split 0x2F token = [token] :=
  List.splitOn_eq_singleton (slash_not_mem h)

theorem split_suffix {token suffix : GoString} (h : acceptableToken token = none)
    (hsuffix : 0x2F ∉ suffix) :
    GoString.split 0x2F (token ++ 0x2F :: suffix) = [token, suffix] := by
  rw [GoString.split, List.splitOn_append_cons_self_of_not_mem (slash_not_mem h),
    List.splitOn_eq_singleton hsuffix]

theorem not_numeral_fail {v : Int} : ¬ Numeral failSuffix v := by
  rw [← GoString.atoi_eq_some_iff]
  intro h
  exact absurd (h.symm.trans (by decide : GoString.atoi failSuffix = none)) (by simp)

/-- The segments of a path that is accepted. -/
theorem segments_of_parsePath {path token : GoString} {outcome : Outcome}
    (h : parsePath path = some (token, outcome)) :
    acceptableToken token = none ∧
      ((GoString.split 0x2F (GoString.trim 0x2F path) = [token] ∧ outcome = ⟨false, 0⟩) ∨
        ∃ suffix, GoString.split 0x2F (GoString.trim 0x2F path) = [token, suffix] ∧
          ((suffix = failSuffix ∧ outcome = ⟨true, 0⟩) ∨
            ∃ code, GoString.atoi suffix = some code ∧ 0 ≤ code ∧
              outcome = ⟨code ≠ 0, code⟩)) := by
  unfold parsePath at h
  generalize GoString.split 0x2F (GoString.trim 0x2F path) = segments at h ⊢
  match segments with
  | [] => cases h
  | first :: suffixes =>
      dsimp only at h
      split at h
      · cases h
      split at h
      · cases h
      rename_i hacceptable
      rw [not_not] at hacceptable
      match suffixes with
      | [] =>
          cases h
          exact ⟨hacceptable, .inl ⟨rfl, rfl⟩⟩
      | [suffix] =>
          dsimp only at h
          split at h
          · rename_i hfail
            cases h
            exact ⟨hacceptable, .inr ⟨suffix, rfl, .inl ⟨hfail, rfl⟩⟩⟩
          split at h
          · cases h
          rename_i code hcode
          split at h
          · cases h
          rename_i hneg
          cases h
          exact ⟨hacceptable, .inr ⟨suffix, rfl, .inr ⟨code, hcode, by omega, rfl⟩⟩⟩
      | _ :: _ :: _ => cases h

theorem acceptable_of_parsePath {path token : GoString} {outcome : Outcome}
    (h : parsePath path = some (token, outcome)) : acceptableToken token = none :=
  (segments_of_parsePath h).1

/-- `parsePath` accepts a path that reads as an acceptable token with an outcome, and no
other. -/
theorem parsePath_eq_some_iff (path token : GoString) (outcome : Outcome) :
    parsePath path = some (token, outcome) ↔
      acceptableToken token = none ∧ Reads token (GoString.trim 0x2F path) outcome := by
  constructor
  · intro h
    obtain ⟨hacceptable, hsegments⟩ := segments_of_parsePath h
    -- the segments joined by slashes are the path again
    have hjoin : [0x2F].intercalate (GoString.split 0x2F (GoString.trim 0x2F path)) =
        GoString.trim 0x2F path := List.intercalate_splitOn 0x2F
    refine ⟨hacceptable, ?_⟩
    rw [← hjoin]
    rcases hsegments with ⟨hsplit, houtcome⟩ | ⟨suffix, hsplit, hsuffix⟩
    · rw [hsplit, houtcome, List.intercalate_singleton]
      exact .bare
    · rw [hsplit, List.intercalate_cons_cons, List.intercalate_singleton, List.append_assoc,
        List.singleton_append]
      rcases hsuffix with ⟨hfail, houtcome⟩ | ⟨code, hcode, hnonneg, houtcome⟩
      · rw [hfail, houtcome]
        exact .fail
      · rw [houtcome]
        exact .code (GoString.atoi_eq_some_iff.mp hcode) hnonneg
  · rintro ⟨hacceptable, hreads⟩
    have hne := token_ne_nil hacceptable
    unfold parsePath
    generalize GoString.trim 0x2F path = s at hreads ⊢
    cases hreads with
    | bare => simp [split_token hacceptable, hne, hacceptable]
    | fail =>
        rw [split_suffix hacceptable (by decide)]
        simp [hne, hacceptable]
    | code h hv =>
        rename_i digits v
        have hslash : 0x2F ∉ digits := h.not_mem (by decide) (by decide) (by decide)
        have hfail : digits ≠ failSuffix := by
          rintro rfl
          exact not_numeral_fail h
        rw [split_suffix hacceptable hslash]
        simp [hne, hacceptable, hfail, GoString.atoi_eq_some_iff.mpr h, Int.not_lt.mpr hv]

/-! ## Rendered paths -/

/-- A trailing slash, or none. -/
def Slash (slash : GoString) : Prop := slash = [] ∨ slash = [0x2F]

/-- The slashes around a path that neither starts nor ends with one are trimmed. -/
theorem trim_rendered {core slash : GoString} (hhead : ∀ c ∈ core.head?, c ≠ 0x2F)
    (hlast : ∀ c ∈ core.getLast?, c ≠ 0x2F) (hslash : Slash slash) :
    GoString.trim 0x2F (0x2F :: core ++ slash) = core := by
  have hright : ∀ c ∈ slash, (c == 0x2F) = true := by
    rcases hslash with rfl | rfl
    · exact fun c hc => nomatch hc
    · exact fun c hc => beq_iff_eq.mpr (List.mem_singleton.mp hc)
  have hleft : ∀ c ∈ [(0x2F : UInt8)], (c == 0x2F) = true :=
    fun c hc => beq_iff_eq.mpr (List.mem_singleton.mp hc)
  apply Texts.trim_append hleft hright
  · exact fun c hc => beq_eq_false_iff_ne.mpr (hhead c hc)
  · exact fun c hc => beq_eq_false_iff_ne.mpr (hlast c hc)

section Rendered

variable {token slash : GoString} (htoken : acceptableToken token = none) (hslash : Slash slash)

include htoken hslash

theorem parsePath_bare : parsePath (0x2F :: token ++ slash) = some (token, ⟨false, 0⟩) := by
  have hne : ∀ c ∈ token, c ≠ 0x2F := fun c hc heq => slash_not_mem htoken (heq ▸ hc)
  rw [parsePath_eq_some_iff, trim_rendered _ _ hslash]
  · exact ⟨htoken, .bare⟩
  · exact fun c hc => hne c (List.mem_of_mem_head? hc)
  · exact fun c hc => hne c (List.mem_of_mem_getLast? hc)

omit hslash in
/-- An acceptable token is a path segment that nothing is trimmed from. -/
theorem parsePath_segment : parsePath (0x2F :: token) = some (token, ⟨false, 0⟩) := by
  have hbare := parsePath_bare htoken (.inl rfl)
  rwa [List.append_nil] at hbare

/-- With a suffix that has no slash. -/
theorem parsePath_suffix {suffix : GoString} (hsuffix : suffix ≠ []) (hfree : 0x2F ∉ suffix)
    {outcome : Outcome} (hreads : Reads token (token ++ 0x2F :: suffix) outcome) :
    parsePath (0x2F :: (token ++ 0x2F :: suffix) ++ slash) = some (token, outcome) := by
  rw [parsePath_eq_some_iff, trim_rendered _ _ hslash]
  · exact ⟨htoken, hreads⟩
  · intro c hc heq
    rw [List.head?_append_of_ne_nil _ (token_ne_nil htoken)] at hc
    exact slash_not_mem htoken (heq ▸ List.mem_of_mem_head? hc)
  · intro c hc heq
    rw [List.append_cons, List.getLast?_append_of_ne_nil _ hsuffix] at hc
    exact hfree (heq ▸ List.mem_of_mem_getLast? hc)

theorem parsePath_fail :
    parsePath (0x2F :: (token ++ 0x2F :: failSuffix) ++ slash) = some (token, ⟨true, 0⟩) :=
  parsePath_suffix htoken hslash (by decide) (by decide) .fail

theorem parsePath_code {n : Nat} (hn : n < 2 ^ 63) :
    parsePath (0x2F :: (token ++ 0x2F :: GoString.itoa n) ++ slash) =
      some (token, ⟨(n : Int) ≠ 0, n⟩) := by
  have hnumeral : Numeral (GoString.itoa n) n := .plain (GoString.decimal_itoa n) hn
  apply parsePath_suffix htoken hslash
  · intro hnil
    have hdecimal := GoString.decimal_itoa n
    rw [hnil] at hdecimal
    cases hdecimal
  · exact hnumeral.not_mem (by decide) (by decide) (by decide)
  · exact .code hnumeral (by omega)

end Rendered

/-- Paths parse to what they were rendered from: `parsePath` accepts exactly the paths that
read as a token with an outcome; minted tokens have the generated shape, are acceptable
and differ with their buffers; and for every acceptable token the three paths come back,
with or without a trailing slash. -/
theorem ping_paths :
    (∀ path token outcome, parsePath path = some (token, outcome) ↔
      acceptableToken token = none ∧ Reads token (GoString.trim 0x2F path) outcome) ∧
    (∀ buf, validToken (newToken buf) = true ∧ acceptableToken (newToken buf) = none) ∧
    (∀ buf buf', buf ≠ buf' → newToken buf ≠ newToken buf') ∧
    ∀ token slash, acceptableToken token = none → Slash slash →
      parsePath (0x2F :: token ++ slash) = some (token, ⟨false, 0⟩) ∧
      parsePath (0x2F :: (token ++ 0x2F :: failSuffix) ++ slash) = some (token, ⟨true, 0⟩) ∧
      ∀ n : Nat, n ≤ 2 ^ 63 - 1 →
        parsePath (0x2F :: (token ++ 0x2F :: GoString.itoa n) ++ slash) =
          some (token, ⟨(n : Int) ≠ 0, n⟩) := by
  refine ⟨parsePath_eq_some_iff, ?_, ?_, ?_⟩
  · exact fun buf => ⟨validToken_newToken buf, acceptableToken_newToken buf⟩
  · exact fun buf buf' hne h => hne (newToken_injective h)
  · intro token slash htoken hslash
    refine ⟨parsePath_bare htoken hslash, parsePath_fail htoken hslash, fun n hn => ?_⟩
    exact parsePath_code htoken hslash (by omega)

end SyntheticsOperator.Proofs.PingPaths
