import Mathlib.Data.List.DropRight
import Mathlib.Data.List.Infix

/-!
# Text

`strings.Cut` and `strings.TrimSpace`, on lists and on strings of Unicode text.
`Surrounds` is the inverse of trimming: what a text looks like that is trimmed to a
given one.
-/

namespace SyntheticsOperator.Support.Texts

/-! ## Cutting at the first occurrence -/

section Cut

variable {α : Type} [DecidableEq α]

/-- What stands before and after the first occurrence of `sep`. -/
def cut (sep : List α) : List α → Option (List α × List α)
  | [] => if sep = [] then some ([], []) else none
  | c :: s =>
      if sep.isPrefixOf (c :: s) then some ([], (c :: s).drop sep.length)
      else (cut sep s).map fun (before, after) => (c :: before, after)

theorem append_of_cut {sep s before after : List α} (h : cut sep s = some (before, after)) :
    s = before ++ sep ++ after := by
  induction s generalizing before after with
  | nil =>
      rw [cut] at h
      split at h
      · rename_i hsep
        cases h
        rw [hsep]
        rfl
      · cases h
  | cons c s ih =>
      rw [cut] at h
      split at h
      · rename_i hprefix
        cases h
        obtain ⟨rest, hrest⟩ := List.isPrefixOf_iff_prefix.mp hprefix
        rw [← hrest, List.drop_left]
        rfl
      · obtain ⟨⟨before', after'⟩, hcut, heq⟩ := Option.map_eq_some_iff.mp h
        cases heq
        rw [ih hcut]
        rfl

theorem cut_eq_none {sep s : List α} (h : ¬ sep <:+: s) : cut sep s = none := by
  induction s with
  | nil =>
      rw [cut, if_neg]
      intro hsep
      rw [hsep] at h
      exact h (List.infix_refl [])
  | cons c s ih =>
      have hprefix : ¬ sep.isPrefixOf (c :: s) = true := by
        intro hprefix
        exact h (List.isPrefixOf_iff_prefix.mp hprefix).isInfix
      have htail : ¬ sep <:+: s := fun hoccurs => h (hoccurs.trans (List.suffix_cons c s).isInfix)
      rw [cut, if_neg hprefix, ih htail]
      rfl

/-- The first occurrence is found where nothing before it looks like its beginning. -/
theorem cut_append {c : α} {sep before : List α} (after : List α) (h : c ∉ before) :
    cut (c :: sep) (before ++ c :: sep ++ after) = some (before, after) := by
  induction before with
  | nil =>
      have hprefix : (c :: sep).isPrefixOf (c :: (sep ++ after)) = true :=
        List.isPrefixOf_iff_prefix.mpr ⟨after, rfl⟩
      rw [List.nil_append, List.cons_append, cut, if_pos hprefix]
      simp
  | cons b before ih =>
      have hne : c ≠ b := fun heq => h (heq ▸ .head _)
      have hprefix : ¬ (c :: sep).isPrefixOf (b :: (before ++ c :: sep ++ after)) = true := by
        intro hprefix
        obtain ⟨rest, hrest⟩ := List.isPrefixOf_iff_prefix.mp hprefix
        exact hne (List.head_eq_of_cons_eq hrest)
      rw [List.cons_append, List.cons_append, cut, if_neg hprefix,
        ih fun hmem => h (.tail _ hmem)]
      rfl

end Cut

/-! ## White space -/

def isSpace (c : Char) : Bool :=
  [0x09, 0x0A, 0x0B, 0x0C, 0x0D, 0x20, 0x85, 0xA0, 0x1680, 0x2028, 0x2029, 0x202F, 0x205F,
    0x3000].contains c.toNat || (0x2000 ≤ c.toNat && c.toNat ≤ 0x200A)

section Trim

variable {α : Type} (space : α → Bool)

/-- Without the spaces at both ends. -/
def trim (s : List α) : List α := (s.dropWhile space).rdropWhile space

/-- `s` is `t` with spaces around it. -/
def Surrounds (s t : List α) : Prop :=
  ∃ left right, s = left ++ t ++ right ∧ (∀ c ∈ left, space c = true) ∧
    ∀ c ∈ right, space c = true

theorem surrounds_trim (s : List α) : Surrounds space s (trim space s) := by
  refine ⟨s.takeWhile space, (s.dropWhile space).rtakeWhile space, ?_, ?_, ?_⟩
  · rw [trim, List.append_assoc, List.rdropWhile_append_rtakeWhile,
      List.takeWhile_append_dropWhile]
  · intro c hc
    exact List.mem_takeWhile_imp hc
  · intro c hc
    exact List.mem_rtakeWhile_imp hc

variable {space}

/-- Spaces inside a text are kept. -/
theorem trim_append {left t right : List α} (hleft : ∀ c ∈ left, space c = true)
    (hright : ∀ c ∈ right, space c = true) (hhead : ∀ c ∈ t.head?, space c = false)
    (hlast : ∀ c ∈ t.getLast?, space c = false) : trim space (left ++ t ++ right) = t := by
  have hfront : (left ++ t ++ right).dropWhile space = (t ++ right).dropWhile space := by
    rw [List.append_assoc, List.dropWhile_append_of_pos hleft]
  rw [trim, hfront]
  cases t with
  | nil =>
      rw [List.nil_append, List.dropWhile_eq_nil_iff.mpr hright]
      rfl
  | cons c t =>
      have hc : ¬ space c = true := by
        rw [hhead c rfl]
        exact Bool.false_ne_true
      have hback : (c :: t ++ right).rdropWhile space = (c :: t).rdropWhile space := by
        rw [List.rdropWhile, List.reverse_append, List.dropWhile_append_of_pos, List.rdropWhile]
        intro b hb
        exact hright b (List.mem_reverse.mp hb)
      rw [List.cons_append, List.dropWhile_cons_of_neg hc, ← List.cons_append, hback,
        List.rdropWhile_eq_self_iff]
      intro hl hspace
      rw [hlast _ (List.getLast?_eq_getLast_of_ne_nil hl)] at hspace
      cases hspace

theorem trim_eq_of_surrounds {s t : List α} (h : Surrounds space s t)
    (ht : ∀ c ∈ t, space c = false) : trim space s = t := by
  obtain ⟨left, right, rfl, hleft, hright⟩ := h
  apply trim_append hleft hright
  · exact fun c hc => ht c (List.mem_of_mem_head? hc)
  · exact fun c hc => ht c (List.mem_of_mem_getLast? hc)

end Trim

def trimSpace (s : String) : String := String.ofList (trim isSpace s.toList)

def trimPrefix (start s : String) : String :=
  if start.toList.isPrefixOf s.toList then String.ofList (s.toList.drop start.length) else s

def trimSuffix (ending s : String) : String :=
  if ending.toList.isSuffixOf s.toList then
    String.ofList (s.toList.take (s.length - ending.length))
  else s

/-- `strings.Fields`: the parts between runs of white space. -/
def fields (s : String) : List String :=
  ((s.toList.splitOnP isSpace).filter (· ≠ [])).map String.ofList

end SyntheticsOperator.Support.Texts
