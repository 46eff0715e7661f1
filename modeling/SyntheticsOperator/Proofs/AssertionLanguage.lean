import Mathlib.Algebra.Order.Ring.Unbundled.Rat
import SyntheticsOperator.Probes.Assertions

/-!
# The assertion language is its grammar

An expression is cut at the first operator of a fixed list that occurs anywhere in it.
Neither a variable nor a number holds an operator character, so the operator
characters of a well-formed expression are those of its operator, and an operator that
is tried earlier does not occur among them.
-/

namespace SyntheticsOperator.Proofs.AssertionLanguage

open SyntheticsOperator.Api
open SyntheticsOperator.Probes
open SyntheticsOperator.Support
open SyntheticsOperator.Support.Texts

/-! ## The grammar -/

/-- `< > = !` -/
def operatorChar (c : Char) : Bool := ['<', '>', '=', '!'].contains c

/-- Neither white space nor an operator character. -/
def Plain (s : List Char) : Prop := ∀ c ∈ s, isSpace c = false ∧ operatorChar c = false

def Blank (s : List Char) : Prop := ∀ c ∈ s, isSpace c = true

/-- `ws v ws op ws n ws`, with a known variable and a number that `ParseFloat`
accepts. -/
structure Decomposes {F : Type} (parseFloat : String → Except String F) (vars : List String)
    (expr v : String) (op : Operator) (n : String) : Prop where
  known : v ∈ vars
  accepted : ∃ value, parseFloat n = .ok value
  shape : ∃ w₁ w₂ w₃ w₄, Blank w₁ ∧ Blank w₂ ∧ Blank w₃ ∧ Blank w₄ ∧
    expr.toList = w₁ ++ v.toList ++ w₂ ++ op.text.toList ++ (w₃ ++ n.toList ++ w₄)

/-- What an operator says of two values. -/
def Holds {F : Type} [LinearOrder F] : Operator → F → F → Prop
  | .le, a, b => a ≤ b
  | .ge, a, b => a ≥ b
  | .ne, a, b => a ≠ b
  | .lt, a, b => a < b
  | .gt, a, b => a > b
  | .eq, a, b => a = b

/-! ## Cutting -/

theorem operator_text_chars (op : Operator) : ∀ c ∈ op.text.toList, operatorChar c = true := by
  have hall : op.text.toList.all operatorChar = true := by cases op <;> decide
  exact List.all_eq_true.mp hall

theorem space_not_operator {c : Char} (h : isSpace c = true) : operatorChar c = false := by
  rw [Bool.eq_false_iff]
  intro hop
  have hall : ['<', '>', '=', '!'].all (fun c => !isSpace c) = true := by decide
  have hnot := List.all_eq_true.mp hall c (List.contains_iff_mem.mp hop)
  rw [h] at hnot
  cases hnot

/-- No operator character in a text with blanks around plain characters. -/
theorem surrounds_no_operator {s t : List Char} (h : Surrounds isSpace s t) (ht : Plain t) :
    ∀ c ∈ s, operatorChar c = false := by
  obtain ⟨left, right, rfl, hleft, hright⟩ := h
  intro c hc
  rcases List.mem_append.mp hc with hc | hc
  · rcases List.mem_append.mp hc with hc | hc
    · exact space_not_operator (hleft c hc)
    · exact (ht c hc).2
  · exact space_not_operator (hright c hc)

/-- An operator that occurs between two texts without operator characters occurs in the
operator there. -/
theorem operator_occurs {left right : List Char} {op op' : Operator}
    (hleft : ∀ c ∈ left, operatorChar c = false) (hright : ∀ c ∈ right, operatorChar c = false)
    (h : op'.text.toList <:+: left ++ op.text.toList ++ right) :
    op'.text.toList <:+: op.text.toList := by
  have hfilter := h.filter operatorChar
  have hnil {s : List Char} (hs : ∀ c ∈ s, operatorChar c = false) :
      s.filter operatorChar = [] := by
    rw [List.filter_eq_nil_iff]
    intro c hc
    rw [hs c hc]
    exact Bool.false_ne_true
  rw [List.filter_append, List.filter_append, hnil hleft, hnil hright,
    List.filter_eq_self.mpr (operator_text_chars op'),
    List.filter_eq_self.mpr (operator_text_chars op), List.nil_append, List.append_nil] at hfilter
  exact hfilter

/-- Every operator is tried before those it contains. -/
theorem candidates_split (op : Operator) :
    ∃ earlier later, Operator.candidates = earlier ++ op :: later ∧
      ∀ op' ∈ earlier, ¬ op'.text.toList <:+: op.text.toList := by
  cases op with
  | le => exact ⟨[], _, rfl, by decide⟩
  | ge => exact ⟨[.le], _, rfl, by decide⟩
  | ne => exact ⟨[.le, .ge], _, rfl, by decide⟩
  | lt => exact ⟨[.le, .ge, .ne], _, rfl, by decide⟩
  | gt => exact ⟨[.le, .ge, .ne, .lt], _, rfl, by decide⟩
  | eq => exact ⟨[.le, .ge, .ne, .lt, .gt], _, rfl, by decide⟩

theorem cut_operator {left right : List Char} (op : Operator)
    (hleft : ∀ c ∈ left, operatorChar c = false) :
    cut op.text.toList (left ++ op.text.toList ++ right) = some (left, right) := by
  have hne : op.text.toList ≠ [] := by cases op <;> decide
  obtain ⟨c, rest, htext⟩ := List.exists_cons_of_ne_nil hne
  rw [htext]
  refine cut_append right ?_
  intro hmem
  have hchar := operator_text_chars op c (htext ▸ .head _)
  rw [hleft c hmem] at hchar
  cases hchar

/-! ## Splitting -/

section Split

variable {F : Type} {parseFloat : String → Except String F}

theorem splitAt_skip {expr : String} {earlier : List Operator} (rest : List Operator)
    (h : ∀ op ∈ earlier, cut op.text.toList expr.toList = none) :
    splitAt parseFloat expr (earlier ++ rest) = splitAt parseFloat expr rest := by
  induction earlier with
  | nil => rfl
  | cons op earlier ih =>
      rw [List.cons_append, splitAt, h op (.head _)]
      exact ih fun op' hop' => h op' (.tail _ hop')

/-- What a successful split says about the text. -/
theorem shape_of_splitAt {expr : String} {ops : List Operator} {parts : Comparison F}
    (h : splitAt parseFloat expr ops = .ok parts) :
    ∃ left right, expr.toList = left ++ parts.op.text.toList ++ right ∧
      parts.varName = trimSpace (String.ofList left) ∧
      parseFloat (trimSpace (String.ofList right)) = .ok parts.value := by
  induction ops with
  | nil => cases h
  | cons op ops ih =>
      rw [splitAt] at h
      split at h
      · exact ih h
      · rename_i left right hcut
        split at h
        · cases h
        · rename_i value hvalue
          cases h
          exact ⟨left, right, append_of_cut hcut, rfl, hvalue⟩

theorem trimSpace_of_surrounds {s : List Char} {t : String}
    (h : Surrounds isSpace s t.toList) (ht : Plain t.toList) :
    trimSpace (String.ofList s) = t := by
  rw [trimSpace, String.toList_ofList, trim_eq_of_surrounds h fun c hc => (ht c hc).1,
    String.ofList_toList]

theorem surrounds_of_blank {w w' t : List Char} (hw : Blank w) (hw' : Blank w') :
    Surrounds isSpace (w ++ t ++ w') t := ⟨w, w', rfl, hw, hw'⟩

/-- The split of a well-formed expression. -/
theorem split_of_shape {expr v n : String} {op : Operator} {value : F}
    {w₁ w₂ w₃ w₄ : List Char} (hw₁ : Blank w₁) (hw₂ : Blank w₂) (hw₃ : Blank w₃)
    (hw₄ : Blank w₄)
    (hshape : expr.toList = w₁ ++ v.toList ++ w₂ ++ op.text.toList ++ (w₃ ++ n.toList ++ w₄))
    (hv : Plain v.toList) (hn : Plain n.toList) (hvalue : parseFloat n = .ok value) :
    splitAssertionExpr parseFloat expr = .ok ⟨v, op, value⟩ := by
  have hleft := surrounds_of_blank (t := v.toList) hw₁ hw₂
  have hright := surrounds_of_blank (t := n.toList) hw₃ hw₄
  have hleftChars := surrounds_no_operator hleft hv
  have hrightChars := surrounds_no_operator hright hn
  obtain ⟨earlier, later, hcandidates, hearlier⟩ := candidates_split op
  rw [splitAssertionExpr, hcandidates, splitAt_skip, splitAt, hshape,
    cut_operator op hleftChars]
  · simp only
    rw [trimSpace_of_surrounds hright hn, hvalue]
    simp only
    rw [trimSpace_of_surrounds hleft hv]
  · intro op' hop'
    rw [hshape]
    exact cut_eq_none fun hoccurs =>
      hearlier op' hop' (operator_occurs hleftChars hrightChars hoccurs)

end Split

/-! ## Admission and evaluation -/

section Language

variable {F : Type} {parseFloat : String → Except String F} {vars : List String}
  {expr v n : String} {op : Operator}

/-- No number that `ParseFloat` accepts holds white space or an operator character. -/
def PlainNumbers (parseFloat : String → Except String F) : Prop :=
  ∀ n value, parseFloat n = .ok value → Plain n.toList

def PlainVars (vars : List String) : Prop := ∀ v ∈ vars, Plain v.toList

theorem split_of_decomposes (hparse : PlainNumbers parseFloat) (hvars : PlainVars vars)
    (h : Decomposes parseFloat vars expr v op n) :
    ∃ value, parseFloat n = .ok value ∧
      splitAssertionExpr parseFloat expr = .ok ⟨v, op, value⟩ := by
  obtain ⟨value, hvalue⟩ := h.accepted
  obtain ⟨w₁, w₂, w₃, w₄, hw₁, hw₂, hw₃, hw₄, hshape⟩ := h.shape
  exact ⟨value, hvalue, split_of_shape hw₁ hw₂ hw₃ hw₄ hshape (hvars v h.known)
    (hparse n value hvalue) hvalue⟩

theorem validate_iff_split :
    validateAssertionExpr parseFloat expr vars = none ↔
      ∃ parts, splitAssertionExpr parseFloat expr = .ok parts ∧ parts.varName ∈ vars := by
  unfold validateAssertionExpr
  cases splitAssertionExpr parseFloat expr with
  | error err => simp
  | ok parts => simp

/-- A text is the blanks around what is left of it after trimming. -/
theorem blank_trimSpace (s : List Char) :
    ∃ w w', Blank w ∧ Blank w' ∧ s = w ++ (trimSpace (String.ofList s)).toList ++ w' := by
  obtain ⟨w, w', hs, hw, hw'⟩ := surrounds_trim isSpace s
  refine ⟨w, w', hw, hw', ?_⟩
  rw [trimSpace, String.toList_ofList, String.toList_ofList]
  exact hs

theorem decomposes_of_split {parts : Comparison F}
    (hsplit : splitAssertionExpr parseFloat expr = .ok parts) (hknown : parts.varName ∈ vars) :
    ∃ n, Decomposes parseFloat vars expr parts.varName parts.op n := by
  obtain ⟨left, right, hshape, hname, hvalue⟩ := shape_of_splitAt hsplit
  obtain ⟨w₁, w₂, hw₁, hw₂, hleft⟩ := blank_trimSpace left
  obtain ⟨w₃, w₄, hw₃, hw₄, hright⟩ := blank_trimSpace right
  refine ⟨trimSpace (String.ofList right), hknown, ⟨_, hvalue⟩,
    w₁, w₂, w₃, w₄, hw₁, hw₂, hw₃, hw₄, ?_⟩
  rw [hname, ← hleft, ← hright]
  exact hshape

/-- The number is what follows the operator, trimmed. -/
theorem number_eq (hparse : PlainNumbers parseFloat) (hvars : PlainVars vars)
    (h : Decomposes parseFloat vars expr v op n) {left right : List Char}
    (hcut : cut op.text.toList expr.toList = some (left, right)) :
    n = trimSpace (String.ofList right) := by
  obtain ⟨value, hvalue⟩ := h.accepted
  obtain ⟨w₁, w₂, w₃, w₄, hw₁, hw₂, hw₃, hw₄, hshape⟩ := h.shape
  have hleft := surrounds_of_blank (t := v.toList) hw₁ hw₂
  have hright := surrounds_of_blank (t := n.toList) hw₃ hw₄
  rw [hshape, cut_operator op (surrounds_no_operator hleft (hvars v h.known))] at hcut
  cases hcut
  exact (trimSpace_of_surrounds hright (hparse n value hvalue)).symm

theorem decomposes_unique (hparse : PlainNumbers parseFloat) (hvars : PlainVars vars)
    (h : Decomposes parseFloat vars expr v op n) {v' n' : String} {op' : Operator}
    (h' : Decomposes parseFloat vars expr v' op' n') : v' = v ∧ op' = op ∧ n' = n := by
  obtain ⟨value, -, hsplit⟩ := split_of_decomposes hparse hvars h
  obtain ⟨value', -, hsplit'⟩ := split_of_decomposes hparse hvars h'
  have hparts : (⟨v', op', value'⟩ : Comparison F) = ⟨v, op, value⟩ :=
    Except.ok.inj (hsplit'.symm.trans hsplit)
  obtain ⟨hv, hop, -⟩ := Comparison.mk.inj hparts
  subst hop
  obtain ⟨w₁, w₂, w₃, w₄, hw₁, hw₂, -, -, hshape⟩ := h.shape
  have hcut : cut op'.text.toList expr.toList =
      some (w₁ ++ v.toList ++ w₂, w₃ ++ n.toList ++ w₄) := by
    rw [hshape]
    exact cut_operator op' (surrounds_no_operator (surrounds_of_blank hw₁ hw₂) (hvars v h.known))
  exact ⟨hv, rfl, (number_eq hparse hvars h' hcut).trans (number_eq hparse hvars h hcut).symm⟩

/-- Evaluation of a split expression is the comparison it states. -/
theorem evalAssertion_of_split [LinearOrder F] {value actual : F} {ctx : AssertionContext F}
    (hsplit : splitAssertionExpr parseFloat expr = .ok ⟨v, op, value⟩)
    (hactual : ctx.lookup v = some actual) :
    ∃ passed, evalAssertion parseFloat expr ctx = .ok passed ∧
      (passed = true ↔ Holds op actual value) := by
  simp only [evalAssertion, hsplit, hactual]
  cases op with
  | le => exact ⟨_, rfl, decide_eq_true_iff⟩
  | ge => exact ⟨_, rfl, decide_eq_true_iff⟩
  | ne => exact ⟨_, rfl, bne_iff_ne⟩
  | lt => exact ⟨_, rfl, decide_eq_true_iff⟩
  | gt => exact ⟨_, rfl, decide_eq_true_iff⟩
  | eq => exact ⟨_, rfl, beq_iff_eq⟩

/-- An admitted expression can be evaluated in every context that defines the
variables. -/
theorem evalAssertion_of_admitted [LinearOrder F] {ctx : AssertionContext F}
    (hctx : ∀ name ∈ vars, name ∈ ctx) (h : validateAssertionExpr parseFloat expr vars = none) :
    ∃ passed, evalAssertion parseFloat expr ctx = .ok passed := by
  obtain ⟨⟨varName, op, value⟩, hsplit, hknown⟩ := validate_iff_split.mp h
  obtain ⟨actual, hactual⟩ := Finmap.mem_iff.mp (hctx varName hknown)
  obtain ⟨passed, heval, -⟩ := evalAssertion_of_split hsplit hactual
  exact ⟨passed, heval⟩

end Language

/-! ## The contexts of the three kinds -/

section Contexts

variable {F : Type} (float64 : ℚ → F)

theorem httpContext_defines (now : Time) (r : HTTPResult) :
    ∀ name ∈ httpAssertionVars, name ∈ httpContext float64 now r := by
  intro name hname
  simp only [httpContext, Finmap.mem_insert]
  simp only [httpAssertionVars, List.mem_cons, List.not_mem_nil, or_false] at hname
  rcases hname with rfl | rfl | rfl
  · exact .inr (.inr (.inl rfl))
  · exact .inr (.inl rfl)
  · exact .inl rfl

theorem dnsContext_defines (r : DNSResult) :
    ∀ name ∈ dnsAssertionVars, name ∈ dnsContext float64 r := by
  intro name hname
  simp only [dnsContext, Finmap.mem_insert]
  simp only [dnsAssertionVars, List.mem_cons, List.not_mem_nil, or_false] at hname
  rcases hname with rfl | rfl
  · exact .inr (.inl rfl)
  · exact .inl rfl

theorem tcpContext_defines (r : TCPResult) :
    ∀ name ∈ tcpAssertionVars, name ∈ tcpContext float64 r := by
  intro name hname
  simp only [tcpContext, Finmap.mem_insert]
  exact .inl (List.mem_singleton.mp hname)

end Contexts

/-- For every set of plain variable names and every text: admission accepts exactly the
texts of the grammar, the three parts are unique and are those of
`SplitAssertionExpr`, and evaluation in any context that defines the variables returns
the truth of the comparison.  So what is admitted for a kind of probe evaluates without
error in the context of that kind. -/
theorem assertion_language {F : Type} [LinearOrder F] (float64 : ℚ → F)
    (parseFloat : String → Except String F) (hparse : PlainNumbers parseFloat)
    (vars : List String) (hvars : PlainVars vars) (expr : String) :
    (validateAssertionExpr parseFloat expr vars = none ↔
      ∃ v op n, Decomposes parseFloat vars expr v op n) ∧
    (∀ v op n, Decomposes parseFloat vars expr v op n →
      (∀ v' op' n', Decomposes parseFloat vars expr v' op' n' → v' = v ∧ op' = op ∧ n' = n) ∧
      ∃ value, parseFloat n = .ok value ∧
        splitAssertionExpr parseFloat expr = .ok ⟨v, op, value⟩ ∧
        ∀ ctx : AssertionContext F, (∀ name ∈ vars, name ∈ ctx) →
          ∃ actual passed, ctx.lookup v = some actual ∧
            evalAssertion parseFloat expr ctx = .ok passed ∧
            (passed = true ↔ Holds op actual value)) ∧
    (validateAssertionExpr parseFloat expr httpAssertionVars = none → ∀ now r,
      ∃ passed, evalAssertion parseFloat expr (httpContext float64 now r) = .ok passed) ∧
    (validateAssertionExpr parseFloat expr dnsAssertionVars = none → ∀ r,
      ∃ passed, evalAssertion parseFloat expr (dnsContext float64 r) = .ok passed) ∧
    (validateAssertionExpr parseFloat expr tcpAssertionVars = none → ∀ r,
      ∃ passed, evalAssertion parseFloat expr (tcpContext float64 r) = .ok passed) := by
  refine ⟨⟨?_, ?_⟩, ?_, ?_, ?_, ?_⟩
  · intro h
    obtain ⟨parts, hsplit, hknown⟩ := validate_iff_split.mp h
    obtain ⟨n, hn⟩ := decomposes_of_split hsplit hknown
    exact ⟨parts.varName, parts.op, n, hn⟩
  · rintro ⟨v, op, n, h⟩
    obtain ⟨value, -, hsplit⟩ := split_of_decomposes hparse hvars h
    exact validate_iff_split.mpr ⟨_, hsplit, h.known⟩
  · intro v op n h
    obtain ⟨value, hvalue, hsplit⟩ := split_of_decomposes hparse hvars h
    refine ⟨fun v' op' n' h' => decomposes_unique hparse hvars h h', value, hvalue, hsplit, ?_⟩
    intro ctx hctx
    obtain ⟨actual, hactual⟩ := Finmap.mem_iff.mp (hctx v h.known)
    obtain ⟨passed, heval, hpassed⟩ := evalAssertion_of_split hsplit hactual
    exact ⟨actual, passed, hactual, heval, hpassed⟩
  · intro h now r
    exact evalAssertion_of_admitted (httpContext_defines float64 now r) h
  · intro h r
    exact evalAssertion_of_admitted (dnsContext_defines float64 r) h
  · intro h r
    exact evalAssertion_of_admitted (tcpContext_defines float64 r) h

/-- Numbers that are written with digits only. -/
def parseDigits (s : String) : Except String ℚ :=
  if s.toList ≠ [] ∧ s.toList.all (fun c => 48 ≤ c.toNat && c.toNat ≤ 57) then
    .ok ((s.toList.foldl (fun value c => 10 * value + (c.toNat - 48)) 0 : Nat) : ℚ)
  else .error ("strconv.ParseFloat: parsing " ++ quoted s ++ ": invalid syntax")

theorem parseDigits_plain : PlainNumbers parseDigits := by
  intro n value h
  unfold parseDigits at h
  split at h
  · rename_i hdigits
    intro c hc
    have hdigit := List.all_eq_true.mp hdigits.2 c hc
    simp only [Bool.and_eq_true, decide_eq_true_eq] at hdigit
    constructor
    · simp only [isSpace, List.contains_eq_mem, List.mem_cons, List.not_mem_nil, or_false,
        Bool.or_eq_false_iff, decide_eq_false_iff_not, Bool.and_eq_false_iff]
      omega
    · rw [Bool.eq_false_iff]
      intro hop
      have hall : ['<', '>', '=', '!'].all (fun c => c.toNat < 48 || 57 < c.toNat) = true := by
        decide
      have hout := List.all_eq_true.mp hall c (List.contains_iff_mem.mp hop)
      simp only [Bool.or_eq_true, decide_eq_true_eq] at hout
      omega
  · cases h

/-- An expression with blanks around its parts. -/
theorem assertion_language_blanks :
    Decomposes parseDigits httpAssertionVars "  status_code >= 200 " "status_code" .ge "200" ∧
    validateAssertionExpr parseDigits "  status_code >= 200 " httpAssertionVars = none := by
  have hvars : PlainVars httpAssertionVars := by
    have hall : httpAssertionVars.all (fun v => v.toList.all fun c =>
        !isSpace c && !operatorChar c) = true := by
      decide +kernel
    intro v hv c hc
    have hplain := List.all_eq_true.mp (List.all_eq_true.mp hall v hv) c hc
    simpa using hplain
  have hdecomposes :
      Decomposes parseDigits httpAssertionVars "  status_code >= 200 " "status_code" .ge "200" :=
    ⟨.head _, ⟨200, by decide +kernel⟩, [' ', ' '], [' '], [' '], [' '],
      by simp [Blank, isSpace], by simp [Blank, isSpace], by simp [Blank, isSpace],
      by simp [Blank, isSpace], by decide +kernel⟩
  exact ⟨hdecomposes, (assertion_language id parseDigits parseDigits_plain httpAssertionVars hvars
    "  status_code >= 200 ").1.mpr ⟨_, _, _, hdecomposes⟩⟩

end SyntheticsOperator.Proofs.AssertionLanguage
