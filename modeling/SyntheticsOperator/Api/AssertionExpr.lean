import SyntheticsOperator.Api.Depends
import SyntheticsOperator.Support.Texts

/-!
# Assertion expressions

`variable op value`, as admission checks it and the probes evaluate it.
-/

namespace SyntheticsOperator.Api

open SyntheticsOperator.Support

inductive Operator where
  | le
  | ge
  | ne
  | lt
  | gt
  | eq
deriving DecidableEq

namespace Operator

def text : Operator → String
  | le => "<="
  | ge => ">="
  | ne => "!="
  | lt => "<"
  | gt => ">"
  | eq => "="

/-- The operators in the order in which they are tried: a text is cut at the first
one that occurs anywhere in it. -/
def candidates : List Operator := [le, ge, ne, lt, gt, eq]

end Operator

/-- The three parts of an expression. -/
structure Comparison (F : Type) where
  varName : String
  op : Operator
  value : F
deriving DecidableEq

def httpAssertionVars : List String := ["status_code", "duration_ms", "ssl_expiry_days"]

def dnsAssertionVars : List String := ["answer_count", "duration_ms"]

def tcpAssertionVars : List String := ["duration_ms"]

section Split

-- `strconv.ParseFloat` for 64 bits; `F` is `float64`
variable {F : Type} (parseFloat : String → Except String F)

/-- The loop over the candidates. -/
def splitAt (expr : String) : List Operator → Except String (Comparison F)
  | [] => .error "no operator found; use one of =, !=, <, <=, >, >="
  | op :: rest =>
      match Texts.cut op.text.toList expr.toList with
      | none => splitAt expr rest
      | some (before, after) =>
          match parseFloat (Texts.trimSpace (String.ofList after)) with
          | .error err => .error ("invalid value: " ++ err)
          | .ok value => .ok ⟨Texts.trimSpace (String.ofList before), op, value⟩

def splitAssertionExpr (expr : String) : Except String (Comparison F) :=
  splitAt parseFloat expr Operator.candidates

/-- `none` is a nil error. -/
def validateAssertionExpr (expr : String) (validVars : List String) : Option String :=
  match splitAssertionExpr parseFloat expr with
  | .error err => some err
  | .ok parts =>
      if parts.varName ∈ validVars then none
      else some ("unknown variable " ++ quoted parts.varName ++ ": valid variables are " ++
        String.intercalate ", " validVars)

end Split

end SyntheticsOperator.Api
