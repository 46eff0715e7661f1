import SyntheticsOperator.Api.AssertionExpr
import SyntheticsOperator.Results.Message

/-!
# Evaluating assertions

The raw result of each kind of probe, the variables it defines and the assertions
checked against them.
-/

namespace SyntheticsOperator.Probes

open SyntheticsOperator.Api (Comparison splitAssertionExpr quoted)
open SyntheticsOperator.Results (Assertion AssertionResult)
open SyntheticsOperator.Support

/-! ## Raw results -/

/-- A `*net.OpError`. -/
structure OpError where
  op : String
  timeout : Bool
deriving DecidableEq

/-- What `errors.As` and `errors.Is` find in the chain of a network error: a
`*net.DNSError`, one of the certificate errors, a `*net.OpError`, a `net.Error` that
is a timeout, `context.DeadlineExceeded` and `ECONNREFUSED`. -/
structure NetError where
  dnsError : Bool
  certificateError : Bool
  opError : Option OpError
  timeout : Bool
  deadlineExceeded : Bool
  connRefused : Bool
deriving DecidableEq

structure HTTPResult where
  configError : Bool := false
  transportErr : Option NetError := none
  statusCode : Int := 0
  httpVersion : ℚ := 0
  duration : Duration
  certExpiryTime : Option Time := none
  phaseDNSMs : ℚ := 0
  phaseConnectMs : ℚ := 0
  phaseTLSMs : ℚ := 0
  phaseProcessingMs : ℚ := 0
  phaseTransferMs : ℚ := 0
deriving DecidableEq

structure DNSResult where
  configError : Bool := false
  resolverErr : Option String := none
  duration : Duration
  firstAnswerValue : String := ""
  firstAnswerType : String := ""
  answerCount : Int := 0
  authorityCount : Int := 0
  additionalCount : Int := 0
deriving DecidableEq

structure TCPResult where
  configError : Bool := false
  connectErr : Option NetError := none
  duration : Duration
deriving DecidableEq

/-! ## Assertions -/

section Eval

-- `F` is `float64`, with the conversion of a number and `strconv.ParseFloat`.  Its comparisons
-- are no order: a NaN is not equal to itself and neither below nor above any number.
variable {F : Type} [BEq F] [LT F] [LE F] [DecidableLT F] [DecidableLE F]
  (float64 : ℚ → F) (parseFloat : String → Except String F)

/-- `assertionContext`. -/
abbrev AssertionContext (F : Type) := Finmap fun _ : String => F

/-- The six operators are all there are, so the default case has no counterpart. -/
def evalAssertion (expr : String) (ctx : AssertionContext F) : Except String Bool :=
  match splitAssertionExpr parseFloat expr with
  | .error err => .error ("parse " ++ quoted expr ++ ": " ++ err)
  | .ok ⟨varName, op, value⟩ =>
      match ctx.lookup varName with
      | none => .error ("unknown variable " ++ quoted varName)
      | some actual =>
          match op with
          | .eq => .ok (actual == value)
          | .ne => .ok (actual != value)
          | .lt => .ok (actual < value)
          | .le => .ok (actual ≤ value)
          | .gt => .ok (actual > value)
          | .ge => .ok (actual ≥ value)

/-- The variables of the loop over the assertions. -/
structure AssertionsLoop where
  ok : Bool
  failedName : String
  out : List AssertionResult
deriving DecidableEq

/-- One turn: an assertion that cannot be evaluated has not passed. -/
def AssertionsLoop.check (loop : AssertionsLoop) (a : Assertion) (passed : Bool) :
    AssertionsLoop :=
  if passed then { loop with out := loop.out ++ [⟨a.name, a.expr, 1⟩] }
  else
    { ok := false
      failedName := if loop.ok then a.name else loop.failedName
      out := loop.out ++ [⟨a.name, a.expr, 0⟩] }

def evalAssertions (assertions : List Assertion) (ctx : AssertionContext F) : AssertionsLoop :=
  assertions.foldl
    (fun loop a => loop.check a ((evalAssertion parseFloat a.expr ctx).toOption.getD false))
    ⟨true, "", []⟩

def outcomeFromOK (ok : Bool) : String := if ok then "ok" else "assertion_failed"

/-- The outcome class, the first failing assertion and the result of each. -/
structure AssertionOutcome where
  result : String
  failedAssertion : String
  assertionResults : List AssertionResult
deriving DecidableEq

def AssertionsLoop.outcome (loop : AssertionsLoop) : AssertionOutcome :=
  ⟨outcomeFromOK loop.ok, loop.failedName, loop.out⟩

/-- Days until the certificate expires, or -1. -/
def sslExpiryDays (now : Time) (r : HTTPResult) : ℚ :=
  match r.certExpiryTime with
  | none => -1
  | some expiry => ((expiry.sub now : Int) : ℚ) / 3600000000000 / 24

def httpContext (now : Time) (r : HTTPResult) : AssertionContext F :=
  (((∅ : AssertionContext F).insert "status_code" (float64 r.statusCode)).insert "duration_ms"
    (float64 r.duration.milliseconds)).insert "ssl_expiry_days" (float64 (sslExpiryDays now r))

def dnsContext (r : DNSResult) : AssertionContext F :=
  ((∅ : AssertionContext F).insert "answer_count" (float64 r.answerCount)).insert "duration_ms"
    (float64 r.duration.milliseconds)

def tcpContext (r : TCPResult) : AssertionContext F :=
  (∅ : AssertionContext F).insert "duration_ms" (float64 r.duration.milliseconds)

/-- `now` is what the clock reads. -/
def evalHTTPAssertions (now : Time) (r : HTTPResult) (assertions : List Assertion) :
    AssertionOutcome :=
  (evalAssertions parseFloat assertions (httpContext float64 now r)).outcome

def evalDNSAssertions (r : DNSResult) (assertions : List Assertion) : AssertionOutcome :=
  (evalAssertions parseFloat assertions (dnsContext float64 r)).outcome

def evalTCPAssertions (r : TCPResult) (assertions : List Assertion) : AssertionOutcome :=
  (evalAssertions parseFloat assertions (tcpContext float64 r)).outcome

end Eval

end SyntheticsOperator.Probes
