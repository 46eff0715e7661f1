import Mathlib.Algebra.Order.Round
import Mathlib.Data.Rat.Floor
import SyntheticsOperator.Results.Message

/-!
# The Playwright runner

What `runner.js` makes of the report of a run: the rows of the result it writes, and the
failures it logs.  Both come from a walk over the nested suites of the report, in the order
of the report.  The two walks of the source are one walk here, which is given the body of
the innermost loop.

Every field of a report may be missing.
-/

namespace SyntheticsOperator.Images.Playwright

open SyntheticsOperator.Results (TestCase TestResult)
open SyntheticsOperator.Support

/-! ## Reports -/

structure ReportError where
  stack : Option String
  message : Option String
  /-- `JSON.stringify` of the whole error -/
  json : String
deriving DecidableEq

structure Attempt where
  status : Option String
  duration : Option ℚ
  errors : Option (List ReportError)
  error : Option ReportError
deriving DecidableEq

structure Test where
  results : Option (List Attempt)
deriving DecidableEq

structure Spec where
  title : Option String
  tests : Option (List Test)
deriving DecidableEq

inductive Suite where
  | mk (title : Option String) (specs : Option (List Spec)) (suites : Option (List Suite))

structure Report where
  errors : Option (List ReportError)
  suites : Option (List Suite)

/-- A text that counts as true: one that is there and not empty. -/
def truthy (s : Option String) : Option String := s.filter (· ≠ "")

def Test.last (test : Test) : Option Attempt := (test.results.getD []).getLast?

/-- A test of a report, with the `nextTrail` it is reached by. -/
structure Located where
  trail : List String
  spec : Spec
  test : Test
deriving DecidableEq

/-! ## The walk -/

section Walk

-- what is pushed for a test, unless the body continues with the next one
variable {β : Type} (visit : Located → Option β)

def nextTrail (trail : List String) (title : Option String) : List String :=
  match truthy title with
  | some title => trail ++ [title]
  | none => trail

def walkSpecs (trail : List String) (out : List β) (specs : List Spec) : List β :=
  specs.foldl (fun out spec =>
    (spec.tests.getD []).foldl (fun out test =>
      out ++ (visit ⟨trail, spec, test⟩).toList) out) out

mutual

def walkSuite (trail : List String) (out : List β) : Suite → List β
  | .mk title specs suites =>
      let trail := nextTrail trail title
      let out := walkSpecs visit trail out (specs.getD [])
      match suites with
      | none => out
      | some suites => walk trail out suites

def walk (trail : List String) (out : List β) : List Suite → List β
  | [] => out
  | suite :: rest => walk trail (walkSuite trail out suite) rest

end

end Walk

/-! ## `parseReport` -/

structure Row where
  origin : Located
  row : TestCase
deriving DecidableEq

def parseTest (t : Located) : Option Row :=
  match t.test.last with
  | none => none
  | some last =>
      some ⟨t,
        { suite := " > ".intercalate t.trail
          test := t.spec.title.getD ""
          passed := last.status = some "passed"
          durationMs := round (last.duration.getD 0) }⟩

def Report.rows (report : Report) : List Row := walk parseTest [] [] (report.suites.getD [])

def parseReport (report : Report) : List TestCase := report.rows.map (·.row)

/-! ## `formatFailures` -/

/-- A call of `appendErrors`, with the test it is for. -/
structure Failure where
  origin : Located
  label : String
  errors : List ReportError
deriving DecidableEq

def failTest (t : Located) : Option Failure :=
  match t.test.last with
  | none => none
  | some last =>
      if last.status = some "passed" ∨ last.status = some "skipped" then none
      else
        some ⟨t, " > ".intercalate ((t.trail.map some ++ [t.spec.title]).filterMap truthy),
          if last.errors.getD [] ≠ [] then last.errors.getD [] else last.error.toList⟩

def Report.failures (report : Report) : List Failure :=
  walk failTest [] [] (report.suites.getD [])

def ReportError.text (error : ReportError) : String :=
  ((truthy error.stack).or (truthy error.message)).getD error.json

def appendErrors (failures : List String) (label : String) (errors : List ReportError) :
    List String :=
  failures ++ errors.map fun error => "[" ++ label ++ "]\n" ++ error.text

def formatFailures (report : Report) (exitCode : Int) : String :=
  let failures := appendErrors [] "Playwright" (report.errors.getD [])
  let failures := report.failures.foldl
    (fun failures failure => appendErrors failures failure.label failure.errors) failures
  if failures = [] then
    "playwright-runner: Playwright exited with code " ++ toString exitCode ++
      ", but the report contained no error details."
  else "playwright-runner: Playwright failed:\n" ++ "\n\n".intercalate failures

/-! ## `main` -/

/-- The environment and the Playwright process of one run. -/
structure Run where
  name : String
  ns : String
  started : Time
  durationMs : Int
  /-- the `code` of the `close` event, null after a signal -/
  code : Option Int
  /-- `JSON.parse(stdout)`, or the message of its error -/
  report : Except String Report

namespace Run

variable (run : Run)

def exitCode : Int := run.code.getD 1

def tests : List TestCase :=
  match run.report with
  | .ok report => parseReport report
  | .error _ => []

def result : TestResult where
  kind := .playwrightTest
  name := run.name
  ns := run.ns
  success := run.exitCode = 0
  timestamp := run.started
  durationMs := run.durationMs
  tests := run.tests

def log : Option String :=
  match run.report with
  | .ok report => if run.exitCode ≠ 0 then some (formatFailures report run.exitCode) else none
  | .error err => some ("playwright-runner: failed to parse JSON report: " ++ err)

end Run

end SyntheticsOperator.Images.Playwright
