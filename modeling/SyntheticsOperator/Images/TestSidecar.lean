import SyntheticsOperator.Results.Message
import SyntheticsOperator.Support.GoStrings
import SyntheticsOperator.Support.Machines

/-!
# The runner and its sidecar

Two processes in the pod of a test share a volume.  The runner writes its result with
`os.WriteFile` (`fs.writeFileSync` in the other image): it creates the file empty, or
truncates it, and then writes the bytes.  The sidecar polls for the file and publishes
what it read.  A step of the pod is a step of one of the two.
-/

namespace SyntheticsOperator.Images

open SyntheticsOperator.Results (TestResult)
open SyntheticsOperator.Support

inductive Runner where
  | running
  | writing (rest : GoString)
  | done
deriving DecidableEq

/-- Where `run` and `waitForFile` are. -/
inductive Sidecar where
  | connecting
  /-- at the `os.ReadFile` of the loop -/
  | reading
  /-- the file does not exist: at the test of the deadline -/
  | checking
  | polling
  /-- at the `os.ReadFile` after a signal -/
  | lastAttempt
  | read (data : GoString)
  | decoded (data : GoString)
  | flushing
  | returned (err : Option String)
deriving DecidableEq

structure Pod where
  file : Option GoString
  runner : Runner
  sidecar : Sidecar
  published : List GoString
deriving DecidableEq

def Pod.init : Pod := ⟨none, .running, .connecting, []⟩

/-- A step that asks for something carries the answer; `none` is a nil error. -/
inductive Step where
  | create
  | append (n : Nat)
  | close
  | connect (err : Option String)
  | readFile
  /-- whether the clock is past the deadline -/
  | clock (passed : Bool)
  | tick
  | signal
  | unmarshal
  | publish (err : Option String)
  | flush (err : Option String)
deriving DecidableEq

variable (unmarshal : GoString → Except String TestResult) (payload : GoString)

/-- `os.WriteFile` with the payload. -/
def Pod.write (pod : Pod) : Step → Option Pod
  | .create =>
      match pod.runner with
      | .running => some { pod with file := some [], runner := .writing payload }
      | _ => none
  | .append n =>
      match pod.runner with
      | .writing rest =>
          if 0 < n ∧ n ≤ rest.length then
            some { pod with
              file := pod.file.map (· ++ rest.take n)
              runner := .writing (rest.drop n) }
          else none
      | _ => none
  | .close =>
      match pod.runner with
      | .writing [] => some { pod with runner := .done }
      | _ => none
  | _ => none

def Pod.sidecarStep (pod : Pod) : Step → Option Pod
  | .connect err =>
      match pod.sidecar with
      | .connecting =>
          match err with
          | none => some { pod with sidecar := .reading }
          | some err => some { pod with sidecar := .returned (some err) }
      | _ => none
  | .readFile =>
      match pod.sidecar with
      | .reading =>
          match pod.file with
          | some data => some { pod with sidecar := .read data }
          | none => some { pod with sidecar := .checking }
      | .lastAttempt =>
          match pod.file with
          | some data => some { pod with sidecar := .read data }
          | none => some { pod with sidecar := .returned (some "context canceled") }
      | _ => none
  | .clock passed =>
      match pod.sidecar with
      | .checking =>
          if passed then some { pod with sidecar := .returned (some "i/o timeout") }
          else some { pod with sidecar := .polling }
      | _ => none
  | .tick =>
      match pod.sidecar with
      | .polling => some { pod with sidecar := .reading }
      | _ => none
  | .signal =>
      match pod.sidecar with
      | .polling => some { pod with sidecar := .lastAttempt }
      | _ => none
  | .unmarshal =>
      match pod.sidecar with
      | .read data =>
          match unmarshal data with
          | .error err => some { pod with sidecar := .returned (some err) }
          | .ok _ => some { pod with sidecar := .decoded data }
      | _ => none
  | .publish err =>
      match pod.sidecar with
      | .decoded data =>
          match err with
          | none => some { pod with sidecar := .flushing, published := pod.published ++ [data] }
          | some err => some { pod with sidecar := .returned (some err) }
      | _ => none
  | .flush err =>
      match pod.sidecar with
      | .flushing => some { pod with sidecar := .returned err }
      | _ => none
  | _ => none

def Step.ofRunner : Step → Bool
  | .create | .append _ | .close => true
  | _ => false

def Pod.step (pod : Pod) (s : Step) : Option Pod :=
  if s.ofRunner then pod.write payload s else pod.sidecarStep unmarshal s

/-- No signal, no failure of NATS and no time-out. -/
def Step.undisturbed : Step → Bool
  | .connect (some _) | .clock true | .signal | .publish (some _) | .flush (some _) => false
  | _ => true

def Sidecar.next : Sidecar → Step
  | .connecting => .connect none
  | .reading => .readFile
  | .checking => .clock false
  | .polling => .tick
  | .lastAttempt => .readFile
  | .read _ => .unmarshal
  | .decoded _ => .publish none
  | .flushing => .flush none
  | .returned _ => .flush none

def Pod.turns : Nat → Pod → Pod
  | 0, pod => pod
  | n + 1, pod =>
      match pod.sidecarStep unmarshal pod.sidecar.next with
      | some pod => Pod.turns n pod
      | none => pod

end SyntheticsOperator.Images
