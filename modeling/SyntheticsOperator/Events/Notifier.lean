import SyntheticsOperator.MetricsConsumer.Consumer

/-!
# Kubernetes Events

What the callbacks of the store emit.  An Event is recorded against a custom resource,
which has to be read first; a resource that cannot be read gets none.
-/

namespace SyntheticsOperator.Events

open SyntheticsOperator.Api (Kind CrKey)
open SyntheticsOperator.Metrics (Result Store Transition)
open SyntheticsOperator.MetricsConsumer

def reasonProbeActive : String := "ProbeActive"
def reasonProbeFailed : String := "ProbeFailed"
def reasonTestActive : String := "TestActive"
def reasonTestFailed : String := "TestFailed"
def reasonHeartbeatActive : String := "HeartbeatActive"
def reasonHeartbeatFailed : String := "HeartbeatFailed"

/-- `EventTypeNormal` and `EventTypeWarning`. -/
inductive EventType where
  | normal
  | warning
deriving DecidableEq

structure Event where
  object : CrKey
  type : EventType
  reason : String
  message : String
deriving DecidableEq

section Emit

-- the resources for which `Get` returns no error
variable (get : CrKey → Bool)

def emit (obj : CrKey) (activeReason failedReason : String) (prev next : Result) :
    Option Event :=
  if get obj then
    match next with
    | .ok =>
        some ⟨obj, .normal, activeReason,
          if prev.text ≠ "" then "recovered from " ++ prev.text else "run succeeded"⟩
    | next => some ⟨obj, .warning, failedReason, "run failed: " ++ next.text⟩
  else none

def onProbeTransition (t : Transition) : Option Event :=
  match t.kind with
  | .httpProbe => emit get ⟨t.kind, t.name⟩ reasonProbeActive reasonProbeFailed t.prev t.next
  | .dnsProbe => emit get ⟨t.kind, t.name⟩ reasonProbeActive reasonProbeFailed t.prev t.next
  | .tcpProbe => emit get ⟨t.kind, t.name⟩ reasonProbeActive reasonProbeFailed t.prev t.next
  | .heartbeat =>
      emit get ⟨t.kind, t.name⟩ reasonHeartbeatActive reasonHeartbeatFailed t.prev t.next
  | _ => none

def onTestTransition (t : Transition) : Option Event :=
  match t.kind with
  | .k6Test => emit get ⟨t.kind, t.name⟩ reasonTestActive reasonTestFailed t.prev t.next
  | .playwrightTest => emit get ⟨t.kind, t.name⟩ reasonTestActive reasonTestFailed t.prev t.next
  | _ => none

/-- The Event for a message, with the callbacks set as the controller sets them. -/
def announce (store : Store) : Message → Option Event
  | .spec _ => none
  | .probeResult msg => (onProbeResult store msg).2.bind (onProbeTransition get)
  | .testResult msg => (onTestResult store msg).2.bind (onTestTransition get)
  | .ping now msg => (onHeartbeatPing store now msg).2.bind (onProbeTransition get)

end Emit

end SyntheticsOperator.Events
