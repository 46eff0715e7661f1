import Mathlib.Data.Finmap
import Mathlib.Data.Rat.Defs
import SyntheticsOperator.Api.Identity
import SyntheticsOperator.Support.GoStrings
import SyntheticsOperator.Support.GoTime

/-!
# Wire types

The messages the deployments exchange.  Integers are unbounded here: no
modelled function does arithmetic that could leave their Go types.  `float64`
values are exact rationals.
-/

namespace SyntheticsOperator.Results

open SyntheticsOperator.Api (Kind NamespacedName CrKey)
open SyntheticsOperator.Support

/-- `map[string]string`. -/
abbrev StringMap := Finmap fun _ : String => String

/-- `api/v1alpha1.DependencyRef` on the wire. -/
structure DependencyRef where
  kind : Kind
  name : String
deriving DecidableEq

structure Assertion where
  name : String
  expr : String
deriving DecidableEq

structure TLSConfig where
  insecureSkipVerify : Bool
  caCert : String
deriving DecidableEq

structure HTTPProbeSpecPayload where
  timeoutMs : Int
  url : String
  method : String
  headers : StringMap
  body : String
  tls : Option TLSConfig
  assertions : List Assertion
deriving DecidableEq

structure DNSProbeSpecPayload where
  timeoutMs : Int
  name : String
  type : String
  resolver : String
  assertions : List Assertion
deriving DecidableEq

structure TCPProbeSpecPayload where
  timeoutMs : Int
  host : String
  port : Int
  assertions : List Assertion
deriving DecidableEq

/-- `lastPingUnix` and `lastResult` replay the status of the custom resource. -/
structure HeartbeatSpecPayload where
  token : GoString
  periodMs : Int
  graceMs : Int
  lastPingUnix : Int
  lastResult : String
deriving DecidableEq

/-- Published by the receiver for every accepted request. -/
structure HeartbeatPing where
  name : String
  ns : String
  receivedAt : Time
  failed : Bool
  exitCode : Int
  output : GoString
deriving DecidableEq

/-- A spec snapshot, or with `deleted` a tombstone: remove all state for the
identity. -/
structure SpecUpdate where
  kind : Kind
  name : String
  ns : String
  generation : Int := 0
  deleted : Bool := false
  suspend : Bool := false
  intervalMs : Int := 0
  depends : List DependencyRef := []
  metricLabels : StringMap := ∅
  httpProbe : Option HTTPProbeSpecPayload := none
  dnsProbe : Option DNSProbeSpecPayload := none
  tcpProbe : Option TCPProbeSpecPayload := none
  heartbeat : Option HeartbeatSpecPayload := none
deriving DecidableEq

/-- Published by the scheduler at each tick; it carries the whole spec. -/
structure ProbeJob where
  spec : SpecUpdate
  scheduledAt : Time
deriving DecidableEq

structure AssertionResult where
  name : String
  expr : String
  result : ℚ
deriving DecidableEq

structure ProbeResult where
  kind : Kind
  name : String
  ns : String
  generation : Int := 0
  timestamp : Time
  durationMs : Int := 0
  result : String
  failedAssertion : String := ""
  httpStatusCode : Int := 0
  httpVersion : ℚ := 0
  url : String := ""
  method : String := ""
  tlsCertExpiryUnix : Int := 0
  httpPhaseDNSMs : ℚ := 0
  httpPhaseConnectMs : ℚ := 0
  httpPhaseTLSMs : ℚ := 0
  httpPhaseProcessingMs : ℚ := 0
  httpPhaseTransferMs : ℚ := 0
  assertionResults : List AssertionResult := []
  dnsQueryName : String := ""
  dnsResolver : String := ""
  dnsFirstAnswerValue : String := ""
  dnsFirstAnswerType : String := ""
  dnsAnswerCount : Int := 0
  dnsAuthorityCount : Int := 0
  dnsAdditionalCount : Int := 0
  tcpHost : String := ""
  tcpPort : Int := 0
deriving DecidableEq

/-- One case of a PlaywrightTest run. -/
structure TestCase where
  suite : String
  test : String
  passed : Bool
  durationMs : Int
deriving DecidableEq

structure TestResult where
  kind : Kind
  name : String
  ns : String
  success : Bool
  timestamp : Time
  durationMs : Int
  tests : List TestCase := []
deriving DecidableEq

/-! ## The identity a message is about -/

def SpecUpdate.key (msg : SpecUpdate) : CrKey := ⟨msg.kind, ⟨msg.ns, msg.name⟩⟩

def ProbeResult.key (msg : ProbeResult) : CrKey := ⟨msg.kind, ⟨msg.ns, msg.name⟩⟩

def TestResult.key (msg : TestResult) : CrKey := ⟨msg.kind, ⟨msg.ns, msg.name⟩⟩

def HeartbeatPing.key (msg : HeartbeatPing) : CrKey := ⟨.heartbeat, ⟨msg.ns, msg.name⟩⟩

end SyntheticsOperator.Results
