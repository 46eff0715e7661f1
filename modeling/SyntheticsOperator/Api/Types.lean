import SyntheticsOperator.Results.Message

/-!
# The custom resources

The fields that admission and the controllers read.
-/

namespace SyntheticsOperator.Api

open SyntheticsOperator.Results (StringMap)
open SyntheticsOperator.Support

/-- The part of `metav1.ObjectMeta` the controllers read. -/
structure ObjectMeta where
  name : String
  ns : String
  uid : String := ""
  generation : Int
  deletionTimestamp : Option Time
deriving DecidableEq

/-- `!DeletionTimestamp.IsZero()`: the API server sets no zero instant. -/
def ObjectMeta.deleting (m : ObjectMeta) : Bool := m.deletionTimestamp.isSome

structure Assertion where
  name : String
  expr : String
deriving DecidableEq

structure TLSConfig where
  insecureSkipVerify : Bool
  caCert : String
deriving DecidableEq

/-- A key inside a Secret in the namespace of the probe. -/
structure SecretKeySelector where
  name : String
  key : String
deriving DecidableEq

structure HeaderFromSource where
  name : String
  secretKeyRef : SecretKeySelector
deriving DecidableEq

structure HTTPRequestSpec where
  url : String
  method : String
  headers : StringMap
  headersFrom : List HeaderFromSource
  body : String
deriving DecidableEq

structure HTTPProbeSpec where
  interval : Duration
  timeout : Duration
  suspend : Bool
  request : HTTPRequestSpec
  tls : Option TLSConfig
  assertions : List Assertion
  depends : List DependencyRef
  metricLabels : StringMap
deriving DecidableEq

structure DNSQuery where
  name : String
  type : String
  resolver : String
deriving DecidableEq

structure DNSProbeSpec where
  interval : Duration
  timeout : Duration
  suspend : Bool
  query : DNSQuery
  assertions : List Assertion
  depends : List DependencyRef
  metricLabels : StringMap
deriving DecidableEq

structure TCPTarget where
  host : String
  port : Int
deriving DecidableEq

structure TCPProbeSpec where
  interval : Duration
  timeout : Duration
  suspend : Bool
  target : TCPTarget
  assertions : List Assertion
  depends : List DependencyRef
  metricLabels : StringMap
deriving DecidableEq

structure ConfigMapKeyRef where
  name : String
  key : String
deriving DecidableEq

/-- A test script in a ConfigMap. -/
structure ScriptRef where
  configMap : ConfigMapKeyRef
deriving DecidableEq

/-! The parts of a runner that the operator passes on without reading them are kept as
their JSON text; empty is the zero value. -/

structure EnvVar where
  name : String
  value : String := ""
  valueFrom : String := ""
deriving DecidableEq

structure EnvFromSource where
  json : String
deriving DecidableEq

structure ResourceRequirements where
  json : String := ""
deriving DecidableEq

structure Affinity where
  json : String
deriving DecidableEq

structure RunnerSpec where
  env : List EnvVar := []
  envFrom : List EnvFromSource := []
  resources : ResourceRequirements := {}
  affinity : Option Affinity := none
deriving DecidableEq

structure K6TestSpec where
  interval : Duration
  suspend : Bool
  k6Version : String := ""
  script : ScriptRef := ⟨⟨"", ""⟩⟩
  ttlAfterFinished : Duration := 0
  runner : Option RunnerSpec := none
  depends : List DependencyRef
  metricLabels : StringMap
deriving DecidableEq

structure PlaywrightTestSpec where
  interval : Duration
  suspend : Bool
  script : ScriptRef := ⟨⟨"", ""⟩⟩
  ttlAfterFinished : Duration := 0
  runner : Option RunnerSpec := none
  depends : List DependencyRef
  metricLabels : StringMap
deriving DecidableEq

/-- The Secret key that holds a heartbeat token. -/
structure TokenSecretRef where
  name : String
  key : String
deriving DecidableEq

structure HeartbeatSpec where
  period : Duration
  grace : Duration
  suspend : Bool
  tokenSecretRef : Option TokenSecretRef := none
  depends : List DependencyRef
  metricLabels : StringMap
deriving DecidableEq

/-- `metav1.Condition`; `status` is `ConditionTrue` or `ConditionFalse`. -/
structure Condition where
  type : String
  status : Bool
  observedGeneration : Int
  lastTransitionTime : Time
  reason : String
  message : String
deriving DecidableEq

/-- The status of the five other kinds. -/
structure ProbeStatus where
  observedGeneration : Int := 0
  conditions : List Condition := []
deriving DecidableEq

structure HeartbeatStatus where
  observedGeneration : Int := 0
  conditions : List Condition := []
  url : GoString := []
  tokenSecretName : String := ""
  lastPingTime : Option Time
  lastResult : String
deriving DecidableEq

/-- `HeartbeatResultOK`. -/
def HeartbeatStatus.resultOK : String := "ok"

/-- `HeartbeatResultFailed`. -/
def HeartbeatStatus.resultFailed : String := "failed"

structure HTTPProbe extends ObjectMeta where
  spec : HTTPProbeSpec
  status : ProbeStatus := {}
deriving DecidableEq

structure DNSProbe extends ObjectMeta where
  spec : DNSProbeSpec
  status : ProbeStatus := {}
deriving DecidableEq

structure TCPProbe extends ObjectMeta where
  spec : TCPProbeSpec
  status : ProbeStatus := {}
deriving DecidableEq

structure K6Test extends ObjectMeta where
  spec : K6TestSpec
  status : ProbeStatus := {}
deriving DecidableEq

structure PlaywrightTest extends ObjectMeta where
  spec : PlaywrightTestSpec
  status : ProbeStatus := {}
deriving DecidableEq

structure Heartbeat extends ObjectMeta where
  spec : HeartbeatSpec
  status : HeartbeatStatus
deriving DecidableEq

/-- A custom resource of one of the six kinds. -/
inductive Resource where
  | httpProbe (p : HTTPProbe)
  | dnsProbe (p : DNSProbe)
  | tcpProbe (p : TCPProbe)
  | k6Test (t : K6Test)
  | playwrightTest (t : PlaywrightTest)
  | heartbeat (h : Heartbeat)
deriving DecidableEq

namespace Resource

def objectMeta : Resource → ObjectMeta
  | httpProbe p => p.toObjectMeta
  | dnsProbe p => p.toObjectMeta
  | tcpProbe p => p.toObjectMeta
  | k6Test t => t.toObjectMeta
  | playwrightTest t => t.toObjectMeta
  | heartbeat h => h.toObjectMeta

def kind : Resource → Kind
  | httpProbe _ => .httpProbe
  | dnsProbe _ => .dnsProbe
  | tcpProbe _ => .tcpProbe
  | k6Test _ => .k6Test
  | playwrightTest _ => .playwrightTest
  | heartbeat _ => .heartbeat

def key (r : Resource) : CrKey := ⟨r.kind, ⟨r.objectMeta.ns, r.objectMeta.name⟩⟩

end Resource

end SyntheticsOperator.Api
