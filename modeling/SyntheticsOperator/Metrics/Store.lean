import SyntheticsOperator.Heartbeat.Lifecycle
import SyntheticsOperator.Results.Message

/-!
# The metrics store

The five maps of `metrics.Store` and the operations that write them.  Every
operation takes the store's mutex, so it is one step here.  Where the source
fires a transition callback the operation also returns the transition.
-/

namespace SyntheticsOperator.Metrics

open SyntheticsOperator.Api
open SyntheticsOperator.Heartbeat
open SyntheticsOperator.Support

/-! ## Results -/

/-- The named values of the `result` label. -/
def namedResults : List String :=
  ["ok", "config_error", "dns_failed", "connect_refused", "connect_timeout", "connect_failed",
    "tls_failed", "recv_timeout", "assertion_failed", "test_failed", "pending", "missed",
    "reported_failure"]

/-- What happened on the last run.  A result arrives as a string, so any other
text is possible too. -/
inductive Result where
  | ok
  | configError
  | dnsFailed
  | connectRefused
  | connectTimeout
  | connectFailed
  | tlsFailed
  | recvTimeout
  | assertionFailed
  | testFailed
  | pending
  | missed
  | reported
  | other (text : {s : String // s ∉ namedResults})
deriving DecidableEq

namespace Result

def text : Result → String
  | ok => "ok"
  | configError => "config_error"
  | dnsFailed => "dns_failed"
  | connectRefused => "connect_refused"
  | connectTimeout => "connect_timeout"
  | connectFailed => "connect_failed"
  | tlsFailed => "tls_failed"
  | recvTimeout => "recv_timeout"
  | assertionFailed => "assertion_failed"
  | testFailed => "test_failed"
  | pending => "pending"
  | missed => "missed"
  | reported => "reported_failure"
  | other text => text.1

/-- The conversion `Result(s)` of a string. -/
def ofText (s : String) : Result :=
  if h : s ∈ namedResults then
    ([ok, configError, dnsFailed, connectRefused, connectTimeout, connectFailed, tlsFailed,
      recvTimeout, assertionFailed, testFailed, pending, missed, reported].find?
        (·.text == s)).getD ok
  else other ⟨s, h⟩

/-- The zero value of the type, which a first run is compared with. -/
def unset : Result := .other ⟨"", by decide⟩

/-- The 0 or 1 of the health gauges. -/
def successValue : Result → ℚ
  | ok => 1
  | _ => 0

theorem successValue_eq_zero {r : Result} : r.successValue = 0 ↔ r ≠ ok := by
  cases r <;> simp [successValue]

end Result

/-- `heartbeatResult`: the two packages use the same strings. -/
def heartbeatResult : Lifecycle.Result → Result
  | .ok => .ok
  | .pending => .pending
  | .missed => .missed
  | .reportedFailure => .reported

def resultFromSuccess (success : Bool) : Result :=
  if success then .ok else .testFailed

/-! ## State -/

/-- Last-run state of an HTTPProbe, DNSProbe or TCPProbe. -/
structure ProbeState where
  kind : Kind
  result : Result
  failedAssertion : String := ""
  durationMilliseconds : ℚ := 0
  lastRunTimestamp : ℚ := 0
  httpStatusCode : ℚ := 0
  httpVersion : ℚ := 0
  url : String := ""
  method : String := ""
  tlsCertExpiry : ℚ := 0
  httpPhaseDNSMs : ℚ := 0
  httpPhaseConnectMs : ℚ := 0
  httpPhaseTLSMs : ℚ := 0
  httpPhaseProcessingMs : ℚ := 0
  httpPhaseTransferMs : ℚ := 0
  assertionResults : List Results.AssertionResult := []
  dnsQueryName : String := ""
  dnsResolver : String := ""
  dnsFirstAnswerValue : String := ""
  dnsFirstAnswerType : String := ""
  dnsAnswerCount : ℚ := 0
  dnsAuthorityCount : ℚ := 0
  dnsAdditionalCount : ℚ := 0
  tcpHost : String := ""
  tcpPort : Int := 0

/-- Last-run state of a K6Test or PlaywrightTest. -/
structure TestState where
  kind : Kind
  result : Result
  durationMilliseconds : ℚ := 0
  lastRunTimestamp : ℚ := 0
  playwrightTests : List Results.TestCase := []

/-- The maps of the store. -/
structure Store where
  probes : Finmap fun _ : CrKey => ProbeState
  tests : Finmap fun _ : CrKey => TestState
  heartbeats : Finmap fun _ : CrKey => Lifecycle.State
  depends : Finmap fun _ : CrKey => List DependencyRef
  metricLabels : Finmap fun _ : CrKey => Results.StringMap

/-- The arguments of a transition callback. -/
structure Transition where
  name : NamespacedName
  kind : Kind
  prev : Result
  next : Result
deriving DecidableEq

/-- A callback is invoked only when the result changed. -/
def transition (name : NamespacedName) (kind : Kind) (prev next : Result) :
    Option Transition :=
  if prev ≠ next then some ⟨name, kind, prev, next⟩ else none

namespace Store

/-- The maps of a new store. -/
def empty : Store := ⟨∅, ∅, ∅, ∅, ∅⟩

def upsert (s : Store) (name : NamespacedName) (state : ProbeState) :
    Store × Option Transition :=
  let key : CrKey := ⟨state.kind, name⟩
  let prevResult := ((s.probes.lookup key).map (·.result)).getD .unset
  ({ s with probes := s.probes.insert key state },
    transition name state.kind prevResult state.result)

def upsertTest (s : Store) (name : NamespacedName) (state : TestState) :
    Store × Option Transition :=
  let key : CrKey := ⟨state.kind, name⟩
  let prevResult := ((s.tests.lookup key).map (·.result)).getD .unset
  ({ s with tests := s.tests.insert key state },
    transition name state.kind prevResult state.result)

def recordTestResult (s : Store) (name : NamespacedName) (kind : Kind) (success : Bool)
    (durationMs : Int) (ts : ℚ) : Store × Option Transition :=
  s.upsertTest name
    { kind := kind
      result := resultFromSuccess success
      durationMilliseconds := durationMs
      lastRunTimestamp := ts }

def recordPlaywrightResult (s : Store) (name : NamespacedName) (success : Bool)
    (durationMs : Int) (ts : ℚ) (tests : List Results.TestCase) : Store × Option Transition :=
  s.upsertTest name
    { kind := .playwrightTest
      result := resultFromSuccess success
      durationMilliseconds := durationMs
      lastRunTimestamp := ts
      playwrightTests := tests }

/-- Removes one identity from the three state maps, and only from those. -/
def delete (s : Store) (kind : Kind) (name : NamespacedName) : Store :=
  { s with
    probes := s.probes.erase ⟨kind, name⟩
    tests := s.tests.erase ⟨kind, name⟩
    heartbeats := s.heartbeats.erase ⟨kind, name⟩ }

/-- An empty list clears the entry. -/
def setDepends (s : Store) (kind : Kind) (name : NamespacedName) (deps : List DependencyRef) :
    Store :=
  if deps.length = 0 then { s with depends := s.depends.erase ⟨kind, name⟩ }
  else { s with depends := s.depends.insert ⟨kind, name⟩ deps }

theorem setDepends_lookup (s : Store) (key : CrKey) (deps : List DependencyRef) :
    ((s.setDepends key.kind key.name deps).depends.lookup key).getD [] = deps := by
  unfold setDepends
  split
  · rename_i hempty
    simp [List.length_eq_zero_iff.mp hempty, Finmap.lookup_erase]
  · simp [Finmap.lookup_insert]

theorem setDepends_lookup_of_ne (s : Store) {key other : CrKey} (deps : List DependencyRef)
    (hne : other ≠ key) :
    (s.setDepends key.kind key.name deps).depends.lookup other = s.depends.lookup other := by
  unfold setDepends
  split
  · exact Finmap.lookup_erase_ne hne
  · exact Finmap.lookup_insert_of_ne _ hne

@[simp] theorem setDepends_probes (s : Store) (kind : Kind) (name : NamespacedName)
    (deps : List DependencyRef) : (s.setDepends kind name deps).probes = s.probes := by
  unfold setDepends
  split <;> rfl

@[simp] theorem setDepends_tests (s : Store) (kind : Kind) (name : NamespacedName)
    (deps : List DependencyRef) : (s.setDepends kind name deps).tests = s.tests := by
  unfold setDepends
  split <;> rfl

@[simp] theorem setDepends_heartbeats (s : Store) (kind : Kind) (name : NamespacedName)
    (deps : List DependencyRef) : (s.setDepends kind name deps).heartbeats = s.heartbeats := by
  unfold setDepends
  split <;> rfl

def clearDepends (s : Store) (kind : Kind) (name : NamespacedName) : Store :=
  { s with depends := s.depends.erase ⟨kind, name⟩ }

/-- An empty map clears the entry. -/
def setMetricLabels (s : Store) (kind : Kind) (name : NamespacedName)
    (labels : Results.StringMap) : Store :=
  if labels.keys.card = 0 then { s with metricLabels := s.metricLabels.erase ⟨kind, name⟩ }
  else { s with metricLabels := s.metricLabels.insert ⟨kind, name⟩ labels }

@[simp] theorem setMetricLabels_probes (s : Store) (kind : Kind) (name : NamespacedName)
    (labels : Results.StringMap) : (s.setMetricLabels kind name labels).probes = s.probes := by
  unfold setMetricLabels
  split <;> rfl

@[simp] theorem setMetricLabels_tests (s : Store) (kind : Kind) (name : NamespacedName)
    (labels : Results.StringMap) : (s.setMetricLabels kind name labels).tests = s.tests := by
  unfold setMetricLabels
  split <;> rfl

@[simp] theorem setMetricLabels_heartbeats (s : Store) (kind : Kind) (name : NamespacedName)
    (labels : Results.StringMap) :
    (s.setMetricLabels kind name labels).heartbeats = s.heartbeats := by
  unfold setMetricLabels
  split <;> rfl

def clearMetricLabels (s : Store) (kind : Kind) (name : NamespacedName) : Store :=
  { s with metricLabels := s.metricLabels.erase ⟨kind, name⟩ }

/-! ## Heartbeats -/

def setHeartbeatSpec (s : Store) (name : NamespacedName) (periodSeconds graceSeconds : ℚ)
    (suspend : Bool) (seedPingUnix : ℚ) (seedFailed : Bool) : Store :=
  let key : CrKey := ⟨.heartbeat, name⟩
  let state := (s.heartbeats.lookup key).getD .zero
  let existing := (s.heartbeats.lookup key).isSome
  { s with
    heartbeats := s.heartbeats.insert key
      (Lifecycle.applySpec state existing periodSeconds graceSeconds suspend
        ⟨seedPingUnix, seedFailed⟩) }

/-- A ping creates the state when there is none. -/
def recordHeartbeatPing (s : Store) (now : Time) (name : NamespacedName) (failed : Bool)
    (exitCode : Int) (receivedUnix : ℚ) : Store × Option Transition :=
  let key : CrKey := ⟨.heartbeat, name⟩
  let state := (s.heartbeats.lookup key).getD .zero
  let state' := Lifecycle.recordPing state failed exitCode receivedUnix
  ({ s with heartbeats := s.heartbeats.insert key state' },
    transition name .heartbeat (heartbeatResult (state.evaluate now))
      (heartbeatResult (state'.evaluate now)))

end Store

end SyntheticsOperator.Metrics
