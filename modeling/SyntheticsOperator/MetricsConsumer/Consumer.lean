import SyntheticsOperator.Api.Types
import SyntheticsOperator.Metrics.Observe

/-!
# The metrics consumer

The four subscriptions of the consumer and their handlers.  Each stream keeps
its own order and nothing orders one against another, so what the store has
processed is a list of messages in which the streams are interleaved.
-/

namespace SyntheticsOperator.MetricsConsumer

open SyntheticsOperator.Api (CrKey HeartbeatStatus Kind NamespacedName)
open SyntheticsOperator.Metrics
open SyntheticsOperator.Results (SpecUpdate ProbeResult TestResult HeartbeatPing)
open SyntheticsOperator.Support

def toAPIDepends (deps : List Results.DependencyRef) : List Api.DependencyRef :=
  deps.map fun d => ⟨d.kind, d.name⟩

def onSpec (store : Store) (msg : SpecUpdate) : Store :=
  let name : NamespacedName := ⟨msg.ns, msg.name⟩
  if msg.deleted then
    let store := store.delete msg.kind name
    let store := store.clearDepends msg.kind name
    store.clearMetricLabels msg.kind name
  else
    let store := store.setDepends msg.kind name (toAPIDepends msg.depends)
    let store := store.setMetricLabels msg.kind name msg.metricLabels
    match msg.kind, msg.heartbeat with
    | .heartbeat, some payload =>
        store.setHeartbeatSpec name (payload.periodMs / 1000) (payload.graceMs / 1000)
          msg.suspend payload.lastPingUnix (payload.lastResult = HeartbeatStatus.resultFailed)
    | _, _ => store

/-- A live Heartbeat spec with a payload writes one heartbeat entry. -/
theorem onSpec_heartbeats (store : Store) {msg : SpecUpdate}
    {payload : Results.HeartbeatSpecPayload} (hkind : msg.kind = .heartbeat)
    (hlive : msg.deleted = false) (hpayload : msg.heartbeat = some payload) :
    (onSpec store msg).heartbeats = store.heartbeats.insert ⟨.heartbeat, ⟨msg.ns, msg.name⟩⟩
      (Heartbeat.Lifecycle.applySpec
        ((store.heartbeats.lookup ⟨.heartbeat, ⟨msg.ns, msg.name⟩⟩).getD .zero)
        (store.heartbeats.lookup ⟨.heartbeat, ⟨msg.ns, msg.name⟩⟩).isSome
        (payload.periodMs / 1000) (payload.graceMs / 1000) msg.suspend
        ⟨payload.lastPingUnix, payload.lastResult = HeartbeatStatus.resultFailed⟩) := by
  simp only [onSpec, hlive, hkind, hpayload, Bool.false_eq_true, if_false, Store.setHeartbeatSpec,
    Store.setMetricLabels_heartbeats, Store.setDepends_heartbeats]

def onHeartbeatPing (store : Store) (now : Time) (msg : HeartbeatPing) :
    Store × Option Transition :=
  store.recordHeartbeatPing now ⟨msg.ns, msg.name⟩ msg.failed msg.exitCode msg.receivedAt.unix

def probeState (msg : ProbeResult) : ProbeState where
  kind := msg.kind
  result := .ofText msg.result
  failedAssertion := msg.failedAssertion
  durationMilliseconds := msg.durationMs
  lastRunTimestamp := msg.timestamp.unix
  httpStatusCode := msg.httpStatusCode
  httpVersion := msg.httpVersion
  url := msg.url
  method := msg.method
  tlsCertExpiry := if msg.tlsCertExpiryUnix > 0 then msg.tlsCertExpiryUnix else 0
  httpPhaseDNSMs := msg.httpPhaseDNSMs
  httpPhaseConnectMs := msg.httpPhaseConnectMs
  httpPhaseTLSMs := msg.httpPhaseTLSMs
  httpPhaseProcessingMs := msg.httpPhaseProcessingMs
  httpPhaseTransferMs := msg.httpPhaseTransferMs
  assertionResults := msg.assertionResults
  dnsQueryName := msg.dnsQueryName
  dnsResolver := msg.dnsResolver
  dnsFirstAnswerValue := msg.dnsFirstAnswerValue
  dnsFirstAnswerType := msg.dnsFirstAnswerType
  dnsAnswerCount := msg.dnsAnswerCount
  dnsAuthorityCount := msg.dnsAuthorityCount
  dnsAdditionalCount := msg.dnsAdditionalCount
  tcpHost := msg.tcpHost
  tcpPort := msg.tcpPort

def onProbeResult (store : Store) (msg : ProbeResult) : Store × Option Transition :=
  store.upsert ⟨msg.ns, msg.name⟩ (probeState msg)

def onTestResult (store : Store) (msg : TestResult) : Store × Option Transition :=
  let name : NamespacedName := ⟨msg.ns, msg.name⟩
  if msg.kind = .playwrightTest then
    store.recordPlaywrightResult name msg.success msg.durationMs msg.timestamp.unix msg.tests
  else
    store.recordTestResult name msg.kind msg.success msg.durationMs msg.timestamp.unix

/-- Both branches write one entry, under the identity of the message. -/
theorem onTestResult_eq (store : Store) (msg : TestResult) :
    ∃ state : TestState, msg.key = ⟨state.kind, ⟨msg.ns, msg.name⟩⟩ ∧
      onTestResult store msg = store.upsertTest ⟨msg.ns, msg.name⟩ state := by
  unfold onTestResult
  split
  · rename_i hkind
    exact ⟨_, by rw [TestResult.key, hkind], rfl⟩
  · exact ⟨_, rfl, rfl⟩

/-! ## Processed messages -/

/-- A message of one of the four streams.  `now` is what the store's clock reads
while a ping is recorded; it only decides whether a callback fires. -/
inductive Message where
  | spec (msg : SpecUpdate)
  | probeResult (msg : ProbeResult)
  | testResult (msg : TestResult)
  | ping (now : Time) (msg : HeartbeatPing)

/-- The identity a message is about. -/
def Message.key : Message → CrKey
  | .spec msg => msg.key
  | .probeResult msg => msg.key
  | .testResult msg => msg.key
  | .ping _ msg => msg.key

/-- A probe result, a test result or a ping. -/
def Message.isResult : Message → Bool
  | .spec _ => false
  | _ => true

/-- Every handler runs to its end before the store is observed. -/
def handle (store : Store) : Message → Store
  | .spec msg => onSpec store msg
  | .probeResult msg => (onProbeResult store msg).1
  | .testResult msg => (onTestResult store msg).1
  | .ping now msg => (onHeartbeatPing store now msg).1

/-- The store after a list of messages. -/
def run (store : Store) (messages : List Message) : Store :=
  messages.foldl handle store

theorem run_snoc (store : Store) (messages : List Message) (m : Message) :
    run store (messages ++ [m]) = handle (run store messages) m :=
  List.foldl_concat ..

end SyntheticsOperator.MetricsConsumer
