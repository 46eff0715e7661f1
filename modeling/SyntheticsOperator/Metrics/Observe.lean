import Mathlib.Data.Finset.Sort
import Mathlib.Data.String.Basic
import SyntheticsOperator.Metrics.Suppression

/-!
# The scrape

What the observable callback emits.  Maps are iterated in no fixed order, so a
scrape is a multiset, in which each observation is kept with the map key whose
entry it was made for.  The clock is held constant during a scrape.
-/

namespace SyntheticsOperator.Metrics

open SyntheticsOperator.Api (Kind NamespacedName CrKey DependencyRef)
open SyntheticsOperator.Heartbeat
open SyntheticsOperator.Results (StringMap)
open SyntheticsOperator.Support

/-- The observable gauges, by the field names of `instruments`. -/
inductive Instrument where
  -- synthetics_probe
  | probeGauge
  | probeResultInfo
  -- synthetics_probe_suppressed
  | probeSuppressedGauge
  | probeDurationGauge
  | probeLastRunGauge
  | tlsCertExpiryGauge
  | httpStatusCodeGauge
  | httpVersionGauge
  | httpPhaseDurationGauge
  | httpInfoGauge
  | assertionResultGauge
  | dnsResponseMsGauge
  | dnsFirstAnswerValueGauge
  | dnsFirstAnswerTypeGauge
  | dnsAnswerCountGauge
  | dnsAuthorityCountGauge
  | dnsAdditionalCountGauge
  | tcpInfoGauge
  -- synthetics_heartbeat
  | heartbeatGauge
  | heartbeatResultInfo
  -- synthetics_heartbeat_suppressed
  | heartbeatSuppressedGauge
  | heartbeatLastReceived
  | heartbeatPeriodSeconds
  | heartbeatGraceSeconds
  | heartbeatExitCodeGauge
  -- synthetics_test
  | testGauge
  | testResultInfo
  -- synthetics_test_suppressed
  | testSuppressedGauge
  | testDurationGauge
  | testLastRunGauge
  | playwrightCasePassed
  | playwrightCaseDurationMs
  | playwrightCasesTotal
  | playwrightCasesPassed
  | playwrightCasesFailed
deriving DecidableEq

/-- The value of an attribute. -/
inductive AttrValue where
  | string (value : String)
  | int64 (value : Int)
deriving DecidableEq

structure KeyValue where
  key : String
  value : AttrValue
deriving DecidableEq

/-- `attribute.String`. -/
def attrString (key value : String) : KeyValue := ⟨key, .string value⟩

/-- One `observer.ObserveFloat64` call. -/
structure Observation where
  instrument : Instrument
  value : ℚ
  attrs : List KeyValue
deriving DecidableEq

/-- The attributes every observation of a custom resource starts with. -/
def identityAttrs (kind : Kind) (name : NamespacedName) : List KeyValue :=
  [attrString "name" name.name, attrString "namespace" name.ns, attrString "kind" kind.text]

/-- The two attributes of a `*_suppressed` observation. -/
def unhealthyAttrs (dep : DependencyRef) : List KeyValue :=
  [attrString "unhealthy_dependency" dep.name,
    attrString "unhealthy_dependency_kind" dep.kind.text]

def targetAttrs (kind : Kind) (state : ProbeState) : List KeyValue :=
  match kind with
  | .httpProbe => if state.url ≠ "" then [attrString "url" state.url] else []
  | .tcpProbe =>
      if state.tcpHost ≠ "" then
        [attrString "host" state.tcpHost, ⟨"port", .int64 state.tcpPort⟩]
      else []
  | .dnsProbe =>
      (if state.dnsQueryName ≠ "" then [attrString "query" state.dnsQueryName] else []) ++
        (if state.dnsResolver ≠ "" then [attrString "resolver" state.dnsResolver] else [])
  | _ => []

namespace Store

/-- In alphabetical order of the keys. -/
def userLabelsLocked (s : Store) (kind : Kind) (name : NamespacedName) : List KeyValue :=
  let labels : StringMap := (s.metricLabels.lookup ⟨kind, name⟩).getD ∅
  (labels.keys.sort (· ≤ ·)).map fun k => attrString k ((labels.lookup k).getD "")

/-! ## Probes -/

def observeTCP (attrs : List KeyValue) : List Observation :=
  [⟨.tcpInfoGauge, 1, attrs⟩]

def observeHTTP (attrs : List KeyValue) (state : ProbeState) : List Observation :=
  [⟨.httpInfoGauge, 1, attrs ++ [attrString "method" state.method]⟩,
    ⟨.httpStatusCodeGauge, state.httpStatusCode, attrs⟩,
    ⟨.httpVersionGauge, state.httpVersion, attrs⟩] ++
  (if state.tlsCertExpiry > 0 then [⟨.tlsCertExpiryGauge, state.tlsCertExpiry, attrs⟩]
    else []) ++
  [("dns", state.httpPhaseDNSMs), ("connect", state.httpPhaseConnectMs),
    ("tls", state.httpPhaseTLSMs), ("processing", state.httpPhaseProcessingMs),
    ("transfer", state.httpPhaseTransferMs)].map fun ph =>
      ⟨.httpPhaseDurationGauge, ph.2, attrs ++ [attrString "phase" ph.1]⟩

def observeDNS (attrs : List KeyValue) (state : ProbeState) : List Observation :=
  [⟨.dnsResponseMsGauge, state.durationMilliseconds, attrs⟩,
    ⟨.dnsAnswerCountGauge, state.dnsAnswerCount, attrs⟩,
    ⟨.dnsAuthorityCountGauge, state.dnsAuthorityCount, attrs⟩,
    ⟨.dnsAdditionalCountGauge, state.dnsAdditionalCount, attrs⟩] ++
  (if state.dnsFirstAnswerValue ≠ "" then
    [⟨.dnsFirstAnswerValueGauge, 1, attrs ++ [attrString "value" state.dnsFirstAnswerValue]⟩]
    else []) ++
  (if state.dnsFirstAnswerType ≠ "" then
    [⟨.dnsFirstAnswerTypeGauge, 1, attrs ++ [attrString "type" state.dnsFirstAnswerType]⟩]
    else [])

/-- The `*_suppressed` observation of an unhealthy resource, if the walk finds
an unhealthy dependency.  The three families share this block of code. -/
def observeSuppressed (s : Store) (now : Time) (gauge : Instrument) (attrs : List KeyValue)
    (kind : Kind) (name : NamespacedName) (result : Result) : List Observation :=
  if result ≠ .ok then
    match s.findUnhealthyDep now kind name with
    | some dep => [⟨gauge, 1, attrs ++ unhealthyAttrs dep⟩]
    | none => []
  else []

theorem mem_observeSuppressed {s : Store} {now : Time} {gauge : Instrument}
    {attrs : List KeyValue} {kind : Kind} {name : NamespacedName} {result : Result}
    {o : Observation} (h : o ∈ s.observeSuppressed now gauge attrs kind name result) :
    ∃ dep, s.findUnhealthyDep now kind name = some dep ∧
      o = ⟨gauge, 1, attrs ++ unhealthyAttrs dep⟩ := by
  unfold observeSuppressed at h
  split at h
  · split at h
    · rename_i dep hfind
      exact ⟨dep, hfind, List.mem_singleton.mp h⟩
    · cases h
  · cases h

/-- The kind an entry of the probes map is labelled with. -/
def probeKind (state : ProbeState) : Kind :=
  if state.kind.text = "" then .httpProbe else state.kind

def observeProbe (s : Store) (now : Time) (name : NamespacedName) (state : ProbeState) :
    List Observation :=
  let kind := probeKind state
  let attrs := identityAttrs kind name ++ targetAttrs kind state ++ s.userLabelsLocked kind name
  [⟨.probeGauge, state.result.successValue, attrs⟩,
    ⟨.probeResultInfo, 1, attrs ++ [attrString "result" state.result.text,
      attrString "failed_assertion" state.failedAssertion]⟩,
    ⟨.probeDurationGauge, state.durationMilliseconds, attrs⟩,
    ⟨.probeLastRunGauge, state.lastRunTimestamp, attrs⟩] ++
  s.observeSuppressed now .probeSuppressedGauge attrs kind name state.result ++
  (state.assertionResults.map fun ar =>
    ⟨.assertionResultGauge, ar.result,
      attrs ++ [attrString "assertion" ar.name, attrString "expr" ar.expr]⟩) ++
  match kind with
  | .httpProbe => observeHTTP attrs state
  | .dnsProbe => observeDNS attrs state
  | .tcpProbe => observeTCP attrs
  | _ => []

/-! ## Tests -/

def observePlaywright (attrs : List KeyValue) (state : TestState) : List Observation :=
  let passed := state.playwrightTests.countP (·.passed)
  let failed := state.playwrightTests.countP (!·.passed)
  (state.playwrightTests.flatMap fun tc =>
    let caseAttrs := attrs ++ [attrString "suite" tc.suite, attrString "test" tc.test]
    [⟨.playwrightCasePassed, if tc.passed then 1 else 0, caseAttrs⟩,
      ⟨.playwrightCaseDurationMs, tc.durationMs, caseAttrs⟩]) ++
  [⟨.playwrightCasesTotal, state.playwrightTests.length, attrs⟩,
    ⟨.playwrightCasesPassed, passed, attrs⟩,
    ⟨.playwrightCasesFailed, failed, attrs⟩]

def observeTest (s : Store) (now : Time) (name : NamespacedName) (state : TestState) :
    List Observation :=
  let attrs := identityAttrs state.kind name ++ s.userLabelsLocked state.kind name
  [⟨.testGauge, state.result.successValue, attrs⟩,
    ⟨.testResultInfo, 1, attrs ++ [attrString "result" state.result.text]⟩,
    ⟨.testDurationGauge, state.durationMilliseconds, attrs⟩,
    ⟨.testLastRunGauge, state.lastRunTimestamp, attrs⟩] ++
  s.observeSuppressed now .testSuppressedGauge attrs state.kind name state.result ++
  if state.kind = .playwrightTest then observePlaywright attrs state else []

/-! ## Heartbeats -/

def observeHeartbeat (s : Store) (now : Time) (name : NamespacedName) (state : Lifecycle.State) :
    List Observation :=
  if state.suspended then []
  else
    let attrs := identityAttrs .heartbeat name ++ s.userLabelsLocked .heartbeat name
    let result := heartbeatResult (state.evaluate now)
    [⟨.heartbeatGauge, result.successValue, attrs⟩,
      ⟨.heartbeatResultInfo, 1, attrs ++ [attrString "result" result.text]⟩,
      ⟨.heartbeatLastReceived, state.lastPingUnix, attrs⟩,
      ⟨.heartbeatPeriodSeconds, state.periodSeconds, attrs⟩,
      ⟨.heartbeatGraceSeconds, state.graceSeconds, attrs⟩,
      ⟨.heartbeatExitCodeGauge, state.exitCode, attrs⟩] ++
    s.observeSuppressed now .heartbeatSuppressedGauge attrs .heartbeat name result

/-! ## The callback -/

/-- The observations made for the entries of one map. -/
def observeEach {V : Type} (entries : Finmap fun _ : CrKey => V)
    (observe : NamespacedName → V → List Observation) : Multiset (CrKey × Observation) :=
  entries.entries.bind fun e => ((observe e.1.name e.2).map (Prod.mk e.1) : List _)

/-- The callback of `registerCallback`. -/
def scrape (s : Store) (now : Time) : Multiset (CrKey × Observation) :=
  observeEach s.probes (s.observeProbe now) +
    observeEach s.tests (s.observeTest now) +
    observeEach s.heartbeats (s.observeHeartbeat now)

theorem mem_observeEach {V : Type} {entries : Finmap fun _ : CrKey => V}
    {observe : NamespacedName → V → List Observation} {key : CrKey} {o : Observation} :
    (key, o) ∈ observeEach entries observe ↔
      ∃ state, entries.lookup key = some state ∧ o ∈ observe key.name state := by
  simp only [observeEach, Multiset.mem_bind, Multiset.mem_coe, List.mem_map, Prod.mk.injEq]
  constructor
  · rintro ⟨e, he, o', ho', rfl, rfl⟩
    exact ⟨e.2, Finmap.lookup_eq_some_iff.mpr he, ho'⟩
  · rintro ⟨state, hstate, ho⟩
    exact ⟨⟨key, state⟩, Finmap.lookup_eq_some_iff.mp hstate, o, ho, rfl, rfl⟩

theorem mem_scrape {s : Store} {now : Time} {key : CrKey} {o : Observation} :
    (key, o) ∈ s.scrape now ↔
      (∃ state, s.probes.lookup key = some state ∧ o ∈ s.observeProbe now key.name state) ∨
      (∃ state, s.tests.lookup key = some state ∧ o ∈ s.observeTest now key.name state) ∨
      (∃ state, s.heartbeats.lookup key = some state ∧
        o ∈ s.observeHeartbeat now key.name state) := by
  simp only [scrape, Multiset.mem_add, mem_observeEach, or_assoc]

end Store

end SyntheticsOperator.Metrics
