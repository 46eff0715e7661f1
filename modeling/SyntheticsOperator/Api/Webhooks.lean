import Mathlib.Data.Finset.Sort
import Mathlib.Data.String.Basic
import SyntheticsOperator.Api.AssertionExpr
import SyntheticsOperator.Api.Library
import SyntheticsOperator.Api.Types

/-!
# Admission

The defaulting and the validating webhooks of the six kinds.  A validation returns the
list of its field errors; an empty list is a nil error.
-/

namespace SyntheticsOperator.Api

open SyntheticsOperator.Results (StringMap)
open SyntheticsOperator.Support

/-! ## Intervals -/

/-- `none` is a nil error. -/
def validateMinuteInterval (totalMinutes : Int) : Option String :=
  if totalMinutes < 60 then
    if 60 % totalMinutes ≠ 0 then
      some ("sub-hour intervals must evenly divide 60 " ++
        "(valid: 2m, 3m, 4m, 5m, 6m, 10m, 12m, 15m, 20m, 30m)")
    else none
  else if totalMinutes % 60 ≠ 0 then some "intervals >= 1h must be whole hours"
  else if totalMinutes / 60 > 24 ∨ 24 % (totalMinutes / 60) ≠ 0 then
    some ("hour intervals must evenly divide 24 " ++
      "(valid: 1h, 2h, 3h, 4h, 6h, 8h, 12h, 24h)")
  else none

/-- `int(d.Minutes())`.  Rounding in `float64` could show only far beyond 24 hours,
where every value is refused. -/
def minutes (d : Duration) : Int := Int.tdiv d 60000000000

/-- Any positive duration below a minute, else what cron can express. -/
def validateProbeInterval (d : Duration) : Option String :=
  if d ≤ 0 then some "must be greater than zero"
  else if d < 60000000000 then none
  else validateMinuteInterval (minutes d)

/-- What cron can express, for the kinds that run as CronJobs. -/
def validateCronInterval (d : Duration) : Option String :=
  if minutes d < 1 then some "must be at least 1m (cron resolution)"
  else validateMinuteInterval (minutes d)

/-- The checks on `spec.interval` and `spec.timeout` that open all three probe
validations. -/
def validateTiming (interval timeout : Duration) : List FieldError :=
  (match validateProbeInterval interval with
    | some err => [.invalid "spec.interval" (.duration interval) err]
    | none => []) ++
  (if timeout ≤ 0 then
    [.invalid "spec.timeout" (.duration timeout) "must be greater than zero"]
  else []) ++
  (if interval > 0 ∧ timeout > interval then
    [.invalid "spec.timeout" (.duration timeout) "must be less than or equal to interval"]
  else [])

/-- The interval and the timeout after defaulting: a default timeout does not exceed
the interval. -/
def defaultIntervalTimeout (interval timeout : Duration) : Duration × Duration :=
  let interval := if interval = 0 then 30000000000 else interval
  let timeout := if timeout = 0 then min 10000000000 interval else timeout
  (interval, timeout)

/-! ## Metric labels -/

/-- `^[a-zA-Z_][a-zA-Z0-9_]*$` -/
def promLabelName (key : String) : Bool :=
  match key.toList with
  | [] => false
  | c :: rest =>
      (c.isAlpha || c == '_') && rest.all fun c => c.isAlphanum || c == '_'

def isSystemLabel (key : String) : Bool :=
  ["name", "namespace", "kind", "result", "failed_assertion", "url", "method", "phase", "query",
    "resolver", "assertion", "expr", "value", "type", "suite", "test", "host", "port", "outcome",
    "unhealthy_dependency", "unhealthy_dependency_kind", "__name__", "le", "quantile", "job",
    "instance"].contains key

/-- One turn of the loop over the labels. -/
def validateMetricLabel (path key : String) : Option FieldError :=
  let fp := path ++ "[" ++ key ++ "]"
  if !promLabelName key then
    some (.invalid fp (.text key)
      "must match Prometheus label name format [a-zA-Z_][a-zA-Z0-9_]*")
  else if "__".toList.isPrefixOf key.toList then
    some (.invalid fp (.text key) "labels starting with __ are reserved by Prometheus")
  else if isSystemLabel key then
    some (.invalid fp (.text key) "collides with a system label emitted by the operator")
  else none

/-- The source ranges over a map, in no particular order; here the last key comes first. -/
def validateMetricLabels (labels : StringMap) (path : String) : List FieldError :=
  (labels.keys.sort (· ≥ ·)).filterMap (validateMetricLabel path)

theorem validateMetricLabels_eq_nil_iff (labels : StringMap) (path : String) :
    validateMetricLabels labels path = [] ↔
      ∀ key ∈ labels, validateMetricLabel path key = none := by
  simp only [validateMetricLabels, List.filterMap_eq_nil_iff, Finset.mem_sort, Finmap.mem_keys]

/-- `field.NewPath("spec", "metricLabels")`. -/
def metricLabelsPath : String := "spec.metricLabels"

section Validate

variable {F : Type} (lib : Library F)

/-! ## Assertions -/

/-- The loop body for the assertion at index `i`. -/
def validateAssertion (vars : List String) (a : Assertion) (i : Nat) : List FieldError :=
  let fp := "spec.assertions[" ++ toString i ++ "]"
  (if a.name = "" then [.required (fp ++ ".name") "assertion name is required"] else []) ++
  (match validateAssertionExpr lib.parseFloat a.expr vars with
    | some err => [.invalid (fp ++ ".expr") (.text a.expr) err]
    | none => [])

def validateAssertions (vars : List String) (assertions : List Assertion) : List FieldError :=
  assertions.zipIdx.flatMap fun (a, i) => validateAssertion lib vars a i

/-- The two checks that close all validations. -/
def validateShared (reader : Reader) (owner : CrKey) (depends : List DependencyRef)
    (metricLabels : StringMap) : List FieldError :=
  validateDepends lib.isDNS1123Subdomain reader owner depends dependsPath ++
    validateMetricLabels metricLabels metricLabelsPath

@[simp] theorem validateShared_nil (reader : Reader) (owner : CrKey) :
    validateShared lib reader owner [] ∅ = [] := by
  have hlabels : validateMetricLabels ∅ metricLabelsPath = [] :=
    (validateMetricLabels_eq_nil_iff ∅ _).mpr fun _ h => absurd h Finmap.notMem_empty
  rw [validateShared, hlabels]
  rfl

/-! ## HTTPProbe -/

/-- `HTTPProbe.Default`. -/
def HTTPProbe.default (p : HTTPProbe) : HTTPProbe :=
  let (interval, timeout) := defaultIntervalTimeout p.spec.interval p.spec.timeout
  { p with
    spec := { p.spec with
      interval := interval
      timeout := timeout
      request := { p.spec.request with
        method := if p.spec.request.method = "" then "GET" else p.spec.request.method } } }

/-- The URL has to be absolute, with the scheme `http` or `https`. -/
def validateURL (url : String) : List FieldError :=
  match lib.parseURL url with
  | none => [.invalid "spec.request.url" (.text url) "must be a valid absolute URL"]
  | some parsed =>
      if parsed.scheme = "" ∨ parsed.host = "" then
        [.invalid "spec.request.url" (.text url) "must be a valid absolute URL"]
      else if parsed.scheme ≠ "http" ∧ parsed.scheme ≠ "https" then
        [.notSupported "spec.request.url" parsed.scheme ["http", "https"]]
      else []

/-- The loop body for the header at index `i`. -/
def validateHeaderFrom (h : HeaderFromSource) (i : Nat) : List FieldError :=
  let fp := "spec.request.headersFrom[" ++ toString i ++ "]"
  (if h.name = "" then [.required (fp ++ ".name") "header name is required"] else []) ++
  (if h.secretKeyRef.name = "" then
    [.required (fp ++ ".secretKeyRef.name") "secret name is required"] else []) ++
  (if h.secretKeyRef.key = "" then
    [.required (fp ++ ".secretKeyRef.key") "secret key is required"] else [])

def validateTLS : Option TLSConfig → List FieldError
  | none => []
  | some tls =>
      if tls.caCert ≠ "" ∧ lib.appendCertsFromPEM tls.caCert = false then
        [.invalid "spec.tls.caCert" (.text "<pem>") "must be a valid PEM-encoded certificate"]
      else []

def HTTPProbe.validate (reader : Reader) (p : HTTPProbe) : List FieldError :=
  validateTiming p.spec.interval p.spec.timeout ++
  (if p.spec.request.method = "" then
    [.required "spec.request.method" "method is required"] else []) ++
  validateURL lib p.spec.request.url ++
  p.spec.request.headersFrom.zipIdx.flatMap (fun (h, i) => validateHeaderFrom h i) ++
  validateAssertions lib httpAssertionVars p.spec.assertions ++
  validateTLS lib p.spec.tls ++
  validateShared lib reader ⟨.httpProbe, ⟨p.ns, p.name⟩⟩ p.spec.depends p.spec.metricLabels

/-- An HTTPProbe is admitted when it passes every check. -/
theorem HTTPProbe.validate_eq_nil_iff {reader : Reader} {p : HTTPProbe} :
    p.validate lib reader = [] ↔
      validateTiming p.spec.interval p.spec.timeout = [] ∧
      p.spec.request.method ≠ "" ∧
      validateURL lib p.spec.request.url = [] ∧
      p.spec.request.headersFrom.zipIdx.flatMap (fun (h, i) => validateHeaderFrom h i) = [] ∧
      validateAssertions lib httpAssertionVars p.spec.assertions = [] ∧
      validateTLS lib p.spec.tls = [] ∧
      validateShared lib reader ⟨.httpProbe, ⟨p.ns, p.name⟩⟩ p.spec.depends p.spec.metricLabels =
        [] := by
  simp only [HTTPProbe.validate, List.append_eq_nil_iff, ite_eq_right_iff, List.cons_ne_nil,
    imp_false, and_assoc, ne_eq]

/-! ## DNSProbe -/

/-- `DNSProbe.Default`. -/
def DNSProbe.default (p : DNSProbe) : DNSProbe :=
  let (interval, timeout) := defaultIntervalTimeout p.spec.interval p.spec.timeout
  { p with
    spec := { p.spec with
      interval := interval
      timeout := timeout
      query := { p.spec.query with
        type := if p.spec.query.type = "" then "A" else p.spec.query.type } } }

def dnsTypes : List String := ["A", "AAAA", "CNAME", "MX", "TXT", "NS", "PTR"]

/-- The resolver is left out, or `host:port` with neither part empty. -/
def validateResolver (resolver : String) : List FieldError :=
  if resolver = "" then []
  else
    match lib.splitHostPort resolver with
    | some (host, port) =>
        if host = "" ∨ port = "" then
          [.invalid "spec.query.resolver" (.text resolver) "must be in host:port format"]
        else []
    | none => [.invalid "spec.query.resolver" (.text resolver) "must be in host:port format"]

def DNSProbe.validate (reader : Reader) (p : DNSProbe) : List FieldError :=
  validateTiming p.spec.interval p.spec.timeout ++
  (if Texts.trimSpace p.spec.query.name = "" then
    [.required "spec.query.name" "must be non-empty"] else []) ++
  (if lib.toUpper p.spec.query.type ∉ dnsTypes then
    [.notSupported "spec.query.type" p.spec.query.type dnsTypes] else []) ++
  validateResolver lib p.spec.query.resolver ++
  validateAssertions lib dnsAssertionVars p.spec.assertions ++
  validateShared lib reader ⟨.dnsProbe, ⟨p.ns, p.name⟩⟩ p.spec.depends p.spec.metricLabels

theorem DNSProbe.validate_eq_nil_iff {reader : Reader} {p : DNSProbe} :
    p.validate lib reader = [] ↔
      validateTiming p.spec.interval p.spec.timeout = [] ∧
      Texts.trimSpace p.spec.query.name ≠ "" ∧
      lib.toUpper p.spec.query.type ∈ dnsTypes ∧
      validateResolver lib p.spec.query.resolver = [] ∧
      validateAssertions lib dnsAssertionVars p.spec.assertions = [] ∧
      validateShared lib reader ⟨.dnsProbe, ⟨p.ns, p.name⟩⟩ p.spec.depends p.spec.metricLabels =
        [] := by
  simp only [DNSProbe.validate, List.append_eq_nil_iff, ite_eq_right_iff, List.cons_ne_nil,
    imp_false, and_assoc, ne_eq, not_not]

/-! ## TCPProbe -/

/-- `TCPProbe.Default`. -/
def TCPProbe.default (p : TCPProbe) : TCPProbe :=
  let (interval, timeout) := defaultIntervalTimeout p.spec.interval p.spec.timeout
  { p with
    spec := { p.spec with
      interval := interval
      timeout := timeout
      target := { p.spec.target with host := Texts.trimSpace p.spec.target.host } } }

/-- An IP address, or a name with at most one dot at its end. -/
def validateHost (declared : String) : List FieldError :=
  let host := Texts.trimSpace declared
  if host = "" then [.required "spec.target.host" "host is required"]
  else if lib.parseIP host then []
  else if lib.isDNS1123Subdomain (Texts.trimSuffix "." host) ≠ [] then
    [.invalid "spec.target.host" (.text declared)
      ("must be a DNS hostname, IPv4 address, or IPv6 address without a scheme or port")]
  else []

def TCPProbe.validate (reader : Reader) (p : TCPProbe) : List FieldError :=
  validateTiming p.spec.interval p.spec.timeout ++
  validateHost lib p.spec.target.host ++
  (if p.spec.target.port < 1 ∨ p.spec.target.port > 65535 then
    [.invalid "spec.target.port" (.int p.spec.target.port) "must be between 1 and 65535"]
  else []) ++
  validateAssertions lib tcpAssertionVars p.spec.assertions ++
  validateShared lib reader ⟨.tcpProbe, ⟨p.ns, p.name⟩⟩ p.spec.depends p.spec.metricLabels

theorem TCPProbe.validate_eq_nil_iff {reader : Reader} {p : TCPProbe} :
    p.validate lib reader = [] ↔
      validateTiming p.spec.interval p.spec.timeout = [] ∧
      validateHost lib p.spec.target.host = [] ∧
      ¬ (p.spec.target.port < 1 ∨ p.spec.target.port > 65535) ∧
      validateAssertions lib tcpAssertionVars p.spec.assertions = [] ∧
      validateShared lib reader ⟨.tcpProbe, ⟨p.ns, p.name⟩⟩ p.spec.depends p.spec.metricLabels =
        [] := by
  simp only [TCPProbe.validate, List.append_eq_nil_iff, ite_eq_right_iff, List.cons_ne_nil,
    imp_false, and_assoc]

/-! ## K6Test and PlaywrightTest -/

def defaultHour (d : Duration) : Duration := if d = 0 then 3600000000000 else d

/-- `K6Test.Default`. -/
def K6Test.default (t : K6Test) : K6Test :=
  { t with
    spec := { t.spec with
      interval := defaultHour t.spec.interval
      ttlAfterFinished := defaultHour t.spec.ttlAfterFinished
      k6Version := if t.spec.k6Version = "" then "0.50.0" else t.spec.k6Version } }

/-- `PlaywrightTest.Default`. -/
def PlaywrightTest.default (t : PlaywrightTest) : PlaywrightTest :=
  { t with
    spec := { t.spec with
      interval := defaultHour t.spec.interval
      ttlAfterFinished := defaultHour t.spec.ttlAfterFinished } }

def validateTestInterval (interval : Duration) : List FieldError :=
  match validateCronInterval interval with
  | some err => [.invalid "spec.interval" (.duration interval) err]
  | none => []

def validateScript (script : ScriptRef) : List FieldError :=
  (if script.configMap.name = "" then
    [.required "spec.script.configMap.name" "configMap name is required"] else []) ++
  (if script.configMap.key = "" then
    [.required "spec.script.configMap.key" "configMap key is required"] else [])

def K6Test.validate (reader : Reader) (t : K6Test) : List FieldError :=
  validateTestInterval t.spec.interval ++
  (if t.spec.k6Version = "" then [.required "spec.k6Version" "k6Version is required"] else []) ++
  validateScript t.spec.script ++
  validateShared lib reader ⟨.k6Test, ⟨t.ns, t.name⟩⟩ t.spec.depends t.spec.metricLabels

def PlaywrightTest.validate (reader : Reader) (t : PlaywrightTest) : List FieldError :=
  validateTestInterval t.spec.interval ++
  validateScript t.spec.script ++
  validateShared lib reader ⟨.playwrightTest, ⟨t.ns, t.name⟩⟩ t.spec.depends t.spec.metricLabels

theorem validateTestInterval_eq_nil_iff {interval : Duration} :
    validateTestInterval interval = [] ↔ validateCronInterval interval = none := by
  unfold validateTestInterval
  cases validateCronInterval interval <;> simp

theorem K6Test.validateCronInterval_of_validate {reader : Reader} {t : K6Test}
    (h : t.validate lib reader = []) : validateCronInterval t.spec.interval = none := by
  simp only [K6Test.validate, List.append_eq_nil_iff] at h
  exact validateTestInterval_eq_nil_iff.mp h.1.1.1

theorem PlaywrightTest.validateCronInterval_of_validate {reader : Reader} {t : PlaywrightTest}
    (h : t.validate lib reader = []) : validateCronInterval t.spec.interval = none := by
  simp only [PlaywrightTest.validate, List.append_eq_nil_iff] at h
  exact validateTestInterval_eq_nil_iff.mp h.1.1

/-! ## Heartbeat -/

def minHeartbeatPeriod : Duration := 1000000000

/-- `Heartbeat.Default`: a grace of zero becomes the period. -/
def Heartbeat.default (h : Heartbeat) : Heartbeat :=
  { h with
    spec := { h.spec with
      grace := if h.spec.grace = 0 then h.spec.period else h.spec.grace
      tokenSecretRef := h.spec.tokenSecretRef.map fun ref =>
        if ref.key = "" then { ref with key := "token" } else ref } }

def validateTokenSecretRef : Option TokenSecretRef → List FieldError
  | none => []
  | some ref =>
      (if ref.name = "" then [.required "spec.tokenSecretRef.name" "name is required"]
      else if lib.isDNS1123Subdomain ref.name ≠ [] then
        [.invalid "spec.tokenSecretRef.name" (.text ref.name) "must be a valid Secret name"]
      else []) ++
      (if ref.key ≠ "" ∧ lib.isConfigMapKey ref.key ≠ [] then
        [.invalid "spec.tokenSecretRef.key" (.text ref.key) "must be a valid Secret key"]
      else [])

def Heartbeat.validate (reader : Reader) (h : Heartbeat) : List FieldError :=
  (if h.spec.period ≤ 0 then
    [.required "spec.period" "period is required and must be greater than zero"]
  else if h.spec.period < minHeartbeatPeriod then
    [.invalid "spec.period" (.duration h.spec.period) "must be at least 1s"]
  else []) ++
  (if h.spec.grace < 0 then
    [.invalid "spec.grace" (.duration h.spec.grace) "must not be negative"] else []) ++
  validateTokenSecretRef lib h.spec.tokenSecretRef ++
  validateShared lib reader ⟨.heartbeat, ⟨h.ns, h.name⟩⟩ h.spec.depends h.spec.metricLabels

theorem Heartbeat.validate_eq_nil_iff {reader : Reader} {h : Heartbeat} :
    h.validate lib reader = [] ↔
      minHeartbeatPeriod ≤ h.spec.period ∧
      0 ≤ h.spec.grace ∧
      validateTokenSecretRef lib h.spec.tokenSecretRef = [] ∧
      validateShared lib reader ⟨.heartbeat, ⟨h.ns, h.name⟩⟩ h.spec.depends h.spec.metricLabels =
        [] := by
  have hperiod : (if h.spec.period ≤ 0 then
      [FieldError.required "spec.period" "period is required and must be greater than zero"]
    else if h.spec.period < minHeartbeatPeriod then
      [.invalid "spec.period" (.duration h.spec.period) "must be at least 1s"]
    else []) = [] ↔ minHeartbeatPeriod ≤ h.spec.period := by
    split
    · rename_i hle
      have hlt : h.spec.period < minHeartbeatPeriod := lt_of_le_of_lt hle (by decide)
      exact iff_of_false (List.cons_ne_nil _ _) (not_le.mpr hlt)
    · simp only [ite_eq_right_iff, List.cons_ne_nil, imp_false, not_lt]
  simp only [Heartbeat.validate, List.append_eq_nil_iff, hperiod, ite_eq_right_iff,
    List.cons_ne_nil, imp_false, not_lt, and_assoc]

end Validate

/-- `Heartbeat.Deadline`: when the next ping is late. -/
def Heartbeat.deadline (h : Heartbeat) (lastPing : Time) : Time :=
  let grace := if h.spec.grace ≤ 0 then h.spec.period else h.spec.grace
  ⟨lastPing.nanos + (h.spec.period + grace)⟩

end SyntheticsOperator.Api
