import Mathlib.Algebra.Order.Ring.Unbundled.Rat
import SyntheticsOperator.Controllers.Probes
import SyntheticsOperator.Prober.Worker

/-!
# Configuration errors of admitted probes

The webhooks and the executors check the same fields with separate code.  For each
check of a webhook there is a lemma that says what passing it means, and for each
executor one that says when its result is `config_error`.
-/

namespace SyntheticsOperator.Proofs.Configuration

open SyntheticsOperator.Api
open SyntheticsOperator.Controllers
open SyntheticsOperator.Prober
open SyntheticsOperator.Probes
open SyntheticsOperator.Results (ProbeJob HTTPProbeSpecPayload DNSProbeSpecPayload
  TCPProbeSpecPayload)
open SyntheticsOperator.Support

/-! ## What admission checked -/

section Admitted

variable {F : Type} {lib : Library F}

theorem of_validateURL {url : String} (h : validateURL lib url = []) :
    ∃ parsed, lib.parseURL url = some parsed ∧ ¬ (parsed.scheme = "" ∨ parsed.host = "") := by
  unfold validateURL at h
  split at h
  · cases h
  · rename_i parsed hparsed
    split at h
    · cases h
    · rename_i habsolute
      exact ⟨parsed, hparsed, habsolute⟩

theorem of_validateResolver {resolver : String} (h : validateResolver lib resolver = [])
    (hset : resolver ≠ "") :
    ∃ host port, lib.splitHostPort resolver = some (host, port) ∧ ¬ (host = "" ∨ port = "") := by
  unfold validateResolver at h
  rw [if_neg hset] at h
  split at h
  · rename_i host port hsplit
    split at h
    · cases h
    · rename_i hparts
      exact ⟨host, port, hsplit, hparts⟩
  · cases h

theorem of_validateHost {host : String} (h : validateHost lib host = []) :
    Texts.trimSpace host ≠ "" := by
  intro hempty
  unfold validateHost at h
  dsimp only at h
  rw [if_pos hempty] at h
  cases h

/-- The TLS configuration of the payload builds a client. -/
theorem of_validateTLS {tls : Option TLSConfig} (h : validateTLS lib tls = []) :
    (tls.map fun c => (⟨c.insecureSkipVerify, c.caCert⟩ : Results.TLSConfig)).any
      (fun config => !buildTLSClient lib config) = false := by
  cases tls with
  | none => rfl
  | some config =>
      simp only [validateTLS, ite_eq_right_iff, List.cons_ne_nil, imp_false, not_and,
        Bool.not_eq_false] at h
      simp only [Option.map_some, Option.any_some, buildTLSClient, Bool.not_eq_false',
        Bool.or_eq_true, decide_eq_true_eq]
      by_cases hempty : config.caCert = ""
      · exact .inl hempty
      · exact .inr (h hempty)

end Admitted

/-! ## Results that are not `config_error` -/

/-- The results of runs that got no answer. -/
def failureResults : List String :=
  ["dns_failed", "tls_failed", "connect_timeout", "connect_refused", "connect_failed",
    "recv_timeout"]

theorem classifyHTTPTransport_mem (err : NetError) :
    classifyHTTPTransport err ∈ failureResults := by
  unfold classifyHTTPTransport
  repeat' split
  all_goals decide

theorem classifyTCPConnect_mem (err : NetError) : classifyTCPConnect err ∈ failureResults := by
  unfold classifyTCPConnect
  repeat' split
  all_goals decide

theorem mem_failureResults {α : Type} {classify : α → String} {err : Option α}
    (h : ∀ e, classify e ∈ failureResults) :
    ∀ result ∈ err.map classify, result ∈ failureResults := by
  intro result hresult
  obtain ⟨e, -, he⟩ := Option.map_eq_some_iff.mp hresult
  exact he ▸ h e

/-- A run ends with `config_error` only if its raw result says so. -/
theorem conclude_result_iff (out : Results.ProbeResult) (configError : Bool)
    {failure : Option String} (assertions : List Results.Assertion) (loop : AssertionsLoop)
    (hfailure : ∀ result ∈ failure, result ∈ failureResults) :
    (conclude out configError failure assertions loop.outcome).result ≠ "config_error" ↔
      configError = false := by
  have hother : ∀ result ∈ failureResults ++ ["ok", "assertion_failed"],
      result ≠ "config_error" := by decide
  rcases conclude_cases out configError failure assertions loop with
    ⟨hconfig, hresult⟩ | ⟨hconfig, hresult⟩ | ⟨hconfig, -, hresult⟩
  · exact iff_of_false (fun hne => hne hresult) (by simp [hconfig])
  · exact iff_of_true (hother _ (List.mem_append_left _ (hfailure _ hresult))) hconfig
  · exact iff_of_true (hother _ (List.mem_append_right _ (by simpa using hresult))) hconfig

/-! ## The executors -/

section Executors

variable {F : Type} [BEq F] [LT F] [LE F] [DecidableLT F] [DecidableLE F] {lib : Library F}

theorem executeHTTP_result_iff {w : World} {job : ProbeJob} {payload : HTTPProbeSpecPayload}
    (h : job.spec.httpProbe = some payload) :
    (executeHTTP lib w job).result ≠ "config_error" ↔
      (executeRequest lib w (runContext w.ctx w.created payload.timeoutMs)
        ⟨payload.url, payload.method, payload.headers, payload.body, payload.tls⟩).configError =
        false := by
  simp only [executeHTTP, h]
  exact conclude_result_iff _ _ _ _ (mem_failureResults classifyHTTPTransport_mem)

theorem executeDNS_result_iff {w : World} {job : ProbeJob} {payload : DNSProbeSpecPayload}
    (h : job.spec.dnsProbe = some payload) :
    (executeDNS lib w job).result ≠ "config_error" ↔
      (executeQuery lib w (runContext w.ctx w.created payload.timeoutMs) payload.name
        payload.type payload.resolver).configError = false := by
  simp only [executeDNS, h]
  exact conclude_result_iff _ _ _ _ (mem_failureResults fun _ => by decide)

theorem executeTCP_result_iff {w : World} {job : ProbeJob} {payload : TCPProbeSpecPayload}
    (h : job.spec.tcpProbe = some payload) :
    (executeTCP lib w job).result ≠ "config_error" ↔
      (connect w (runContext w.ctx w.created payload.timeoutMs) payload.host
        payload.port).configError = false := by
  simp only [executeTCP, h]
  exact conclude_result_iff _ _ _ _ (mem_failureResults classifyTCPConnect_mem)

end Executors

/-! ## Raw results -/

section Raw

variable {F : Type} {lib : Library F}

/-- With a URL that parses, a request is refused for its method alone. -/
theorem newRequest_isSome_iff {url : String} {parsed : ParsedURL} (method : String)
    (h : lib.parseURL url = some parsed) :
    (newRequest lib method url).isSome = true ↔ method.toList.all isTokenChar = true := by
  have hparses : (lib.parseURL url).isSome = true := by rw [h]; rfl
  simp only [newRequest, hparses, Bool.and_true]
  by_cases hempty : method = ""
  · rw [if_pos hempty, hempty]
    decide
  · rw [if_neg hempty, validMethod, decide_eq_true hempty, Bool.true_and]
    split <;> simp_all

theorem executeRequest_configError_iff {w : World} {ctx : Context} {request : HTTPRequest}
    {parsed : ParsedURL} (hparsed : lib.parseURL request.url = some parsed)
    (habsolute : ¬ (parsed.scheme = "" ∨ parsed.host = ""))
    (htls : request.tls.any (fun config => !buildTLSClient lib config) = false) :
    (executeRequest lib w ctx request).configError = false ↔
      (lib.toUpper request.method).toList.all isTokenChar = true := by
  rw [← newRequest_isSome_iff _ hparsed]
  simp only [executeRequest, hparsed, if_neg habsolute, htls, Bool.false_eq_true, if_false]
  cases newRequest lib (lib.toUpper request.method) request.url with
  | none => simp
  | some method =>
      simp only [Option.isSome_some, iff_true]
      split <;> rfl

theorem sendQuery_configError (w : World) (ctx : Context) (name : String) (dnsType : Nat)
    (resolver : String) : (sendQuery lib w ctx name dnsType resolver).configError = false := by
  unfold sendQuery
  dsimp only
  split
  · rfl
  · split
    · rfl
    · unfold DNSMsg.result
      dsimp only
      split <;> rfl

theorem executeQuery_configError {w : World} {ctx : Context} {name type resolver : String}
    (hname : Texts.trimSpace name ≠ "") (htype : lib.toUpper type ≠ "")
    (hknown : (lib.stringToType (lib.toUpper type)).isSome = true)
    (hresolver : ∃ host port, lib.splitHostPort
      (if resolver = "" then systemResolver else resolver) = some (host, port) ∧
        ¬ (host = "" ∨ port = "")) :
    (executeQuery lib w ctx name type resolver).configError = false := by
  obtain ⟨dnsType, hdnsType⟩ := Option.isSome_iff_exists.mp hknown
  obtain ⟨host, port, hsplit, hparts⟩ := hresolver
  simp only [executeQuery, if_neg hname, if_neg htype, hdnsType, hsplit, if_neg hparts]
  exact sendQuery_configError w ctx name dnsType _

theorem connect_configError {w : World} {ctx : Context} {host : String} {port : Int}
    (hhost : Texts.trimSpace host ≠ "") (hport : ¬ (port < 1 ∨ port > 65535)) :
    (connect w ctx host port).configError = false := by
  have hfine : ¬ (Texts.trimSpace host = "" ∨ port < 1 ∨ port > 65535) := by
    intro hbad
    exact hbad.elim hhost hport
  simp only [connect, if_neg hfine]

end Raw

/-! ## Admitted probes -/

/-- The method of an HTTPProbe, in upper case, has only characters of an HTTP token. -/
def TokenMethod {F : Type} (lib : Library F) : Probe → Prop
  | .http p _ => (lib.toUpper p.spec.request.method).toList.all isTokenChar = true
  | .dns _ => True
  | .tcp _ => True

/-- What the libraries are relied on for: the address of the default resolver splits, and
the table of record types has the seven that are admitted. -/
structure Reliable {F : Type} (lib : Library F) : Prop where
  resolver : lib.splitHostPort systemResolver = some ("8.8.8.8", "53")
  types : ∀ type ∈ dnsTypes, (lib.stringToType type).isSome = true

section Probes

variable {F : Type} [BEq F] [LT F] [LE F] [DecidableLT F] [DecidableLE F]
  {lib : Library F} {reader : Reader}

theorem http_result_iff {p : HTTPProbe} (hvalid : p.validate lib reader = [])
    (headers : Results.StringMap) (w : World) (scheduledAt : Time) :
    (executeHTTP lib w ⟨httpProbeSpecUpdate p headers, scheduledAt⟩).result ≠ "config_error" ↔
      (lib.toUpper p.spec.request.method).toList.all isTokenChar = true := by
  obtain ⟨-, -, hurl, -, -, htls, -⟩ := (HTTPProbe.validate_eq_nil_iff lib).mp hvalid
  obtain ⟨parsed, hparsed, habsolute⟩ := of_validateURL hurl
  rw [executeHTTP_result_iff rfl]
  exact executeRequest_configError_iff hparsed habsolute (of_validateTLS htls)

theorem dns_result_ne (hlib : Reliable lib) {p : DNSProbe} (hvalid : p.validate lib reader = [])
    (w : World) (scheduledAt : Time) :
    (executeDNS lib w ⟨dnsProbeSpecUpdate p, scheduledAt⟩).result ≠ "config_error" := by
  obtain ⟨-, hname, htype, hresolver, -⟩ := (DNSProbe.validate_eq_nil_iff lib).mp hvalid
  have hnonempty : lib.toUpper p.spec.query.type ≠ "" := by
    intro hempty
    rw [hempty] at htype
    exact absurd htype (by decide)
  rw [executeDNS_result_iff rfl]
  apply executeQuery_configError hname hnonempty (hlib.types _ htype)
  show ∃ host port, lib.splitHostPort
    (if p.spec.query.resolver = "" then systemResolver else p.spec.query.resolver) = _ ∧ _
  split
  · exact ⟨_, _, hlib.resolver, by decide⟩
  · rename_i hset
    exact of_validateResolver hresolver hset

theorem tcp_result_ne {p : TCPProbe} (hvalid : p.validate lib reader = [])
    (w : World) (scheduledAt : Time) :
    (executeTCP lib w ⟨tcpProbeSpecUpdate p, scheduledAt⟩).result ≠ "config_error" := by
  obtain ⟨-, hhost, hport, -⟩ := (TCPProbe.validate_eq_nil_iff lib).mp hvalid
  rw [executeTCP_result_iff rfl]
  exact connect_configError (of_validateHost hhost) hport

/-- The executor of an admitted probe reports no configuration error, whatever the
network does, exactly when the method of its request is a token. -/
theorem admitted_configuration_iff (lib : Library F) (hlib : Reliable lib) (reader : Reader)
    (p : Probe) (hvalid : p.default.validate lib reader = []) (w : World) (scheduledAt : Time) :
    ∃ execute, defaultExecutors lib p.default.specUpdate.kind = some execute ∧
      ((execute w ⟨p.default.specUpdate, scheduledAt⟩).result ≠ "config_error" ↔
        TokenMethod lib p.default) := by
  cases p with
  | http p headers => exact ⟨_, rfl, http_result_iff hvalid headers w scheduledAt⟩
  | dns p => exact ⟨_, rfl, iff_true_intro (dns_result_ne hlib hvalid w scheduledAt)⟩
  | tcp p => exact ⟨_, rfl, iff_true_intro (tcp_result_ne hvalid w scheduledAt)⟩

end Probes

theorem sample_reliable : Reliable Library.sample := ⟨by decide, by decide⟩

/-- An HTTPProbe with everything but the URL and the method left out. -/
def healthProbe (method : String) : Probe :=
  .http
    { name := "health", ns := "default", generation := 1, deletionTimestamp := none
      spec :=
        { interval := 0, timeout := 0, suspend := false
          request :=
            { url := "https://example.com/health", method := method, headers := ∅
              headersFrom := [], body := "" }
          tls := none, assertions := [], depends := [], metricLabels := ∅ } }
    ∅

theorem healthProbe_validate (reader : Reader) (method : String) :
    (healthProbe method).default.validate Library.sample reader = [] := by
  have htiming : validateTiming 30000000000 10000000000 = [] := by decide
  have hurl : validateURL Library.sample "https://example.com/health" = [] := by decide
  have hmethod : (if method = "" then "GET" else method) ≠ "" := by
    split
    · decide
    · assumption
  simp [healthProbe, Probe.default, Probe.validate, HTTPProbe.default, HTTPProbe.validate,
    defaultIntervalTimeout, htiming, hurl, hmethod, validateTLS, validateAssertions]

/-- A network in which every request is answered with status 200. -/
def answering : World where
  ctx := ⟨none⟩
  created := ⟨0⟩
  start := ⟨0⟩
  queried := ⟨0⟩
  finish := ⟨5000000⟩
  evaluated := ⟨5000000⟩
  send _ _ := .ok
    { statusCode := 200, proto := "HTTP/1.1", certNotAfter := none
      trace := ⟨none, none, none, none, none, none, none, none⟩
      bodyErr := none, transferStart := ⟨4000000⟩, transferEnd := ⟨5000000⟩ }
  exchange _ _ _ _ := .ok (⟨[], [], []⟩, 1000000)
  dial _ _ _ := none

/-- A method that is left out becomes `GET`. -/
theorem admitted_configuration_default :
    ∃ execute,
      defaultExecutors Library.sample (healthProbe "").default.specUpdate.kind = some execute ∧
      ((execute answering ⟨(healthProbe "").default.specUpdate, ⟨0⟩⟩).result ≠ "config_error" ↔
        TokenMethod Library.sample (healthProbe "").default) :=
  admitted_configuration_iff Library.sample sample_reliable Cluster.empty.reader (healthProbe "")
    (healthProbe_validate _ _) answering ⟨0⟩

/-- A method with a space in it is admitted and then never sent. -/
theorem healthProbe_config_error :
    (healthProbe "GET POST").default.validate Library.sample Cluster.empty.reader = [] ∧
    ∃ execute,
      defaultExecutors Library.sample (healthProbe "GET POST").default.specUpdate.kind =
        some execute ∧
      (execute answering ⟨(healthProbe "GET POST").default.specUpdate, ⟨0⟩⟩).result =
        "config_error" :=
  ⟨healthProbe_validate _ _, _, rfl, by decide⟩

end SyntheticsOperator.Proofs.Configuration
