import SyntheticsOperator.Api.Depends
import SyntheticsOperator.Api.Types

/-!
# Spec messages

How the controllers turn a custom resource into the message they publish for it.
Milliseconds are whole: `Duration.milliseconds` drops the rest.
-/

namespace SyntheticsOperator.Controllers

open SyntheticsOperator.Api
open SyntheticsOperator.Results (SpecUpdate StringMap)
open SyntheticsOperator.Support

def toDependsRefs (deps : List DependencyRef) : List Results.DependencyRef :=
  deps.map fun d => ⟨d.kind, d.name⟩

def toAssertions (assertions : List Assertion) : List Results.Assertion :=
  assertions.map fun a => ⟨a.name, a.expr⟩

/-- `headers` are the ones `resolveRequestHeaders` found. -/
def httpProbeSpecUpdate (p : HTTPProbe) (headers : StringMap) : SpecUpdate where
  kind := .httpProbe
  name := p.name
  ns := p.ns
  generation := p.generation
  suspend := p.spec.suspend
  intervalMs := p.spec.interval.milliseconds
  depends := toDependsRefs p.spec.depends
  metricLabels := p.spec.metricLabels
  httpProbe := some
    { timeoutMs := p.spec.timeout.milliseconds
      url := p.spec.request.url
      method := p.spec.request.method
      headers := headers
      body := p.spec.request.body
      tls := p.spec.tls.map fun c => ⟨c.insecureSkipVerify, c.caCert⟩
      assertions := toAssertions p.spec.assertions }

def dnsProbeSpecUpdate (p : DNSProbe) : SpecUpdate where
  kind := .dnsProbe
  name := p.name
  ns := p.ns
  generation := p.generation
  suspend := p.spec.suspend
  intervalMs := p.spec.interval.milliseconds
  depends := toDependsRefs p.spec.depends
  metricLabels := p.spec.metricLabels
  dnsProbe := some
    { timeoutMs := p.spec.timeout.milliseconds
      name := p.spec.query.name
      type := p.spec.query.type
      resolver := p.spec.query.resolver
      assertions := toAssertions p.spec.assertions }

def tcpProbeSpecUpdate (p : TCPProbe) : SpecUpdate where
  kind := .tcpProbe
  name := p.name
  ns := p.ns
  generation := p.generation
  suspend := p.spec.suspend
  intervalMs := p.spec.interval.milliseconds
  depends := toDependsRefs p.spec.depends
  metricLabels := p.spec.metricLabels
  tcpProbe := some
    { timeoutMs := p.spec.timeout.milliseconds
      host := p.spec.target.host
      port := p.spec.target.port
      assertions := toAssertions p.spec.assertions }

/-- The interval stays zero: a Heartbeat is never scheduled.  The token lives in a
Secret; the last ping is replayed from the status. -/
def heartbeatSpecUpdate (h : Heartbeat) (token : GoString) : SpecUpdate where
  kind := .heartbeat
  name := h.name
  ns := h.ns
  generation := h.generation
  suspend := h.spec.suspend
  depends := toDependsRefs h.spec.depends
  metricLabels := h.spec.metricLabels
  heartbeat := some
    { token := token
      periodMs := h.spec.period.milliseconds
      graceMs := h.spec.grace.milliseconds
      lastPingUnix := (h.status.lastPingTime.map Time.unix).getD 0
      lastResult := h.status.lastResult }

def k6TestSpecUpdate (t : K6Test) : SpecUpdate where
  kind := .k6Test
  name := t.name
  ns := t.ns
  generation := t.generation
  suspend := t.spec.suspend
  intervalMs := t.spec.interval.milliseconds
  depends := toDependsRefs t.spec.depends
  metricLabels := t.spec.metricLabels

def playwrightTestSpecUpdate (t : PlaywrightTest) : SpecUpdate where
  kind := .playwrightTest
  name := t.name
  ns := t.ns
  generation := t.generation
  suspend := t.spec.suspend
  intervalMs := t.spec.interval.milliseconds
  depends := toDependsRefs t.spec.depends
  metricLabels := t.spec.metricLabels

def tombstone (kind : Kind) (ns name : String) : SpecUpdate where
  kind := kind
  name := name
  ns := ns
  deleted := true

/-! ## Request headers -/

/-- What reading a Secret gives: its data, or the text of the error. -/
abbrev SecretReader := NamespacedName → Except String StringMap

/-- One turn of the loop over `headersFrom`. -/
def resolveHeader (secret : SecretReader) (ns : String) (merged : StringMap)
    (h : HeaderFromSource) : Except String StringMap :=
  match secret ⟨ns, h.secretKeyRef.name⟩ with
  | .error err =>
      .error ("resolving header " ++ quoted h.name ++ " from secret " ++
        quoted h.secretKeyRef.name ++ ": " ++ err)
  | .ok data =>
      match data.lookup h.secretKeyRef.key with
      | none =>
          .error ("resolving header " ++ quoted h.name ++ ": secret " ++
            quoted h.secretKeyRef.name ++ " has no key " ++ quoted h.secretKeyRef.key)
      | some value => .ok (merged.insert h.name value)

/-- The literal headers, overridden by those that come from Secrets. -/
def resolveRequestHeaders (secret : SecretReader) (ns : String) (req : HTTPRequestSpec) :
    Except String StringMap :=
  req.headersFrom.foldlM (resolveHeader secret ns) req.headers

end SyntheticsOperator.Controllers
