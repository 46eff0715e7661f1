import SyntheticsOperator.Api.Library
import SyntheticsOperator.Probes.Assertions

/-!
# Probe executors

From a job to its result, for the three kinds of probe.  What a run cannot know in
advance is in its `World`: the readings of the clock and the behaviour of the network.
-/

namespace SyntheticsOperator.Probes

open SyntheticsOperator.Api (Library)
open SyntheticsOperator.Results (StringMap TLSConfig ProbeJob ProbeResult Assertion)
open SyntheticsOperator.Support

/-! ## The deadline of a run -/

/-- What a run observes of a `context.Context`. -/
structure Context where
  deadline : Option Time
deriving DecidableEq

def defaultProbeTimeout : Duration := 10000000000

/-- The timeout `runContext` applies. -/
def runTimeout (timeoutMs : Int) : Duration :=
  let timeout : Duration := timeoutMs * 1000000
  if timeout ≤ 0 then defaultProbeTimeout else timeout

/-- `context.WithTimeout` keeps an earlier deadline of the parent. -/
def runContext (ctx : Context) (now : Time) (timeoutMs : Int) : Context :=
  let deadline : Time := ⟨now.nanos + runTimeout timeoutMs⟩
  match ctx.deadline with
  | some parent => ⟨some (if parent.nanos < deadline.nanos then parent else deadline)⟩
  | none => ⟨some deadline⟩

/-! ## The world of a run -/

structure HTTPRequest where
  url : String
  method : String
  headers : StringMap
  body : String
  tls : Option TLSConfig
deriving DecidableEq

/-- The instants the `httptrace` callbacks record; `none` is a callback that was not
called. -/
structure HTTPTrace where
  dnsStart : Option Time
  dnsDone : Option Time
  connectStart : Option Time
  connectDone : Option Time
  tlsStart : Option Time
  tlsDone : Option Time
  wroteRequest : Option Time
  firstByte : Option Time
deriving DecidableEq

/-- A response of which the header has arrived.  `bodyErr` is the error of reading the
body; `certNotAfter` is the expiry of the first peer certificate. -/
structure HTTPResponse where
  statusCode : Int
  proto : String
  certNotAfter : Option Time
  trace : HTTPTrace
  bodyErr : Option NetError
  transferStart : Time
  transferEnd : Time
deriving DecidableEq

/-- The types of record that `extractAnswerValue` tells apart, with addresses as
text. -/
inductive RData where
  | a (ip : String)
  | aaaa (ip : String)
  | cname (target : String)
  | ns (ns : String)
  | mx (mx : String)
  | ptr (ptr : String)
  | txt (txt : List String)
  | other (text : String)
deriving DecidableEq

structure RR where
  rrtype : Nat
  data : RData
deriving DecidableEq

structure DNSMsg where
  answer : List RR
  ns : List RR
  extra : List RR
deriving DecidableEq

/-- The readings of the clock, in the order they are made, and the answers of the
network. -/
structure World where
  /-- the context the worker passes to the executor -/
  ctx : Context
  /-- the clock when the timeout starts to run -/
  created : Time
  start : Time
  /-- the clock before a DNS query is sent -/
  queried : Time
  /-- the clock when the duration is taken -/
  finish : Time
  /-- the clock while assertions are evaluated -/
  evaluated : Time
  /-- `httpClient.Do` -/
  send : HTTPRequest → Context → Except NetError HTTPResponse
  /-- `client.ExchangeContext` for a name, a type and a resolver, with the client's
  timeout -/
  exchange : String → Nat → String → Option Duration → Except String (DNSMsg × Duration)
  /-- `DialContext`; `none` is a connection -/
  dial : String → Int → Context → Option NetError

/-- `time.Since(start)`. -/
def World.elapsed (w : World) : Duration := w.finish.sub w.start

def probeResult (job : ProbeJob) : ProbeResult where
  kind := job.spec.kind
  name := job.spec.name
  ns := job.spec.ns
  generation := job.spec.generation
  timestamp := job.scheduledAt
  result := ""

def configErrorResult (job : ProbeJob) : ProbeResult :=
  { probeResult job with result := "config_error" }

/-- The switch that ends all three executors.  `failure` is the result of a run that got
no answer. -/
def conclude (out : ProbeResult) (configError : Bool) (failure : Option String)
    (assertions : List Assertion) (outcome : AssertionOutcome) : ProbeResult :=
  if configError then { out with result := "config_error" }
  else
    match failure with
    | some result => { out with result := result }
    | none =>
        if assertions = [] then { out with result := "ok" }
        else
          { out with
            result := outcome.result
            failedAssertion := outcome.failedAssertion
            assertionResults := outcome.assertionResults }

/-- The three ways a run ends. -/
theorem conclude_cases (out : ProbeResult) (configError : Bool) (failure : Option String)
    (assertions : List Assertion) (loop : AssertionsLoop) :
    (configError = true ∧
        (conclude out configError failure assertions loop.outcome).result = "config_error") ∨
      (configError = false ∧
        failure = some (conclude out configError failure assertions loop.outcome).result) ∨
      (configError = false ∧ failure = none ∧
        ((conclude out configError failure assertions loop.outcome).result = "ok" ∨
          (conclude out configError failure assertions loop.outcome).result =
            "assertion_failed")) := by
  cases configError with
  | true => exact .inl ⟨rfl, rfl⟩
  | false =>
      cases failure with
      | some result => exact .inr (.inl ⟨rfl, rfl⟩)
      | none =>
          refine .inr (.inr ⟨rfl, rfl, ?_⟩)
          simp only [conclude, Bool.false_eq_true, if_false]
          split
          · exact .inl rfl
          · show outcomeFromOK loop.ok = "ok" ∨ outcomeFromOK loop.ok = "assertion_failed"
            cases loop.ok
            · exact .inr rfl
            · exact .inl rfl

section Execute

-- `F` is `float64`
variable {F : Type} [BEq F] [LT F] [LE F] [DecidableLT F] [DecidableLE F] (lib : Library F)

/-! ## HTTP -/

/-- A character of an HTTP token. -/
def isTokenChar (c : Char) : Bool :=
  c.isAlphanum || "!#$%&'*+-.^_`|~".toList.contains c

/-- A nonempty HTTP token. -/
def validMethod (method : String) : Bool := method ≠ "" && method.toList.all isTokenChar

/-- `http.NewRequestWithContext`: the method of the request, or `none` for an error. -/
def newRequest (method url : String) : Option String :=
  let method := if method = "" then "GET" else method
  if validMethod method && (lib.parseURL url).isSome then some method else none

/-- `buildTLSClient` returns no error. -/
def buildTLSClient (config : TLSConfig) : Bool :=
  config.caCert = "" || lib.appendCertsFromPEM config.caCert

def msDiff : Option Time → Option Time → ℚ
  | some a, some b => (b.sub a).milliseconds
  | _, _ => 0

def parseHTTPVersion (proto : String) : ℚ :=
  match Texts.trimPrefix "HTTP/" proto with
  | "1.0" => 1
  | "1.1" => 11 / 10
  | "2" => 2
  | "2.0" => 2
  | "3" => 3
  | "3.0" => 3
  | _ => 0

/-- The raw result of a request that was answered.  An error of reading the body is
dropped. -/
def HTTPResponse.result (r : HTTPResponse) (duration : Duration) : HTTPResult where
  statusCode := r.statusCode
  httpVersion := parseHTTPVersion r.proto
  duration := duration
  certExpiryTime := r.certNotAfter
  phaseDNSMs := msDiff r.trace.dnsStart r.trace.dnsDone
  phaseConnectMs := msDiff r.trace.connectStart r.trace.connectDone
  phaseTLSMs := msDiff r.trace.tlsStart r.trace.tlsDone
  phaseProcessingMs := msDiff r.trace.wroteRequest r.trace.firstByte
  phaseTransferMs := (r.transferEnd.sub r.transferStart).milliseconds

def executeRequest (w : World) (ctx : Context) (request : HTTPRequest) : HTTPResult :=
  let configError : HTTPResult := { configError := true, duration := w.elapsed }
  match lib.parseURL request.url with
  | none => configError
  | some parsedURL =>
      if parsedURL.scheme = "" ∨ parsedURL.host = "" then configError
      else
        match newRequest lib (lib.toUpper request.method) request.url with
        | none => configError
        | some method =>
            if request.tls.any (fun config => !buildTLSClient lib config) then configError
            else
              match w.send { request with method := method } ctx with
              | .error err => { transportErr := some err, duration := w.elapsed }
              | .ok resp => resp.result w.elapsed

def classifyHTTPTransport (err : NetError) : String :=
  if err.dnsError then "dns_failed"
  else if err.certificateError then "tls_failed"
  else
    match err.opError with
    | some ⟨"dial", timeout⟩ => if timeout then "connect_timeout" else "connect_refused"
    | some ⟨"read", _⟩ => "recv_timeout"
    | _ => if err.deadlineExceeded then "recv_timeout" else "connect_refused"

/-- `HTTPExecutor.Execute`. -/
def executeHTTP (w : World) (job : ProbeJob) : ProbeResult :=
  match job.spec.httpProbe with
  | none => configErrorResult job
  | some payload =>
      let raw := executeRequest lib w (runContext w.ctx w.created payload.timeoutMs)
        ⟨payload.url, payload.method, payload.headers, payload.body, payload.tls⟩
      let out : ProbeResult :=
        { probeResult job with
          durationMs := raw.duration.milliseconds
          url := payload.url
          method := lib.toUpper payload.method
          httpStatusCode := raw.statusCode
          httpVersion := raw.httpVersion
          httpPhaseDNSMs := raw.phaseDNSMs
          httpPhaseConnectMs := raw.phaseConnectMs
          httpPhaseTLSMs := raw.phaseTLSMs
          httpPhaseProcessingMs := raw.phaseProcessingMs
          httpPhaseTransferMs := raw.phaseTransferMs
          tlsCertExpiryUnix := (raw.certExpiryTime.map Time.unix).getD 0 }
      conclude out raw.configError (raw.transportErr.map classifyHTTPTransport) payload.assertions
        (evalHTTPAssertions lib.float64 lib.parseFloat w.evaluated raw payload.assertions)

/-! ## DNS -/

def extractAnswerValue (rr : RR) : String :=
  match rr.data with
  | .a ip => ip
  | .aaaa ip => ip
  | .cname target => Texts.trimSuffix "." target
  | .ns ns => Texts.trimSuffix "." ns
  | .mx mx => Texts.trimSuffix "." mx
  | .ptr ptr => Texts.trimSuffix "." ptr
  | .txt txt => String.intercalate " " txt
  | .other text =>
      let parts := Texts.fields text
      if parts.length > 4 then String.intercalate " " (parts.drop 4) else text

def systemResolver : String := "8.8.8.8:53"

/-- The raw result of a query that was answered. -/
def DNSMsg.result (resp : DNSMsg) (rtt : Duration) : DNSResult :=
  let result : DNSResult :=
    { duration := rtt
      answerCount := resp.answer.length
      authorityCount := resp.ns.length
      additionalCount := resp.extra.length }
  match resp.answer with
  | [] => result
  | rr :: _ =>
      { result with
        firstAnswerValue := extractAnswerValue rr
        firstAnswerType := lib.typeToString rr.rrtype }

/-- The query itself, once the request is known to be well formed. -/
def sendQuery (w : World) (ctx : Context) (name : String) (dnsType : Nat) (resolver : String) :
    DNSResult :=
  let remaining := ctx.deadline.map fun deadline => deadline.sub w.queried
  -- a deadline that has passed: no query is sent, and the result has no error
  if remaining.any (fun remaining => decide (remaining ≤ 0)) then { duration := w.elapsed }
  else
    match w.exchange name dnsType resolver remaining with
    | .error err => { resolverErr := some err, duration := w.elapsed }
    | .ok (resp, rtt) => resp.result lib rtt

def executeQuery (w : World) (ctx : Context) (name type resolver : String) : DNSResult :=
  let configError : DNSResult := { configError := true, duration := w.elapsed }
  if Texts.trimSpace name = "" then configError
  else
    let queryType := if lib.toUpper type = "" then "A" else lib.toUpper type
    match lib.stringToType queryType with
    | none => configError
    | some dnsType =>
        let resolver := if resolver = "" then systemResolver else resolver
        match lib.splitHostPort resolver with
        | none => configError
        | some (host, port) =>
            if host = "" ∨ port = "" then configError
            else sendQuery lib w ctx name dnsType resolver

/-- `DNSExecutor.Execute`. -/
def executeDNS (w : World) (job : ProbeJob) : ProbeResult :=
  match job.spec.dnsProbe with
  | none => configErrorResult job
  | some payload =>
      let raw := executeQuery lib w (runContext w.ctx w.created payload.timeoutMs)
        payload.name payload.type payload.resolver
      let out : ProbeResult :=
        { probeResult job with
          durationMs := raw.duration.milliseconds
          dnsQueryName := payload.name
          dnsResolver := payload.resolver
          dnsFirstAnswerValue := raw.firstAnswerValue
          dnsFirstAnswerType := raw.firstAnswerType
          dnsAnswerCount := raw.answerCount
          dnsAuthorityCount := raw.authorityCount
          dnsAdditionalCount := raw.additionalCount }
      conclude out raw.configError (raw.resolverErr.map fun _ => "dns_failed") payload.assertions
        (evalDNSAssertions lib.float64 lib.parseFloat raw payload.assertions)

/-! ## TCP -/

def connect (w : World) (ctx : Context) (host : String) (port : Int) : TCPResult :=
  let host := Texts.trimSpace host
  if host = "" ∨ port < 1 ∨ port > 65535 then { configError := true, duration := w.elapsed }
  else { connectErr := w.dial host port ctx, duration := w.elapsed }

def classifyTCPConnect (err : NetError) : String :=
  if err.dnsError then "dns_failed"
  else if err.deadlineExceeded then "connect_timeout"
  else if err.timeout then "connect_timeout"
  else if err.connRefused then "connect_refused"
  else "connect_failed"

/-- `TCPExecutor.Execute`. -/
def executeTCP (w : World) (job : ProbeJob) : ProbeResult :=
  match job.spec.tcpProbe with
  | none => configErrorResult job
  | some payload =>
      let raw := connect w (runContext w.ctx w.created payload.timeoutMs) payload.host payload.port
      let out : ProbeResult :=
        { probeResult job with
          durationMs := raw.duration.milliseconds
          tcpHost := payload.host
          tcpPort := payload.port }
      conclude out raw.configError (raw.connectErr.map classifyTCPConnect) payload.assertions
        (evalTCPAssertions lib.float64 lib.parseFloat raw payload.assertions)

end Execute

end SyntheticsOperator.Probes
