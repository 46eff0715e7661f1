import SyntheticsOperator.Probes.Transport
import SyntheticsOperator.Proofs.Outcomes

/-!
# Responses behind evaluated runs

A run is evaluated when its raw result has neither of two errors.  For HTTP and for DNS
the response the run was evaluated on is a function of the network and the clock, and
comparing the two shows the exits that set no error:

* an error while the body is read is dropped, so a run is evaluated as soon as the headers
  have arrived;
* a DNS query whose deadline has passed is not sent, and the run is evaluated on the counts
  of an empty result.
-/

namespace SyntheticsOperator.Proofs.Responses

open SyntheticsOperator.Api (Library)
open SyntheticsOperator.Probes
open SyntheticsOperator.Proofs.Configuration (answering)
open SyntheticsOperator.Proofs.Outcomes
open SyntheticsOperator.Results (ProbeJob HTTPProbeSpecPayload DNSProbeSpecPayload)
open SyntheticsOperator.Support

variable {F : Type} (lib : Library F) (w : World)

/-- Every run has a deadline. -/
theorem exists_deadline (ctx : Context) (now : Time) (timeoutMs : Int) :
    ∃ deadline, (runContext ctx now timeoutMs).deadline = some deadline := by
  unfold runContext
  dsimp only
  split <;> exact ⟨_, rfl⟩

/-! ## HTTP -/

/-- The request that leaves the executor, when nothing in it is refused. -/
def outgoing (request : HTTPRequest) : Option HTTPRequest :=
  match lib.parseURL request.url with
  | none => none
  | some parsedURL =>
      if parsedURL.scheme = "" ∨ parsedURL.host = "" then none
      else
        match newRequest lib (lib.toUpper request.method) request.url with
        | none => none
        | some method =>
            if request.tls.any (fun config => !buildTLSClient lib config) then none
            else some { request with method := method }

theorem executeRequest_eq (ctx : Context) (request : HTTPRequest) :
    executeRequest lib w ctx request =
      match outgoing lib request with
      | none => { configError := true, duration := w.elapsed }
      | some sent =>
          match w.send sent ctx with
          | .error err => { transportErr := some err, duration := w.elapsed }
          | .ok resp => resp.result w.elapsed := by
  unfold executeRequest outgoing
  cases lib.parseURL request.url with
  | none => rfl
  | some parsedURL =>
      dsimp only
      split
      · rfl
      · cases newRequest lib (lib.toUpper request.method) request.url with
        | none => rfl
        | some method =>
            dsimp only
            split <;> rfl

/-- The body that is read in the run, with its deadline: there is one when the headers have
arrived in time. -/
def bodyOf (exchange : HTTPRequest → Exchange) (job : ProbeJob) : Option (Time × Body) := do
  let payload ← job.spec.httpProbe
  let deadline ← (runContext w.ctx w.created payload.timeoutMs).deadline
  let sent ← outgoing lib
    ⟨payload.url, payload.method, payload.headers, payload.body, payload.tls⟩
  match exchange sent with
  | .fails _ => none
  | .answers headers body =>
      if deadline.nanos < headers.arrived.nanos then none else some (deadline, body)

/-- The raw result over a network, for the deadline of the run. -/
theorem httpRaw_over (exchange : HTTPRequest → Exchange) {payload : HTTPProbeSpecPayload}
    {deadline : Time}
    (hdeadline : (runContext w.ctx w.created payload.timeoutMs).deadline = some deadline) :
    httpRaw lib (w.over exchange) payload =
      match outgoing lib
        ⟨payload.url, payload.method, payload.headers, payload.body, payload.tls⟩ with
      | none => { configError := true, duration := w.elapsed }
      | some sent =>
          match (exchange sent).send deadline with
          | .error err => { transportErr := some err, duration := w.elapsed }
          | .ok resp => resp.result w.elapsed := by
  have hsend : ∀ sent, (w.over exchange).send sent
      (runContext w.ctx w.created payload.timeoutMs) = (exchange sent).send deadline := by
    intro sent
    simp only [World.over, hdeadline]
  simp only [httpRaw, executeRequest_eq]
  rw [show runContext (w.over exchange).ctx (w.over exchange).created payload.timeoutMs =
    runContext w.ctx w.created payload.timeoutMs from rfl]
  simp only [hsend]
  rfl

section Evaluated

variable [BEq F] [LT F] [LE F] [DecidableLT F] [DecidableLE F]

/-- A run is evaluated as soon as there is a body to read. -/
theorem evaluated_iff_body (exchange : HTTPRequest → Exchange) (job : ProbeJob) :
    Evaluated (executeHTTP lib (w.over exchange) job).result ↔
      ∃ deadline body, bodyOf lib w exchange job = some (deadline, body) := by
  cases hpayload : job.spec.httpProbe with
  | none =>
      have hresult : (executeHTTP lib (w.over exchange) job).result = "config_error" := by
        simp only [executeHTTP, hpayload, configErrorResult]
      simp [hresult, bodyOf, hpayload, Evaluated]
  | some payload =>
      obtain ⟨deadline, hdeadline⟩ := exists_deadline w.ctx w.created payload.timeoutMs
      rw [evaluated_http_iff hpayload, httpRaw_over lib w exchange hdeadline]
      simp only [bodyOf, hpayload, hdeadline, Option.bind_eq_bind, Option.bind_some]
      cases outgoing lib
          ⟨payload.url, payload.method, payload.headers, payload.body, payload.tls⟩ with
      | none => simp
      | some sent =>
          simp only [Option.bind_some]
          cases exchange sent with
          | fails err => simp [Exchange.send]
          | answers headers body =>
              by_cases hlate : deadline.nanos < headers.arrived.nanos
              · simp [Exchange.send, hlate]
              · simp [Exchange.send, hlate, HTTPResponse.result]

/-- A run of an HTTPProbe is evaluated on complete bodies only, and a deadline that passes
during the body is reported, exactly when nothing but the whole body follows headers that
have arrived in time. -/
theorem completed_iff (exchange : HTTPRequest → Exchange) (job : ProbeJob) :
    ((Evaluated (executeHTTP lib (w.over exchange) job).result →
        ∃ deadline body, bodyOf lib w exchange job = some (deadline, body) ∧
          body.Completed deadline) ∧
      (∀ deadline body, bodyOf lib w exchange job = some (deadline, body) →
        body.Interrupted deadline →
          (executeHTTP lib (w.over exchange) job).result = "recv_timeout")) ↔
    ∀ deadline body, bodyOf lib w exchange job = some (deadline, body) →
      body.Completed deadline := by
  constructor
  · intro hclaim deadline body hbody
    obtain ⟨deadline', body', hbody', hcompleted⟩ :=
      hclaim.1 ((evaluated_iff_body lib w exchange job).mpr ⟨deadline, body, hbody⟩)
    have heq : (deadline, body) = (deadline', body') :=
      Option.some.inj (hbody.symm.trans hbody')
    rw [Prod.mk.injEq] at heq
    rw [heq.1, heq.2]
    exact hcompleted
  · intro hall
    constructor
    · intro hevaluated
      obtain ⟨deadline, body, hbody⟩ := (evaluated_iff_body lib w exchange job).mp hevaluated
      exact ⟨deadline, body, hbody, hall deadline body hbody⟩
    · intro deadline body hbody hinterrupted
      have hcompleted := hall deadline body hbody
      cases body with
      | complete instant => exact absurd hinterrupted (Int.not_lt.mpr hcompleted)
      | cut err instant => exact hcompleted.elim
      | stalls => exact hcompleted.elim

end Evaluated

/-- A job without assertions and with a timeout of five seconds. -/
def healthJob : ProbeJob where
  spec :=
    { kind := .httpProbe, name := "health", ns := "default"
      httpProbe := some { statusPayload with assertions := [] } }
  scheduledAt := ⟨0⟩

/-- The headers arrive after a second, and the body never does. -/
def stalling (_ : HTTPRequest) : Exchange :=
  .answers
    { statusCode := 200, proto := "HTTP/1.1", certNotAfter := none
      trace := ⟨none, none, none, none, none, none, none, none⟩, arrived := ⟨1000000000⟩ }
    .stalls

theorem stalling_ok :
    bodyOf Library.sample answering stalling healthJob = some (⟨5000000000⟩, .stalls) ∧
    Body.Interrupted ⟨5000000000⟩ .stalls ∧
    (executeHTTP Library.sample (answering.over stalling) healthJob).result = "ok" :=
  ⟨by decide, trivial, by decide⟩

/-! ## DNS -/

/-- The query a payload describes, when nothing in it is refused: the name, the type and
the address of the resolver. -/
def queryOf (payload : DNSProbeSpecPayload) : Option (String × Nat × String) :=
  if Texts.trimSpace payload.name = "" then none
  else
    match lib.stringToType
        (if lib.toUpper payload.type = "" then "A" else lib.toUpper payload.type) with
    | none => none
    | some dnsType =>
        match lib.splitHostPort
            (if payload.resolver = "" then systemResolver else payload.resolver) with
        | none => none
        | some (host, port) =>
            if host = "" ∨ port = "" then none
            else
              some (payload.name, dnsType,
                if payload.resolver = "" then systemResolver else payload.resolver)

theorem dnsRaw_eq (payload : DNSProbeSpecPayload) :
    dnsRaw lib w payload =
      match queryOf lib payload with
      | none => { configError := true, duration := w.elapsed }
      | some (name, dnsType, resolver) =>
          sendQuery lib w (runContext w.ctx w.created payload.timeoutMs) name dnsType resolver := by
  unfold dnsRaw executeQuery queryOf
  dsimp only
  split
  · rfl
  · cases lib.stringToType
        (if lib.toUpper payload.type = "" then "A" else lib.toUpper payload.type) with
    | none => rfl
    | some dnsType =>
        cases lib.splitHostPort
            (if payload.resolver = "" then systemResolver else payload.resolver) with
        | none => rfl
        | some parts =>
            dsimp only
            split <;> rfl

/-- The deadline had passed when the query was about to be sent. -/
def Expired (job : ProbeJob) : Prop :=
  ∃ payload deadline, job.spec.dnsProbe = some payload ∧ (queryOf lib payload).isSome = true ∧
    (runContext w.ctx w.created payload.timeoutMs).deadline = some deadline ∧
    deadline.nanos ≤ w.queried.nanos

/-- What the resolver answered to the query of the run. -/
def responseOf (job : ProbeJob) : Option (DNSMsg × Duration) := do
  let payload ← job.spec.dnsProbe
  let (name, dnsType, resolver) ← queryOf lib payload
  let deadline ← (runContext w.ctx w.created payload.timeoutMs).deadline
  if deadline.nanos ≤ w.queried.nanos then none
  else (w.exchange name dnsType resolver (some (deadline.sub w.queried))).toOption

theorem remaining_nonpos_iff (deadline queried : Time) :
    deadline.sub queried ≤ 0 ↔ deadline.nanos ≤ queried.nanos :=
  sub_nonpos

theorem result_no_error (resp : DNSMsg) (rtt : Duration) :
    (resp.result lib rtt).configError = false ∧ (resp.result lib rtt).resolverErr = none := by
  unfold DNSMsg.result
  dsimp only
  split <;> exact ⟨rfl, rfl⟩

section Send

variable {lib w} {ctx : Context} {deadline : Time} (hdeadline : ctx.deadline = some deadline)
  (name : String) (dnsType : Nat) (resolver : String)

include hdeadline

/-- A query whose deadline has passed ends with neither error. -/
theorem sendQuery_expired (hpassed : deadline.nanos ≤ w.queried.nanos) :
    sendQuery lib w ctx name dnsType resolver = { duration := w.elapsed } := by
  simp [sendQuery, hdeadline, (remaining_nonpos_iff _ _).mpr hpassed]

/-- A query that is sent ends without an error when it is answered. -/
theorem sendQuery_sent_iff (hpassed : ¬ deadline.nanos ≤ w.queried.nanos) :
    (sendQuery lib w ctx name dnsType resolver).configError = false ∧
        (sendQuery lib w ctx name dnsType resolver).resolverErr = none ↔
      (w.exchange name dnsType resolver (some (deadline.sub w.queried))).toOption.isSome =
        true := by
  simp only [sendQuery, hdeadline, Option.map_some, Option.any_some, decide_eq_true_eq,
    remaining_nonpos_iff, if_neg hpassed]
  cases w.exchange name dnsType resolver (some (deadline.sub w.queried)) with
  | error err => simp [Except.toOption]
  | ok answer => simp [result_no_error, Except.toOption]

end Send

theorem responseOf_eq {job : ProbeJob} {payload : DNSProbeSpecPayload} {name : String}
    {dnsType : Nat} {resolver : String} {deadline : Time}
    (hpayload : job.spec.dnsProbe = some payload)
    (hquery : queryOf lib payload = some (name, dnsType, resolver))
    (hdeadline : (runContext w.ctx w.created payload.timeoutMs).deadline = some deadline) :
    responseOf lib w job =
      if deadline.nanos ≤ w.queried.nanos then none
      else (w.exchange name dnsType resolver (some (deadline.sub w.queried))).toOption := by
  simp only [responseOf, hpayload, hquery, hdeadline, Option.bind_eq_bind, Option.bind_some]

theorem expired_iff {job : ProbeJob} {payload : DNSProbeSpecPayload}
    {query : String × Nat × String} {deadline : Time}
    (hpayload : job.spec.dnsProbe = some payload) (hquery : queryOf lib payload = some query)
    (hdeadline : (runContext w.ctx w.created payload.timeoutMs).deadline = some deadline) :
    Expired lib w job ↔ deadline.nanos ≤ w.queried.nanos := by
  simp [Expired, hpayload, hquery, hdeadline]

theorem responseOf_of_expired {job : ProbeJob} (h : Expired lib w job) :
    responseOf lib w job = none := by
  obtain ⟨payload, deadline, hpayload, hsome, hdeadline, hpassed⟩ := h
  obtain ⟨query, hquery⟩ := Option.isSome_iff_exists.mp hsome
  rw [responseOf_eq lib w hpayload hquery hdeadline, if_pos hpassed]

section Received

variable [BEq F] [LT F] [LE F] [DecidableLT F] [DecidableLE F]

/-- A run is evaluated on a response, or because its deadline had passed. -/
theorem evaluated_iff_response (job : ProbeJob) :
    Evaluated (executeDNS lib w job).result ↔
      (responseOf lib w job).isSome = true ∨ Expired lib w job := by
  cases hpayload : job.spec.dnsProbe with
  | none =>
      have hresult : (executeDNS lib w job).result = "config_error" := by
        simp only [executeDNS, hpayload, configErrorResult]
      simp [hresult, responseOf, Expired, hpayload, Evaluated]
  | some payload =>
      rw [evaluated_dns_iff hpayload, dnsRaw_eq]
      cases hquery : queryOf lib payload with
      | none => simp [responseOf, Expired, hpayload, hquery]
      | some query =>
          obtain ⟨deadline, hdeadline⟩ := exists_deadline w.ctx w.created payload.timeoutMs
          rw [responseOf_eq lib w hpayload hquery hdeadline,
            expired_iff lib w hpayload hquery hdeadline]
          dsimp only
          by_cases hpassed : deadline.nanos ≤ w.queried.nanos
          · rw [sendQuery_expired hdeadline _ _ _ hpassed]
            simp [hpassed]
          · rw [sendQuery_sent_iff hdeadline _ _ _ hpassed, if_neg hpassed]
            exact (or_iff_left hpassed).symm

theorem dns_result_of_not_evaluated {job : ProbeJob}
    (h : ¬ Evaluated (executeDNS lib w job).result) :
    (executeDNS lib w job).result = "config_error" ∨
      (executeDNS lib w job).result = "dns_failed" := by
  cases hpayload : job.spec.dnsProbe with
  | none =>
      left
      simp only [executeDNS, hpayload, configErrorResult]
  | some payload =>
      rw [evaluated_dns_iff hpayload] at h
      simp only [executeDNS, hpayload]
      show (conclude _ (dnsRaw lib w payload).configError
        ((dnsRaw lib w payload).resolverErr.map _) _ _).result = _ ∨
          (conclude _ (dnsRaw lib w payload).configError
            ((dnsRaw lib w payload).resolverErr.map _) _ _).result = _
      cases hconfig : (dnsRaw lib w payload).configError with
      | true => exact .inl rfl
      | false =>
          cases herr : (dnsRaw lib w payload).resolverErr with
          | none => exact absurd ⟨hconfig, herr⟩ h
          | some err => exact .inr rfl

/-- A run of a DNSProbe is evaluated on responses only, and is reported as a failure
without one, exactly when its deadline has not passed before the query is sent. -/
theorem received_iff (job : ProbeJob) :
    ((Evaluated (executeDNS lib w job).result → (responseOf lib w job).isSome = true) ∧
      (responseOf lib w job = none → (executeDNS lib w job).result = "config_error" ∨
        (executeDNS lib w job).result = "dns_failed")) ↔
    ¬ Expired lib w job := by
  constructor
  · intro hclaim hexpired
    have hsome := hclaim.1 ((evaluated_iff_response lib w job).mpr (.inr hexpired))
    rw [responseOf_of_expired lib w hexpired] at hsome
    cases hsome
  · intro hnot
    constructor
    · intro hevaluated
      exact ((evaluated_iff_response lib w job).mp hevaluated).resolve_right hnot
    · intro hnone
      apply dns_result_of_not_evaluated
      intro hevaluated
      have hsome := ((evaluated_iff_response lib w job).mp hevaluated).resolve_right hnot
      rw [hnone] at hsome
      cases hsome

end Received

/-- A job with a timeout of five seconds. -/
def recordJob : ProbeJob where
  spec :=
    { kind := .dnsProbe, name := "record", ns := "default"
      dnsProbe := some
        { timeoutMs := 5000, name := "example.com", type := "A", resolver := ""
          assertions := [] } }
  scheduledAt := ⟨0⟩

/-- Six seconds pass before the query is sent. -/
def paused : World :=
  { answering with
    queried := ⟨6000000000⟩, finish := ⟨6000000000⟩, evaluated := ⟨6000000000⟩ }

theorem paused_ok :
    responseOf Library.sample paused recordJob = none ∧
    (executeDNS Library.sample paused recordJob).result = "ok" :=
  ⟨by decide, by decide⟩

end SyntheticsOperator.Proofs.Responses
