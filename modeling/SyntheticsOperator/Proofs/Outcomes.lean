import SyntheticsOperator.Proofs.Configuration

/-!
# Outcomes of assertions

One loop fills the four fields of a result that assertions decide, and one switch puts
them there for all three executors:

* `evalAssertions_spec`: the loop has one entry for each assertion, in order, and its flag
  and its name are those of the first assertion that did not pass;
* `conclude_coherent`: the switch keeps them together, and a run that failed before its
  assertions leaves them empty.
-/

namespace SyntheticsOperator.Proofs.Outcomes

open SyntheticsOperator.Api (Library)
open SyntheticsOperator.Probes
open SyntheticsOperator.Proofs.Configuration (answering failureResults mem_failureResults
  classifyHTTPTransport_mem classifyTCPConnect_mem)
open SyntheticsOperator.Results (Assertion AssertionResult ProbeJob ProbeResult
  HTTPProbeSpecPayload DNSProbeSpecPayload TCPProbeSpecPayload)
open SyntheticsOperator.Support

/-! ## The loop -/

/-- The entry of an assertion. -/
def entry (passed : Assertion → Bool) (a : Assertion) : AssertionResult :=
  ⟨a.name, a.expr, if passed a then 1 else 0⟩

/-- What the variables of the loop hold after these assertions. -/
structure LoopSpec (passed : Assertion → Bool) (assertions : List Assertion)
    (loop : AssertionsLoop) : Prop where
  ok : loop.ok = assertions.all passed
  failedName : loop.failedName = ((assertions.find? fun a => !passed a).map Assertion.name).getD ""
  out : loop.out = assertions.map (entry passed)

variable {passed : Assertion → Bool} {assertions : List Assertion} {loop : AssertionsLoop}

theorem find?_eq_none_of_all (h : assertions.all passed = true) :
    (assertions.find? fun a => !passed a) = none := by
  apply List.find?_eq_none.mpr
  intro a ha
  simp [List.all_eq_true.mp h a ha]

theorem LoopSpec.check (h : LoopSpec passed assertions loop) (a : Assertion) :
    LoopSpec passed (assertions ++ [a]) (loop.check a (passed a)) := by
  cases hpassed : passed a with
  | true =>
      constructor
      · simp [AssertionsLoop.check, h.ok, hpassed]
      · simp [AssertionsLoop.check, h.failedName, hpassed, List.find?_append]
      · simp [AssertionsLoop.check, h.out, entry, hpassed]
  | false =>
      constructor
      · simp [AssertionsLoop.check, hpassed]
      · -- the name is taken when the flag is still set, that is for the first one
        cases hall : assertions.all passed with
        | true =>
            have hnone := find?_eq_none_of_all hall
            simp [AssertionsLoop.check, h.ok, hall, hpassed, List.find?_append, hnone]
        | false =>
            obtain ⟨b, hb⟩ : ∃ b, (assertions.find? fun a => !passed a) = some b := by
              apply Option.isSome_iff_exists.mp
              simpa [List.find?_isSome, List.all_eq_false] using hall
            simp [AssertionsLoop.check, h.ok, hall, h.failedName, List.find?_append, hb]
      · simp [AssertionsLoop.check, h.out, entry, hpassed]

theorem foldl_check_spec (passed : Assertion → Bool) (assertions : List Assertion) :
    LoopSpec passed assertions
      (assertions.foldl (fun loop a => loop.check a (passed a)) ⟨true, "", []⟩) := by
  induction assertions using List.reverseRecOn with
  | nil => exact ⟨rfl, rfl, rfl⟩
  | append_singleton assertions a ih =>
      rw [List.foldl_append]
      exact ih.check a

section Eval

variable {F : Type} [BEq F] [LT F] [LE F] [DecidableLT F] [DecidableLE F] (lib : Library F)

/-- `evalAssertion` returned true. -/
def passes (ctx : AssertionContext F) (a : Assertion) : Bool :=
  decide (evalAssertion lib.parseFloat a.expr ctx = .ok true)

theorem evalAssertions_spec (assertions : List Assertion) (ctx : AssertionContext F) :
    LoopSpec (passes lib ctx) assertions (evalAssertions lib.parseFloat assertions ctx) := by
  have hpasses : ∀ a : Assertion,
      (evalAssertion lib.parseFloat a.expr ctx).toOption.getD false = passes lib ctx a := by
    intro a
    unfold passes
    rcases evalAssertion lib.parseFloat a.expr ctx with err | passed
    · rfl
    · cases passed <;> rfl
  unfold evalAssertions
  simp only [hpasses]
  exact foldl_check_spec (passes lib ctx) assertions

end Eval

/-! ## The result -/

/-- The four fields agree with each other and with the assertions. -/
structure Coherent (passed : Assertion → Bool) (assertions : List Assertion) (succeeded : Prop)
    (r : ProbeResult) : Prop where
  evaluated : succeeded → r.assertionResults = assertions.map (entry passed)
  not_evaluated : ¬ succeeded → r.assertionResults = []
  ok_iff : succeeded → (r.result = "ok" ↔ ∀ a ∈ assertions, passed a = true)
  assertion_failed_iff : succeeded →
    (r.result = "assertion_failed" ↔ ¬ ∀ a ∈ assertions, passed a = true)
  failedAssertion_iff : r.failedAssertion ≠ "" ↔ r.result = "assertion_failed"
  first : r.result = "assertion_failed" →
    (r.assertionResults.find? fun e => e.result = 0).map AssertionResult.name =
      some r.failedAssertion

theorem find?_entry (passed : Assertion → Bool) (assertions : List Assertion) :
    ((assertions.map (entry passed)).find? fun e => e.result = 0).map AssertionResult.name =
      (assertions.find? fun a => !passed a).map Assertion.name := by
  have hzero : ((fun e : AssertionResult => decide (e.result = 0)) ∘ entry passed) =
      fun a => !passed a := by
    ext a
    cases hpassed : passed a <;> simp [entry, hpassed]
  rw [List.find?_map, Option.map_map, hzero]
  rfl

/-- The results of a run that got as far as its assertions. -/
def Evaluated (result : String) : Prop := result = "ok" ∨ result = "assertion_failed"

instance (result : String) : Decidable (Evaluated result) := instDecidableOr

theorem not_evaluated_of_mem {result : String} (h : result ∈ failureResults) :
    ¬ Evaluated result := by
  have hnone : ∀ result ∈ failureResults, ¬ Evaluated result := by decide
  exact hnone result h

/-- The outcome of the loop in the fields of a result. -/
def withOutcome (out : ProbeResult) (outcome : AssertionOutcome) : ProbeResult :=
  { out with
    result := outcome.result
    failedAssertion := outcome.failedAssertion
    assertionResults := outcome.assertionResults }

/-- A run that failed: its result is neither of the two, and the other fields are unset. -/
theorem coherent_of_failure {out : ProbeResult} {result : String} {succeeded : Prop}
    (hname : out.failedAssertion = "") (hresults : out.assertionResults = [])
    (hfailure : ¬ Evaluated result) (hnot : ¬ succeeded) :
    Coherent passed assertions succeeded { out with result := result } where
  evaluated h := absurd h hnot
  not_evaluated _ := hresults
  ok_iff h := absurd h hnot
  assertion_failed_iff h := absurd h hnot
  failedAssertion_iff := iff_of_false (fun h => h hname) fun h => hfailure (.inr h)
  first h := absurd (.inr h) hfailure

theorem LoopSpec.ok_iff (h : LoopSpec passed assertions loop) :
    loop.outcome.result = "ok" ↔ ∀ a ∈ assertions, passed a = true := by
  show outcomeFromOK loop.ok = "ok" ↔ _
  rw [h.ok, ← List.all_eq_true]
  cases assertions.all passed <;> decide

theorem LoopSpec.assertion_failed_iff (h : LoopSpec passed assertions loop) :
    loop.outcome.result = "assertion_failed" ↔ ¬ ∀ a ∈ assertions, passed a = true := by
  show outcomeFromOK loop.ok = "assertion_failed" ↔ _
  rw [h.ok, ← List.all_eq_true]
  cases assertions.all passed <;> decide

/-- A run that was evaluated. -/
theorem LoopSpec.coherent (h : LoopSpec passed assertions loop) (out : ProbeResult)
    {succeeded : Prop} (hsucceeded : succeeded) (hnames : ∀ a ∈ assertions, a.name ≠ "") :
    Coherent passed assertions succeeded (withOutcome out loop.outcome) := by
  have hname : loop.outcome.failedAssertion =
      ((assertions.find? fun a => !passed a).map Assertion.name).getD "" := h.failedName
  have hfirst : loop.outcome.result = "assertion_failed" →
      ∃ a ∈ assertions, (assertions.find? fun a => !passed a) = some a := by
    intro hresult
    obtain ⟨a, ha⟩ : ∃ a, (assertions.find? fun a => !passed a) = some a := by
      apply Option.isSome_iff_exists.mp
      simpa [List.find?_isSome] using h.assertion_failed_iff.mp hresult
    exact ⟨a, List.mem_of_find?_eq_some ha, ha⟩
  constructor
  case evaluated => exact fun _ => h.out
  case not_evaluated => exact fun hnot => absurd hsucceeded hnot
  case ok_iff => exact fun _ => h.ok_iff
  case assertion_failed_iff => exact fun _ => h.assertion_failed_iff
  case failedAssertion_iff =>
    constructor
    · intro hne
      apply h.assertion_failed_iff.mpr
      intro hall
      apply hne
      show loop.outcome.failedAssertion = ""
      rw [hname, find?_eq_none_of_all (List.all_eq_true.mpr hall)]
      rfl
    · intro hresult
      obtain ⟨a, ha, hfind⟩ := hfirst hresult
      show loop.outcome.failedAssertion ≠ ""
      rw [hname, hfind]
      exact hnames a ha
  case first =>
    intro hresult
    obtain ⟨a, -, hfind⟩ := hfirst hresult
    show (loop.out.find? fun e => e.result = 0).map _ = some loop.outcome.failedAssertion
    rw [hname, h.out, find?_entry, hfind]
    rfl

/-- The switch with the outcome of the loop. -/
theorem conclude_coherent {out : ProbeResult} (hname : out.failedAssertion = "")
    (hresults : out.assertionResults = []) (configError : Bool) {failure : Option String}
    (hfailure : ∀ result ∈ failure, result ∈ failureResults)
    (hspec : LoopSpec passed assertions loop) (hnames : ∀ a ∈ assertions, a.name ≠ "") :
    Coherent passed assertions (configError = false ∧ failure = none)
      (conclude out configError failure assertions loop.outcome) := by
  unfold conclude
  cases configError with
  | true => exact coherent_of_failure hname hresults (by decide) (by simp)
  | false =>
      cases failure with
      | some result =>
          exact coherent_of_failure hname hresults (not_evaluated_of_mem (hfailure result rfl))
            (by simp)
      | none =>
          simp only [Bool.false_eq_true, if_false]
          split
          · -- no assertions: the result is set without the loop, to what it would give
            rename_i hnil
            subst hnil
            constructor <;> simp [hname, hresults]
          · exact hspec.coherent out ⟨trivial, trivial⟩ hnames

/-- A run is evaluated exactly when it succeeded. -/
theorem conclude_evaluated_iff (out : ProbeResult) (configError : Bool) {failure : Option String}
    (hfailure : ∀ result ∈ failure, result ∈ failureResults) (assertions : List Assertion)
    (loop : AssertionsLoop) :
    Evaluated (conclude out configError failure assertions loop.outcome).result ↔
      configError = false ∧ failure = none := by
  rcases conclude_cases out configError failure assertions loop with
    ⟨hconfig, hresult⟩ | ⟨-, hresult⟩ | ⟨hconfig, hnone, hresult⟩
  · rw [hresult]
    exact iff_of_false (by decide) (by simp [hconfig])
  · have hnot := not_evaluated_of_mem (hfailure _ hresult)
    exact iff_of_false hnot fun h => by simp [h.2] at hresult
  · exact iff_of_true hresult ⟨hconfig, hnone⟩

/-! ## The executors -/

section Executors

variable {F : Type} [BEq F] [LT F] [LE F] [DecidableLT F] [DecidableLE F]
  (lib : Library F) (w : World)

/-- The raw result of an HTTPProbe's run. -/
def httpRaw (payload : HTTPProbeSpecPayload) : HTTPResult :=
  executeRequest lib w (runContext w.ctx w.created payload.timeoutMs)
    ⟨payload.url, payload.method, payload.headers, payload.body, payload.tls⟩

def dnsRaw (payload : DNSProbeSpecPayload) : DNSResult :=
  executeQuery lib w (runContext w.ctx w.created payload.timeoutMs) payload.name payload.type
    payload.resolver

def tcpRaw (payload : TCPProbeSpecPayload) : TCPResult :=
  connect w (runContext w.ctx w.created payload.timeoutMs) payload.host payload.port

variable {lib w} in
theorem evaluated_http_iff {job : ProbeJob} {payload : HTTPProbeSpecPayload}
    (h : job.spec.httpProbe = some payload) :
    Evaluated (executeHTTP lib w job).result ↔
      (httpRaw lib w payload).configError = false ∧
        (httpRaw lib w payload).transportErr = none := by
  rw [← Option.map_eq_none_iff (f := classifyHTTPTransport)]
  simp only [executeHTTP, h]
  exact conclude_evaluated_iff _ _
    (mem_failureResults classifyHTTPTransport_mem) _ _

variable {lib w} in
theorem evaluated_dns_iff {job : ProbeJob} {payload : DNSProbeSpecPayload}
    (h : job.spec.dnsProbe = some payload) :
    Evaluated (executeDNS lib w job).result ↔
      (dnsRaw lib w payload).configError = false ∧ (dnsRaw lib w payload).resolverErr = none := by
  rw [← Option.map_eq_none_iff (f := fun _ : String => "dns_failed")]
  simp only [executeDNS, h]
  exact conclude_evaluated_iff _ _ (mem_failureResults fun _ => by decide) _ _

/-- For every job of each kind with a payload whose assertions have names, and whatever the
network and the clock do, the fields of the result that assertions decide are coherent. -/
theorem execute_coherent (job : ProbeJob) :
    (∀ payload, job.spec.httpProbe = some payload → (∀ a ∈ payload.assertions, a.name ≠ "") →
      Coherent (passes lib (httpContext lib.float64 w.evaluated (httpRaw lib w payload)))
        payload.assertions
        ((httpRaw lib w payload).configError = false ∧
          (httpRaw lib w payload).transportErr = none)
        (executeHTTP lib w job)) ∧
    (∀ payload, job.spec.dnsProbe = some payload → (∀ a ∈ payload.assertions, a.name ≠ "") →
      Coherent (passes lib (dnsContext lib.float64 (dnsRaw lib w payload))) payload.assertions
        ((dnsRaw lib w payload).configError = false ∧ (dnsRaw lib w payload).resolverErr = none)
        (executeDNS lib w job)) ∧
    (∀ payload, job.spec.tcpProbe = some payload → (∀ a ∈ payload.assertions, a.name ≠ "") →
      Coherent (passes lib (tcpContext lib.float64 (tcpRaw w payload))) payload.assertions
        ((tcpRaw w payload).configError = false ∧ (tcpRaw w payload).connectErr = none)
        (executeTCP lib w job)) := by
  refine ⟨fun payload hpayload hnames => ?_, fun payload hpayload hnames => ?_,
    fun payload hpayload hnames => ?_⟩
  · rw [← Option.map_eq_none_iff (f := classifyHTTPTransport)]
    simp only [executeHTTP, hpayload]
    exact conclude_coherent rfl rfl _ (mem_failureResults classifyHTTPTransport_mem)
      (evalAssertions_spec lib _ _) hnames
  · rw [← Option.map_eq_none_iff (f := fun _ : String => "dns_failed")]
    simp only [executeDNS, hpayload]
    exact conclude_coherent rfl rfl _ (mem_failureResults fun _ => by decide)
      (evalAssertions_spec lib _ _) hnames
  · rw [← Option.map_eq_none_iff (f := classifyTCPConnect)]
    simp only [executeTCP, hpayload]
    exact conclude_coherent rfl rfl _ (mem_failureResults classifyTCPConnect_mem)
      (evalAssertions_spec lib _ _) hnames

end Executors

/-- Two assertions of one name, of which the second has an unknown variable. -/
def statusPayload : HTTPProbeSpecPayload where
  timeoutMs := 5000
  url := "https://example.com/health"
  method := "GET"
  headers := ∅
  body := ""
  tls := none
  assertions := [⟨"status", "status_code = 200"⟩, ⟨"status", "status = 200"⟩]

def statusJob : ProbeJob where
  spec :=
    { kind := .httpProbe, name := "health", ns := "default", httpProbe := some statusPayload }
  scheduledAt := ⟨0⟩

theorem execute_coherent_status :
    (∀ a ∈ statusPayload.assertions, a.name ≠ "") ∧
    Coherent
      (passes Library.sample (httpContext Library.sample.float64 answering.evaluated
        (httpRaw Library.sample answering statusPayload)))
      statusPayload.assertions
      ((httpRaw Library.sample answering statusPayload).configError = false ∧
        (httpRaw Library.sample answering statusPayload).transportErr = none)
      (executeHTTP Library.sample answering statusJob) :=
  ⟨by decide, (execute_coherent Library.sample answering statusJob).1 statusPayload rfl (by decide)⟩

end SyntheticsOperator.Proofs.Outcomes
