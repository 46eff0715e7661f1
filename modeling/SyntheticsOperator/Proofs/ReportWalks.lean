import SyntheticsOperator.Images.PlaywrightRunner
import SyntheticsOperator.MetricsConsumer.Consumer

/-!
# Failed tests of a Playwright report

Both walks visit the tests of a report in its order, so they agree exactly when they agree
on each test.  They do not on a test whose last attempt was skipped: `parseReport` lists it
as not passed and `formatFailures` leaves it out.
-/

namespace SyntheticsOperator.Proofs.ReportWalks

open SyntheticsOperator.Api (CrKey)
open SyntheticsOperator.Images.Playwright
open SyntheticsOperator.Metrics
open SyntheticsOperator.MetricsConsumer
open SyntheticsOperator.Support

/-! ## The tests in order -/

def specTests (trail : List String) (specs : List Spec) : List Located :=
  specs.flatMap fun spec => (spec.tests.getD []).map fun test => ⟨trail, spec, test⟩

mutual

def suiteTests (trail : List String) : Suite → List Located
  | .mk title specs suites =>
      specTests (nextTrail trail title) (specs.getD []) ++
        match suites with
        | none => []
        | some suites => testsOf (nextTrail trail title) suites

def testsOf (trail : List String) : List Suite → List Located
  | [] => []
  | suite :: rest => suiteTests trail suite ++ testsOf trail rest

end

/-- The tests of a report, in its order. -/
def reportTests (report : Report) : List Located := testsOf [] (report.suites.getD [])

section Walk

variable {β : Type} (visit : Located → Option β)

theorem walkSpecs_eq (trail : List String) (out : List β) (specs : List Spec) :
    walkSpecs visit trail out specs = out ++ (specTests trail specs).filterMap visit := by
  have hspec : ∀ (spec : Spec) (out : List β), (spec.tests.getD []).foldl
      (fun out test => out ++ (visit ⟨trail, spec, test⟩).toList) out =
        out ++ ((spec.tests.getD []).map (Located.mk trail spec)).filterMap visit := by
    intro spec out
    rw [List.filterMap_map, List.filterMap_eq_flatMap_toList, List.foldl_append_eq_append]
    rfl
  unfold walkSpecs specTests
  simp only [hspec]
  rw [List.foldl_append_eq_append, List.filterMap_flatMap]
  rfl

mutual

theorem walkSuite_eq (trail : List String) (out : List β) :
    ∀ suite, walkSuite visit trail out suite = out ++ (suiteTests trail suite).filterMap visit
  | .mk title specs none => by
      simp [walkSuite, suiteTests, walkSpecs_eq]
  | .mk title specs (some suites) => by
      simp [walkSuite, suiteTests, walkSpecs_eq, walk_eq _ _ suites]

/-- A walk pushes what it pushes for each test, in the order of the report. -/
theorem walk_eq (trail : List String) (out : List β) :
    ∀ suites, walk visit trail out suites = out ++ (testsOf trail suites).filterMap visit
  | [] => by simp [walk, testsOf]
  | suite :: rest => by
      simp [walk, testsOf, walkSuite_eq trail out suite, walk_eq trail _ rest]

end

end Walk

/-! ## What the walks take as failed -/

/-- The tests that `parseReport` lists with `passed` false. -/
def listedFailed (report : Report) : List Located :=
  (report.rows.filter fun r => r.row.passed = false).map (·.origin)

/-- The tests whose errors `formatFailures` collects. -/
def collectedFailed (report : Report) : List Located := report.failures.map (·.origin)

/-- The status of the last attempt. -/
def lastStatus (test : Test) : Option (Option String) := test.last.map (·.status)

def isListed (t : Located) : Bool := (lastStatus t.test).any (· ≠ some "passed")

def isCollected (t : Located) : Bool :=
  (lastStatus t.test).any fun status => status ≠ some "passed" ∧ status ≠ some "skipped"

theorem listedFailed_eq (report : Report) :
    listedFailed report = (reportTests report).filter isListed := by
  have hvisit : ∀ t, ((parseTest t).filter fun r => r.row.passed = false).map (·.origin) =
      Option.guard isListed t := by
    intro t
    unfold parseTest isListed lastStatus Option.guard
    cases hlast : t.test.last with
    | none => simp [hlast]
    | some last =>
        by_cases hpassed : last.status = some "passed" <;> simp [hlast, hpassed, Option.filter]
  rw [listedFailed, Report.rows, walk_eq, List.nil_append, List.filter_filterMap,
    List.map_filterMap, ← List.filterMap_eq_filter]
  exact congrArg (fun f => List.filterMap f _) (funext hvisit)

theorem collectedFailed_eq (report : Report) :
    collectedFailed report = (reportTests report).filter isCollected := by
  have hvisit : ∀ t, (failTest t).map (·.origin) = Option.guard isCollected t := by
    intro t
    unfold failTest isCollected lastStatus Option.guard
    cases hlast : t.test.last with
    | none => simp [hlast]
    | some last =>
        by_cases hpassed : last.status = some "passed"
        · simp [hlast, hpassed]
        · by_cases hskipped : last.status = some "skipped" <;> simp [hlast, hpassed, hskipped]
  rw [collectedFailed, Report.failures, walk_eq, List.nil_append, List.map_filterMap,
    ← List.filterMap_eq_filter]
  exact congrArg (fun f => List.filterMap f _) (funext hvisit)

theorem filter_eq_filter_iff {α : Type} {p q : α → Bool} {l : List α} :
    l.filter p = l.filter q ↔ ∀ a ∈ l, p a = q a := by
  constructor
  · intro heq a ha
    have hmem : a ∈ l.filter p ↔ a ∈ l.filter q := by rw [heq]
    rw [List.mem_filter, List.mem_filter, and_congr_right_iff] at hmem
    exact Bool.eq_iff_iff.mpr (hmem ha)
  · exact List.filter_congr

theorem isListed_eq_iff (t : Located) :
    isListed t = isCollected t ↔ lastStatus t.test ≠ some (some "skipped") := by
  unfold isListed isCollected
  cases lastStatus t.test with
  | none => simp
  | some status =>
      by_cases hskipped : status = some "skipped" <;> simp [hskipped]

theorem failed_eq_iff (report : Report) :
    listedFailed report = collectedFailed report ↔
      ∀ t ∈ reportTests report, lastStatus t.test ≠ some (some "skipped") := by
  rw [listedFailed_eq, collectedFailed_eq, filter_eq_filter_iff]
  exact forall₂_congr fun t _ => isListed_eq_iff t

theorem length_listedFailed (report : Report) :
    (listedFailed report).length = (parseReport report).countP (!·.passed) := by
  rw [listedFailed, List.length_map, parseReport, List.countP_map, List.countP_eq_length_filter]
  simp [Function.comp_def]

/-! ## The metric -/

/-- A scrape reports this value of `synthetics_test_playwright_cases_failed` for a
resource. -/
def CasesFailed (s : Store) (now : Time) (key : CrKey) (value : ℚ) : Prop :=
  ∃ attrs, (key, ⟨.playwrightCasesFailed, value, attrs⟩) ∈ s.scrape now

section Metric

variable {s : Store} {now : Time} {key : CrKey} {value : ℚ} {attrs : List KeyValue}

theorem mem_observePlaywright {state : TestState} {caseAttrs : List KeyValue} :
    ⟨.playwrightCasesFailed, value, attrs⟩ ∈ Store.observePlaywright caseAttrs state ↔
      value = state.playwrightTests.countP (!·.passed) ∧ attrs = caseAttrs := by
  simp [Store.observePlaywright]

theorem observeSuppressed_ne {gauge : Instrument} (hgauge : gauge ≠ .playwrightCasesFailed)
    (shared : List KeyValue) (kind : Api.Kind) (name : Api.NamespacedName) (result : Result) :
    ∀ o ∈ s.observeSuppressed now gauge shared kind name result,
      o.instrument ≠ .playwrightCasesFailed := by
  intro o ho
  obtain ⟨dep, -, rfl⟩ := Store.mem_observeSuppressed ho
  exact hgauge

theorem observeProbe_ne (name : Api.NamespacedName) (state : ProbeState) :
    ∀ o ∈ s.observeProbe now name state, o.instrument ≠ .playwrightCasesFailed := by
  simp only [Store.observeProbe, List.forall_mem_append]
  refine ⟨⟨⟨by simp, observeSuppressed_ne (by decide) _ _ _ _⟩, by simp⟩, ?_⟩
  split
  · unfold Store.observeHTTP
    split <;> simp
  · unfold Store.observeDNS
    split <;> split <;> simp
  · simp [Store.observeTCP]
  · simp

theorem observeHeartbeat_ne (name : Api.NamespacedName) (state : Heartbeat.Lifecycle.State) :
    ∀ o ∈ s.observeHeartbeat now name state, o.instrument ≠ .playwrightCasesFailed := by
  unfold Store.observeHeartbeat
  split
  · simp
  · simp only [List.forall_mem_append]
    exact ⟨by simp, observeSuppressed_ne (by decide) _ _ _ _⟩

variable (s now)

theorem mem_observeTest (name : Api.NamespacedName) {state : TestState}
    (hkind : state.kind = .playwrightTest) :
    (∃ attrs, ⟨.playwrightCasesFailed, value, attrs⟩ ∈ s.observeTest now name state) ↔
      value = state.playwrightTests.countP (!·.passed) := by
  have hsuppressed (shared : List KeyValue) (attrs : List KeyValue) :
      ⟨.playwrightCasesFailed, value, attrs⟩ ∉
        s.observeSuppressed now .testSuppressedGauge shared state.kind name state.result :=
    fun h => observeSuppressed_ne (by decide) _ _ _ _ _ h rfl
  simp only [Store.observeTest, List.mem_append, hsuppressed, if_pos hkind, or_false,
    mem_observePlaywright]
  simp

variable {s}

/-- The value for a resource whose last result is in the store. -/
theorem casesFailed_iff {state : TestState} (hstate : s.tests.lookup key = some state)
    (hkind : state.kind = .playwrightTest) :
    CasesFailed s now key value ↔ value = state.playwrightTests.countP (!·.passed) := by
  rw [← mem_observeTest s now key.name hkind]
  unfold CasesFailed
  simp only [Store.mem_scrape]
  apply exists_congr
  intro attrs
  constructor
  · rintro (⟨state', -, h⟩ | ⟨state', hstate', h⟩ | ⟨state', -, h⟩)
    · exact absurd rfl (observeProbe_ne _ _ _ h)
    · rw [hstate, Option.some.injEq] at hstate'
      rwa [hstate']
    · exact absurd rfl (observeHeartbeat_ne _ _ _ h)
  · intro h
    exact .inr (.inl ⟨state, hstate, h⟩)

end Metric

/-- The value once the consumer has processed the result of a run. -/
theorem casesFailed_result_iff (run : Run) (store : Store) (now : Time) (value : ℚ) :
    CasesFailed (onTestResult store run.result).1 now run.result.key value ↔
      value = run.tests.countP (!·.passed) := by
  have hstored : (onTestResult store run.result).1.tests.lookup run.result.key =
      some ⟨.playwrightTest, resultFromSuccess run.result.success, run.durationMs,
        run.started.unix, run.tests⟩ := Finmap.lookup_insert _
  exact casesFailed_iff now hstored rfl

/-! ## Agreement -/

/-- The two walks agree on what failed, and the metric counts it after every run with the
report, exactly when no test of the report was skipped in its last attempt. -/
theorem failures_agree_iff (report : Report) :
    (listedFailed report = collectedFailed report ∧
      ∀ (run : Run) (store : Store) (now : Time), run.report = .ok report →
        (∀ value, CasesFailed (onTestResult store run.result).1 now run.result.key value ↔
          value = (collectedFailed report).length) ∧
        (collectedFailed report = [] →
          CasesFailed (onTestResult store run.result).1 now run.result.key 0)) ↔
    ∀ t ∈ reportTests report, lastStatus t.test ≠ some (some "skipped") := by
  rw [← failed_eq_iff]
  constructor
  · exact fun h => h.1
  · intro hagree
    refine ⟨hagree, ?_⟩
    intro run store now hreport
    have htests : run.tests = parseReport report := by rw [Run.tests, hreport]
    have hcount : run.tests.countP (!·.passed) = (collectedFailed report).length := by
      rw [htests, ← length_listedFailed, hagree]
    have hvalue (value : ℚ) :
        CasesFailed (onTestResult store run.result).1 now run.result.key value ↔
          value = (collectedFailed report).length := by
      rw [casesFailed_result_iff, hcount]
    refine ⟨hvalue, ?_⟩
    intro hnone
    apply (hvalue 0).mpr
    rw [hnone]
    rfl

/-- One test, which was skipped. -/
def skippedReport : Report where
  errors := none
  suites := some
    [.mk (some "checkout.spec.js")
      (some [⟨some "pays by invoice", some [⟨some [⟨some "skipped", some 0, none, none⟩]⟩]⟩])
      none]

/-- The run passes. -/
def skippedRun : Run where
  name := "checkout"
  ns := "default"
  started := ⟨1700000000000000000⟩
  durationMs := 800
  code := some 0
  report := .ok skippedReport

/-- No failure is collected from it, and the test is counted as a failed case. -/
theorem skippedReport_counted :
    (listedFailed skippedReport).length = 1 ∧ collectedFailed skippedReport = [] ∧
    skippedRun.result.success = true ∧
    CasesFailed (onTestResult Store.empty skippedRun.result).1 ⟨1700000060000000000⟩
      skippedRun.result.key 1 := by
  refine ⟨by decide +kernel, by decide +kernel, by decide, ?_⟩
  rw [casesFailed_result_iff]
  decide +kernel

end SyntheticsOperator.Proofs.ReportWalks
