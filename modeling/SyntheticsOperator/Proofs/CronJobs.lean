import SyntheticsOperator.Controllers.TestControllers
import SyntheticsOperator.Proofs.Schedules
import SyntheticsOperator.Support.Histories
import SyntheticsOperator.Support.MapLookup

/-!
# The CronJobs of tests

`Reconcile` sets every field of the CronJob it owns, the affinity of the pod only for a
spec with a runner: that field can be left over from an earlier spec.  The CronJob has the
name of its test, whatever the kind, so a K6Test and a PlaywrightTest of one name compete
for one CronJob, and the one that is reconciled first keeps it.
-/

namespace SyntheticsOperator.Proofs.CronJobs

open SyntheticsOperator.Api
open SyntheticsOperator.Controllers
open SyntheticsOperator.Proofs.Schedules (exists_validSchedule)
open SyntheticsOperator.Support
open SyntheticsOperator.Support.Histories

/-! ## What the controller sets -/

/-- Nothing of the stored spec is kept but, for a test without a runner, the affinity. -/
theorem mutateCronJob_eq_iff (old old' : CronJobSpec) (parts : TestParts) (schedule : String) :
    mutateCronJob old parts schedule = mutateCronJob old' parts schedule ↔
      parts.runner ≠ none ∨ old.template.affinity = old'.template.affinity := by
  cases hrunner : parts.runner with
  | none => simp [mutateCronJob, hrunner, hardenPodSpec]
  | some runner => simp [mutateCronJob, hrunner, hardenPodSpec]

theorem mutateCronJob_affinity (old : CronJobSpec) (parts : TestParts) (schedule : String) :
    (mutateCronJob old parts schedule).template.affinity =
      match parts.runner with
      | some runner => runner.affinity
      | none => old.template.affinity := by
  cases hrunner : parts.runner <;> simp [mutateCronJob, hrunner, hardenPodSpec]

section Reconcile

variable {T : Type} (r : TestReconciler T)

/-- Another controller owns the CronJob. -/
def Foreign (owner : OwnerReference) (cj : CronJob) : Prop :=
  ∃ other, cj.controller = some other ∧ owner.Foreign other

/-- The CronJob that is stored under the name of a test, or a new one. -/
def stored (test : T) (jobs : CronJobs) : CronJob := (jobs.lookup (r.name test)).getD {}

/-- The CronJob of a test, made from the one that is stored or a new one. -/
def renewed (test : T) (schedule : String) (controller : OwnerReference) (jobs : CronJobs) :
    CronJob where
  controller := some controller
  spec := mutateCronJob (stored r test jobs).spec (r.parts test) schedule

variable {r}

/-- What `SetControllerReference` can answer for the controller of a CronJob. -/
theorem setControllerReference_cases {kube : Kube} (hkube : kube.OneController) (cj : CronJob)
    (owner : OwnerReference) :
    (Foreign owner cj ∧ ∃ err, kube.setControllerReference owner cj.controller = .error err) ∨
      kube.setControllerReference owner cj.controller = .ok owner := by
  by_cases hforeign : Foreign owner cj
  · obtain ⟨other, hother, hne⟩ := hforeign
    rw [hother]
    exact .inl ⟨⟨other, hother, hne⟩, hkube.refuses owner other hne⟩
  · exact .inr (hkube.sets owner cj.controller fun other hother hne =>
      hforeign ⟨other, hother, hne⟩)

/-- What `reconcileCronJob` can do for a test with a schedule: fail and change nothing, or
leave the CronJob of the test under its name.  When no call of the API server fails, the
reason for the first is the controller of the CronJob. -/
theorem reconcileCronJob_cases (calls : TestCalls T) {test : T} (jobs : CronJobs)
    {schedule : String} (hschedule : r.schedule test = some schedule) :
    ((∃ err, r.reconcileCronJob calls test jobs = (jobs, .error err)) ∧
      (calls.getCronJob = .ok () → calls.writeCronJob = .ok () → ∃ err,
        calls.kube.setControllerReference (r.owner test) (stored r test jobs).controller =
          .error err)) ∨
    ∃ controller jobs',
      calls.kube.setControllerReference (r.owner test) (stored r test jobs).controller =
        .ok controller ∧
      r.reconcileCronJob calls test jobs = (jobs', .ok ()) ∧
      ∀ key, jobs'.lookup key =
        if key = r.name test then some (renewed r test schedule controller jobs)
        else jobs.lookup key := by
  simp only [TestReconciler.reconcileCronJob, hschedule, TestReconciler.mutate,
    CronJob.setControllerReference, ← stored.eq_def]
  cases calls.getCronJob with
  | error err => exact .inl ⟨⟨err, rfl⟩, fun hget => nomatch hget⟩
  | ok =>
      cases calls.kube.setControllerReference (r.owner test) (stored r test jobs).controller with
      | error err => exact .inl ⟨⟨err, rfl⟩, fun _ _ => ⟨err, rfl⟩⟩
      | ok controller =>
          simp only
          split
          · -- nothing has changed, and nothing is written
            rename_i hsame
            refine .inr ⟨controller, jobs, rfl, rfl, fun key => ?_⟩
            split
            · rename_i heq
              rw [heq, hsame]
              rfl
            · rfl
          · cases calls.writeCronJob with
            | error err => exact .inl ⟨⟨err, rfl⟩, fun _ hwrite => nomatch hwrite⟩
            | ok => exact .inr ⟨controller, _, rfl, rfl, fun key => lookup_insert_ite jobs _ key _⟩

/-- Past the publish, only `reconcileCronJob` changes a CronJob. -/
theorem reconcile_jobs {calls : TestCalls T} {test : T} (name : NamespacedName) (jobs : CronJobs)
    (hget : calls.get = .ok test) (hlive : (r.objectMeta test).deleting = false)
    (hpublish : calls.publish = .ok ()) :
    (r.reconcile calls name jobs).jobs = (r.reconcileCronJob calls test jobs).1 := by
  simp only [TestReconciler.reconcile, hget, hlive, Bool.false_eq_true, if_false,
    TestReconciler.reconcileTest, hpublish]
  rcases r.reconcileCronJob calls test jobs with ⟨jobs', err | _⟩
  · rfl
  · exact apply_ite TestReconciled.jobs _ _ _ |>.trans (ite_self _)

/-- A `Reconcile` that returns no error has published the spec and reconciled the CronJob. -/
theorem reconcile_ok {calls : TestCalls T} {test : T} {name : NamespacedName} {jobs : CronJobs}
    (hget : calls.get = .ok test) (hlive : (r.objectMeta test).deleting = false)
    (hresult : (r.reconcile calls name jobs).result = .ok ()) :
    calls.publish = .ok () ∧ (r.reconcileCronJob calls test jobs).2 = .ok () := by
  simp only [TestReconciler.reconcile, hget, hlive, Bool.false_eq_true, if_false,
    TestReconciler.reconcileTest] at hresult
  cases hpublish : calls.publish with
  | error err =>
      simp only [hpublish] at hresult
      cases hresult
  | ok =>
      simp only [hpublish] at hresult
      generalize r.reconcileCronJob calls test jobs = reconciled at hresult ⊢
      rcases reconciled with ⟨jobs', err | _⟩
      · cases hresult
      · exact ⟨rfl, rfl⟩

/-- `Reconcile` when no call of the API server fails. -/
theorem reconcile_succeed_cases {kube : Kube} (hkube : kube.OneController) (r : TestReconciler T)
    (test : T) (now : Time) (jobs : CronJobs) {schedule : String}
    (hlive : (r.objectMeta test).deleting = false)
    (hschedule : r.schedule test = some schedule) :
    (Foreign (r.owner test) (stored r test jobs) ∧
      (r.reconcile (.succeed kube test now) (r.name test) jobs).jobs = jobs) ∨
    ∀ key, (r.reconcile (.succeed kube test now) (r.name test) jobs).jobs.lookup key =
      if key = r.name test then some (renewed r test schedule (r.owner test) jobs)
      else jobs.lookup key := by
  rw [reconcile_jobs (r.name test) jobs rfl hlive rfl]
  have hset := setControllerReference_cases hkube (stored r test jobs) (r.owner test)
  rcases reconcileCronJob_cases (.succeed kube test now) jobs hschedule with
    ⟨⟨err, hfail⟩, hrefused⟩ | ⟨controller, jobs', hcontroller, hok, hlookup⟩
  · rw [hfail]
    refine .inl ⟨?_, rfl⟩
    obtain ⟨err', herr⟩ := hrefused rfl rfl
    rcases hset with ⟨hforeign, -⟩ | hset
    · exact hforeign
    · cases herr.symm.trans hset
  · rw [hok]
    obtain rfl : r.owner test = controller := by
      rcases hset with ⟨-, err, herr⟩ | hset
      · cases herr.symm.trans hcontroller
      · exact Except.ok.inj (hset.symm.trans hcontroller)
    exact .inr hlookup

end Reconcile

/-! ## Histories of one test -/

section History

variable {T : Type} (r : TestReconciler T)

/-- A `Reconcile` of this version of a test that returns no error. -/
def Succeeds (test : T) (jobs jobs' : CronJobs) : Prop :=
  ∃ calls : TestCalls T, calls.get = .ok test ∧
    (r.reconcile calls (r.name test) jobs).result = .ok () ∧
    (r.reconcile calls (r.name test) jobs).jobs = jobs'

/-- Successful reconciles of versions of tests one after the other, from no CronJob. -/
inductive Run : List T → CronJobs → Prop
  | nil : Run [] ∅
  | snoc {earlier : List T} {jobs jobs' : CronJobs} {test : T} (h : Run earlier jobs)
      (hnext : Succeeds r test jobs jobs') : Run (earlier ++ [test]) jobs'

/-- The runner of a version that reaches the CronJob. -/
def liveRunner (test : T) : Option RunnerSpec :=
  if (r.objectMeta test).deleting then none else (r.parts test).runner

/-- The affinity in the last of these versions that has a runner. -/
def leftAffinity (earlier : List T) : Option Affinity :=
  (lastSome (liveRunner r) earlier).bind RunnerSpec.affinity

/-- A version of the test `name`, with a schedule. -/
structure Version (name : NamespacedName) (test : T) : Prop where
  named : r.name test = name
  scheduled : ∃ schedule, r.schedule test = some schedule

/-- Both CronJobs exist, and what the operator sets is the same in both. -/
def SameCronJob (name : NamespacedName) (jobs jobs' : CronJobs) : Prop :=
  ∃ cj cj', jobs.lookup name = some cj ∧ jobs'.lookup name = some cj' ∧ cj.spec = cj'.spec

variable {r} {name : NamespacedName} {jobs jobs' : CronJobs} {test : T}

theorem Succeeds.of_deleting (h : Succeeds r test jobs jobs')
    (hdeleting : (r.objectMeta test).deleting = true) : jobs' = jobs := by
  obtain ⟨calls, hget, _, rfl⟩ := h
  simp only [TestReconciler.reconcile, hget, hdeleting, if_true]

theorem Succeeds.lookup (h : Succeeds r test jobs jobs') (hnamed : r.name test = name)
    (hlive : (r.objectMeta test).deleting = false) {schedule : String}
    (hschedule : r.schedule test = some schedule) :
    ∃ controller, jobs'.lookup name = some (renewed r test schedule controller jobs) := by
  obtain ⟨calls, hget, hresult, rfl⟩ := h
  obtain ⟨hpublish, hreconciled⟩ := reconcile_ok hget hlive hresult
  rw [reconcile_jobs (r.name test) jobs hget hlive hpublish]
  rcases reconcileCronJob_cases calls jobs hschedule with
    ⟨⟨err, hfail⟩, _⟩ | ⟨controller, jobs', -, hok, hlookup⟩
  · rw [hfail] at hreconciled
    cases hreconciled
  · exact ⟨controller, by rw [hok, hlookup name, if_pos hnamed.symm]⟩

/-- The affinity that is stored is the one that was left. -/
theorem Run.affinity {earlier : List T} (hrun : Run r earlier jobs)
    (hversions : ∀ test ∈ earlier, Version r name test) :
    ((jobs.lookup name).getD {}).spec.template.affinity = leftAffinity r earlier := by
  induction hrun with
  | nil => rfl
  | @snoc earlier jobs jobs' test hrun hnext ih =>
      have hversion : Version r name test := hversions test (by simp)
      have hold := ih fun test h => hversions test (List.mem_append_left _ h)
      rw [leftAffinity, lastSome_snoc]
      cases hlive : (r.objectMeta test).deleting with
      | true =>
          rw [hnext.of_deleting hlive, liveRunner, if_pos hlive]
          exact hold
      | false =>
          obtain ⟨schedule, hschedule⟩ := hversion.scheduled
          obtain ⟨controller, hlookup⟩ := hnext.lookup hversion.named hlive hschedule
          rw [hlookup, Option.getD_some, renewed, mutateCronJob_affinity, stored,
            hversion.named, hold, leftAffinity, liveRunner, hlive]
          cases (r.parts test).runner <;> rfl

/-- What the last reconcile of a history leaves: nothing of the stored spec but the
affinity. -/
theorem Run.last {earlier : List T} (hrun : Run r (earlier ++ [test]) jobs)
    (hversions : ∀ t ∈ earlier ++ [test], Version r name t)
    (hlive : (r.objectMeta test).deleting = false) {schedule : String}
    (hschedule : r.schedule test = some schedule) :
    ∃ old : CronJobSpec, old.template.affinity = leftAffinity r earlier ∧
      ∃ cj, jobs.lookup name = some cj ∧
        cj.spec = mutateCronJob old (r.parts test) schedule := by
  generalize hall : earlier ++ [test] = all at hrun
  cases hrun with
  | nil => simp at hall
  | @snoc earlier₁ jobs₁ _ test₁ hrun₁ hnext =>
      obtain ⟨rfl, hlast⟩ := List.append_inj' hall rfl
      obtain rfl : test = test₁ := by simpa using hlast
      have hnamed : r.name test = name := (hversions test (by simp)).named
      obtain ⟨controller, hlookup⟩ := hnext.lookup hnamed hlive hschedule
      refine ⟨((jobs₁.lookup name).getD {}).spec, ?_, _, hlookup, by rw [renewed, stored, hnamed]⟩
      exact hrun₁.affinity fun t ht => hversions t (List.mem_append_left _ ht)

/-- After two histories that end with one spec, the CronJobs are the same exactly when that
spec has a runner, or both histories left the same affinity. -/
theorem sameCronJob_iff {earlier earlier' : List T} {test' : T}
    (hversions : ∀ t ∈ (earlier ++ [test]) ++ (earlier' ++ [test']), Version r name t)
    (hlive : (r.objectMeta test).deleting = false)
    (hlive' : (r.objectMeta test').deleting = false)
    (hspec : r.name test = r.name test' →
      r.parts test = r.parts test' ∧ r.schedule test = r.schedule test')
    (hrun : Run r (earlier ++ [test]) jobs) (hrun' : Run r (earlier' ++ [test']) jobs') :
    SameCronJob name jobs jobs' ↔
      (r.parts test).runner ≠ none ∨ leftAffinity r earlier = leftAffinity r earlier' := by
  have hversion : Version r name test := hversions test (by simp)
  have hversion' : Version r name test' := hversions test' (by simp)
  obtain ⟨hparts, hschedule⟩ := hspec (hversion.named.trans hversion'.named.symm)
  obtain ⟨schedule, hsome⟩ := hversion.scheduled
  have hsome' : r.schedule test' = some schedule := hschedule ▸ hsome
  obtain ⟨old, haffinity, cj, hcj, hset⟩ :=
    hrun.last (fun t ht => hversions t (List.mem_append_left _ ht)) hlive hsome
  obtain ⟨old', haffinity', cj', hcj', hset'⟩ :=
    hrun'.last (fun t ht => hversions t (List.mem_append_right _ ht)) hlive' hsome'
  rw [← haffinity, ← haffinity', ← mutateCronJob_eq_iff old old' (r.parts test) schedule]
  constructor
  · rintro ⟨cj₁, cj₁', h, h', heq⟩
    rw [hcj] at h
    rw [hcj'] at h'
    cases h
    cases h'
    rw [← hset, heq, hset', hparts]
  · intro heq
    exact ⟨cj, cj', hcj, hcj', by rw [hset, heq, hset', hparts]⟩

end History

/-! ## The two kinds -/

section Kinds

variable {F : Type} (lib : Library F) (k6 : K6TestReconciler)
  (playwright : PlaywrightTestReconciler)

/-- The webhook admits the test. -/
def K6Admitted (t : K6Test) : Prop := ∃ reader, t.validate lib reader = []

@[inherit_doc K6Admitted]
def PlaywrightAdmitted (t : PlaywrightTest) : Prop := ∃ reader, t.validate lib reader = []

variable {lib}

theorem K6Admitted.scheduled {t : K6Test} (h : K6Admitted lib t) :
    ∃ schedule, k6.reconciler.schedule t = some schedule := by
  obtain ⟨reader, hvalid⟩ := h
  exact exists_validSchedule (K6Test.validateCronInterval_of_validate lib hvalid) _ _

theorem PlaywrightAdmitted.scheduled {t : PlaywrightTest} (h : PlaywrightAdmitted lib t) :
    ∃ schedule, playwright.reconciler.schedule t = some schedule := by
  obtain ⟨reader, hvalid⟩ := h
  exact exists_validSchedule (PlaywrightTest.validateCronInterval_of_validate lib hvalid) _ _

theorem k6_parts_eq {t t' : K6Test} (hspec : t.spec = t'.spec)
    (hname : k6.reconciler.name t = k6.reconciler.name t') :
    k6.reconciler.parts t = k6.reconciler.parts t' ∧
      k6.reconciler.schedule t = k6.reconciler.schedule t' := by
  have hns : t.ns = t'.ns := congrArg NamespacedName.ns hname
  have hlocal : t.name = t'.name := congrArg NamespacedName.name hname
  constructor
  · simp only [K6TestReconciler.reconciler, K6TestReconciler.buildVolumes,
      K6TestReconciler.buildRunnerContainers, hspec, hns, hlocal]
  · simp only [TestReconciler.schedule, K6TestReconciler.reconciler, hspec, hns, hlocal]

theorem playwright_parts_eq {t t' : PlaywrightTest} (hspec : t.spec = t'.spec)
    (hname : playwright.reconciler.name t = playwright.reconciler.name t') :
    playwright.reconciler.parts t = playwright.reconciler.parts t' ∧
      playwright.reconciler.schedule t = playwright.reconciler.schedule t' := by
  have hns : t.ns = t'.ns := congrArg NamespacedName.ns hname
  have hlocal : t.name = t'.name := congrArg NamespacedName.name hname
  constructor
  · simp only [PlaywrightTestReconciler.reconciler, PlaywrightTestReconciler.buildVolumes,
      PlaywrightTestReconciler.buildRunnerContainers, hspec, hns, hlocal]
  · simp only [TestReconciler.schedule, PlaywrightTestReconciler.reconciler, hspec, hns, hlocal]

variable (lib)

/-- The CronJob of a test depends on the history of its specs exactly through the affinity
that a spec without a runner leaves as it is. -/
theorem cronJob_independent_iff (name : NamespacedName) (jobs jobs' : CronJobs) :
    (∀ (earlier earlier' : List K6Test) (test test' : K6Test),
      (∀ t ∈ (earlier ++ [test]) ++ (earlier' ++ [test']),
        k6.reconciler.name t = name ∧ K6Admitted lib t) →
      test.deleting = false → test'.deleting = false → test.spec = test'.spec →
      Run k6.reconciler (earlier ++ [test]) jobs →
      Run k6.reconciler (earlier' ++ [test']) jobs' →
      (SameCronJob name jobs jobs' ↔ test.spec.runner ≠ none ∨
        leftAffinity k6.reconciler earlier = leftAffinity k6.reconciler earlier')) ∧
    (∀ (earlier earlier' : List PlaywrightTest) (test test' : PlaywrightTest),
      (∀ t ∈ (earlier ++ [test]) ++ (earlier' ++ [test']),
        playwright.reconciler.name t = name ∧ PlaywrightAdmitted lib t) →
      test.deleting = false → test'.deleting = false → test.spec = test'.spec →
      Run playwright.reconciler (earlier ++ [test]) jobs →
      Run playwright.reconciler (earlier' ++ [test']) jobs' →
      (SameCronJob name jobs jobs' ↔ test.spec.runner ≠ none ∨
        leftAffinity playwright.reconciler earlier =
          leftAffinity playwright.reconciler earlier')) := by
  constructor
  · intro earlier earlier' test test' hversions hlive hlive' hspec hrun hrun'
    have hversion : ∀ t ∈ (earlier ++ [test]) ++ (earlier' ++ [test']),
        Version k6.reconciler name t :=
      fun t ht => ⟨(hversions t ht).1, (hversions t ht).2.scheduled k6⟩
    exact sameCronJob_iff hversion hlive hlive' (k6_parts_eq k6 hspec) hrun hrun'
  · intro earlier earlier' test test' hversions hlive hlive' hspec hrun hrun'
    have hversion : ∀ t ∈ (earlier ++ [test]) ++ (earlier' ++ [test']),
        Version playwright.reconciler name t :=
      fun t ht => ⟨(hversions t ht).1, (hversions t ht).2.scheduled playwright⟩
    exact sameCronJob_iff hversion hlive hlive' (playwright_parts_eq playwright hspec) hrun hrun'

end Kinds

/-- The reconcilers of an installation. -/
def sampleK6 : K6TestReconciler := ⟨"nats://nats:4222", "sidecar", "k6-runner"⟩

@[inherit_doc sampleK6]
def samplePlaywright : PlaywrightTestReconciler :=
  ⟨"nats://nats:4222", "sidecar", "playwright-runner"⟩

/-- A test every five minutes. -/
def smokeK6 (runner : Option RunnerSpec) : K6Test where
  name := "smoke"
  ns := "default"
  uid := "k"
  generation := 1
  deletionTimestamp := none
  spec :=
    { interval := 300000000000
      suspend := false
      k6Version := "1.0.0"
      script := ⟨⟨"scripts", "smoke.js"⟩⟩
      ttlAfterFinished := 3600000000000
      runner := runner
      depends := []
      metricLabels := ∅ }

theorem smokeK6_admitted (runner : Option RunnerSpec) :
    K6Admitted Library.sample (smokeK6 runner) := by
  refine ⟨Cluster.empty.reader, ?_⟩
  show (smokeK6 none).validate Library.sample Cluster.empty.reader = []
  decide +kernel

/-- A runner that pins the test to some nodes. -/
def pinned : RunnerSpec := { affinity := some ⟨"nodeAffinity"⟩ }

/-- The CronJobs after these versions of the test, when no call fails. -/
def smokeJobs (runners : List (Option RunnerSpec)) : CronJobs :=
  runners.foldl (fun jobs runner =>
    (sampleK6.reconciler.reconcile (.succeed .sample (smokeK6 runner) ⟨0⟩) ⟨"default", "smoke"⟩
      jobs).jobs) ∅

theorem smokeJobs_run (runners : List (Option RunnerSpec)) (runner : Option RunnerSpec)
    (hearlier : Run sampleK6.reconciler (runners.map smokeK6) (smokeJobs runners))
    (hok : (sampleK6.reconciler.reconcile (.succeed .sample (smokeK6 runner) ⟨0⟩)
      ⟨"default", "smoke"⟩ (smokeJobs runners)).result = .ok ()) :
    Run sampleK6.reconciler (runners.map smokeK6 ++ [smokeK6 runner])
      (smokeJobs (runners ++ [runner])) := by
  refine hearlier.snoc ⟨.succeed .sample (smokeK6 runner) ⟨0⟩, rfl, hok, ?_⟩
  rw [smokeJobs, smokeJobs, List.foldl_append]
  rfl

/-- The spec has a runner, without an affinity: what an earlier version pinned is gone. -/
theorem cronJob_independent_unpinned :
    ∃ jobs jobs', Run sampleK6.reconciler [smokeK6 (some pinned), smokeK6 (some {})] jobs ∧
      Run sampleK6.reconciler [smokeK6 (some {})] jobs' ∧
      SameCronJob ⟨"default", "smoke"⟩ jobs jobs' := by
  have hpinned := smokeJobs_run [] (some pinned) .nil (by decide +kernel)
  have hrun := smokeJobs_run [some pinned] (some {}) hpinned (by decide +kernel)
  have hrun' := smokeJobs_run [] (some {}) .nil (by decide +kernel)
  refine ⟨_, _, hrun, hrun', ?_⟩
  refine ((cronJob_independent_iff Library.sample sampleK6 samplePlaywright
    ⟨"default", "smoke"⟩ _ _).1 [smokeK6 (some pinned)] [] (smokeK6 (some {}))
    (smokeK6 (some {})) ?_ rfl rfl rfl hrun hrun').mpr (.inl (by decide))
  intro t ht
  obtain ⟨runner, rfl⟩ : ∃ runner, t = smokeK6 runner := by
    simp only [List.cons_append, List.nil_append, List.mem_cons, List.not_mem_nil,
      or_false] at ht
    rcases ht with rfl | rfl | rfl
    · exact ⟨_, rfl⟩
    · exact ⟨_, rfl⟩
    · exact ⟨_, rfl⟩
  exact ⟨rfl, smokeK6_admitted runner⟩

/-- The runner is removed from the spec of a pinned test: its pods stay pinned. -/
theorem affinity_left_over :
    ∃ jobs jobs', Run sampleK6.reconciler [smokeK6 (some pinned), smokeK6 none] jobs ∧
      Run sampleK6.reconciler [smokeK6 none] jobs' ∧
      K6Admitted Library.sample (smokeK6 (some pinned)) ∧
      K6Admitted Library.sample (smokeK6 none) ∧
      ¬ SameCronJob ⟨"default", "smoke"⟩ jobs jobs' := by
  have hpinned := smokeJobs_run [] (some pinned) .nil (by decide +kernel)
  have hrun := smokeJobs_run [some pinned] none hpinned (by decide +kernel)
  have hrun' := smokeJobs_run [] none .nil (by decide +kernel)
  refine ⟨_, _, hrun, hrun', smokeK6_admitted _, smokeK6_admitted _, ?_⟩
  rintro ⟨cj, cj', hcj, hcj', hspec⟩
  have hkept : ((smokeJobs [some pinned, none]).lookup ⟨"default", "smoke"⟩).map
      (fun cj => cj.spec.template.affinity) = some (some ⟨"nodeAffinity"⟩) := by decide +kernel
  have hnew : ((smokeJobs [none]).lookup ⟨"default", "smoke"⟩).map
      (fun cj => cj.spec.template.affinity) = some none := by decide +kernel
  rw [show smokeJobs [some pinned, none] = smokeJobs ([some pinned] ++ [none]) from rfl, hcj,
    Option.map_some, hspec] at hkept
  rw [show smokeJobs [none] = smokeJobs ([] ++ [none]) from rfl, hcj', Option.map_some,
    Option.some.inj hkept] at hnew
  cases hnew

/-! ## Tests of both kinds in one namespace -/

inductive Test where
  | k6 (t : K6Test)
  | playwright (t : PlaywrightTest)
deriving DecidableEq

namespace Test

def kind : Test → Kind
  | k6 _ => .k6Test
  | playwright _ => .playwrightTest

def objectMeta : Test → ObjectMeta
  | k6 t => t.toObjectMeta
  | playwright t => t.toObjectMeta

def interval : Test → Duration
  | k6 t => t.spec.interval
  | playwright t => t.spec.interval

def name (t : Test) : NamespacedName := ⟨t.objectMeta.ns, t.objectMeta.name⟩

/-- What identifies the CR. -/
def key (t : Test) : CrKey := ⟨t.kind, t.name⟩

def owner (t : Test) : OwnerReference := ⟨t.kind, t.objectMeta.name, t.objectMeta.uid⟩

def schedule (t : Test) : Option String :=
  validSchedule t.objectMeta.ns t.objectMeta.name t.interval

def Admitted {F : Type} (lib : Library F) : Test → Prop
  | k6 t => K6Admitted lib t
  | playwright t => PlaywrightAdmitted lib t

theorem Admitted.scheduled {F : Type} {lib : Library F} {t : Test} (h : t.Admitted lib) :
    ∃ schedule, t.schedule = some schedule := by
  cases t with
  | k6 t => exact K6Admitted.scheduled sampleK6 h
  | playwright t => exact PlaywrightAdmitted.scheduled samplePlaywright h

end Test

section Namespace

variable (k6 : K6TestReconciler) (playwright : PlaywrightTestReconciler) (kube : Kube)

def Test.parts : Test → TestParts
  | .k6 t => k6.reconciler.parts t
  | .playwright t => playwright.reconciler.parts t

/-- The reconcile of a test in which no call of the API server fails. -/
def Test.reconcile (t : Test) (now : Time) (jobs : CronJobs) : TestReconciled :=
  match t with
  | .k6 test => k6.reconciler.reconcile (.succeed kube test now) t.name jobs
  | .playwright test => playwright.reconciler.reconcile (.succeed kube test now) t.name jobs

/-- The CronJobs after reconciles in this order, each with its instant. -/
def reconcileAll (order : List (Test × Time)) : CronJobs :=
  order.foldl (fun jobs turn => (turn.1.reconcile k6 playwright kube turn.2 jobs).jobs) ∅

/-- The schedule and the containers are those the test itself asks for. -/
def Fits (t : Test) (cj : CronJob) : Prop :=
  ∃ schedule, t.schedule = some schedule ∧
    cj.spec.schedule = (mutateCronJob {} (t.parts k6 playwright) schedule).schedule ∧
    cj.spec.template.initContainers =
      (mutateCronJob {} (t.parts k6 playwright) schedule).template.initContainers ∧
    cj.spec.template.containers =
      (mutateCronJob {} (t.parts k6 playwright) schedule).template.containers

/-- The test is the controller of a CronJob of its own. -/
def Owns (jobs : CronJobs) (t : Test) : Prop :=
  ∃ name cj, jobs.lookup ⟨t.objectMeta.ns, name⟩ = some cj ∧ cj.controller = some t.owner ∧
    Fits k6 playwright t cj

/-- The CronJobs after the reconciles of `done`: each is that of a test, under its name, and
the name of each test that is not being deleted is taken. -/
structure Shared (done : List Test) (jobs : CronJobs) : Prop where
  owned : ∀ name cj, jobs.lookup name = some cj → ∃ t ∈ done, t.name = name ∧
    t.objectMeta.deleting = false ∧ cj.controller = some t.owner ∧ Fits k6 playwright t cj
  taken : ∀ t ∈ done, t.objectMeta.deleting = false → ∃ cj, jobs.lookup t.name = some cj

variable {k6 playwright kube}

theorem mutateCronJob_fits {t : Test} {schedule : String} (hschedule : t.schedule = some schedule)
    (old : CronJobSpec) (controller : Option OwnerReference) :
    Fits k6 playwright t
      ⟨controller, mutateCronJob old (t.parts k6 playwright) schedule⟩ := by
  refine ⟨schedule, hschedule, rfl, ?_, ?_⟩
  · cases hrunner : (t.parts k6 playwright).runner <;>
      simp [mutateCronJob, hrunner, hardenPodSpec]
  · cases hrunner : (t.parts k6 playwright).runner <;>
      simp [mutateCronJob, hrunner, hardenPodSpec]

theorem Test.reconcile_cases (hkube : kube.OneController) (t : Test) (now : Time)
    (jobs : CronJobs) {schedule : String} (hlive : t.objectMeta.deleting = false)
    (hschedule : t.schedule = some schedule) :
    (Foreign t.owner ((jobs.lookup t.name).getD {}) ∧
      (t.reconcile k6 playwright kube now jobs).jobs = jobs) ∨
    ∀ name, (t.reconcile k6 playwright kube now jobs).jobs.lookup name =
      if name = t.name then
        some ⟨some t.owner,
          mutateCronJob ((jobs.lookup t.name).getD {}).spec (t.parts k6 playwright) schedule⟩
      else jobs.lookup name := by
  cases t with
  | k6 t => exact reconcile_succeed_cases hkube k6.reconciler t now jobs hlive hschedule
  | playwright t =>
      exact reconcile_succeed_cases hkube playwright.reconciler t now jobs hlive hschedule

theorem Test.reconcile_deleting (t : Test) (now : Time) (jobs : CronJobs)
    (hdeleting : t.objectMeta.deleting = true) :
    (t.reconcile k6 playwright kube now jobs).jobs = jobs := by
  cases t with
  | k6 t => exact congrArg TestReconciled.jobs (if_pos hdeleting)
  | playwright t => exact congrArg TestReconciled.jobs (if_pos hdeleting)

theorem Shared.mono {done : List Test} {jobs : CronJobs} (h : Shared k6 playwright done jobs)
    (t : Test) (htaken : t.objectMeta.deleting = false → ∃ cj, jobs.lookup t.name = some cj) :
    Shared k6 playwright (done ++ [t]) jobs where
  owned name cj hcj := by
    obtain ⟨u, hu, hrest⟩ := h.owned name cj hcj
    exact ⟨u, List.mem_append_left _ hu, hrest⟩
  taken u hu hlive := by
    rcases List.mem_append.mp hu with hu | hu
    · exact h.taken u hu hlive
    · obtain rfl : u = t := by simpa using hu
      exact htaken hlive

theorem Shared.step (hkube : kube.OneController) {done : List Test} {jobs : CronJobs}
    (h : Shared k6 playwright done jobs) (t : Test) (now : Time)
    (hscheduled : ∃ schedule, t.schedule = some schedule) :
    Shared k6 playwright (done ++ [t]) (t.reconcile k6 playwright kube now jobs).jobs := by
  obtain ⟨schedule, hschedule⟩ := hscheduled
  cases hlive : t.objectMeta.deleting with
  | true =>
      rw [t.reconcile_deleting now jobs hlive]
      exact h.mono t fun hcontra => absurd (hlive.symm.trans hcontra) (by decide)
  | false =>
      rcases t.reconcile_cases hkube now jobs hlive hschedule with ⟨hforeign, hjobs⟩ | hlookup
      · -- a controller is set only in a stored CronJob
        rw [hjobs]
        refine h.mono t fun _ => ?_
        obtain ⟨other, hother, _⟩ := hforeign
        cases hcj : jobs.lookup t.name with
        | none =>
            rw [hcj] at hother
            cases hother
        | some cj => exact ⟨cj, rfl⟩
      · constructor
        · intro name cj hcj
          rw [hlookup name] at hcj
          split at hcj
          · rename_i hname
            cases hcj
            exact ⟨t, by simp, hname.symm, hlive, rfl, mutateCronJob_fits hschedule _ _⟩
          · obtain ⟨u, hu, hrest⟩ := h.owned name cj hcj
            exact ⟨u, List.mem_append_left _ hu, hrest⟩
        · intro u hu hulive
          rw [hlookup u.name]
          split
          · exact ⟨_, rfl⟩
          · rename_i hname
            rcases List.mem_append.mp hu with hu | hu
            · exact h.taken u hu hulive
            · obtain rfl : u = t := by simpa using hu
              exact absurd rfl hname

theorem shared_reconcileAll (hkube : kube.OneController) (order : List (Test × Time))
    (hscheduled : ∀ turn ∈ order, ∃ schedule, turn.1.schedule = some schedule) :
    Shared k6 playwright (order.map Prod.fst) (reconcileAll k6 playwright kube order) := by
  induction order using List.reverseRecOn with
  | nil => exact ⟨fun _ _ h => (nomatch h), fun _ h => (nomatch h)⟩
  | append_singleton order turn ih =>
      have hstep := Shared.step hkube
        (ih fun u hu => hscheduled u (List.mem_append_left _ hu)) turn.1 turn.2
        (hscheduled turn (by simp))
      rw [List.map_append, reconcileAll, List.foldl_append]
      exact hstep

/-- A controller reference names one test of a namespace. -/
theorem Test.key_eq_of_owner_eq {t u : Test} (hns : t.objectMeta.ns = u.objectMeta.ns)
    (h : t.owner = u.owner) : t.key = u.key := by
  have hkind : t.kind = u.kind := congrArg OwnerReference.kind h
  have hname : t.objectMeta.name = u.objectMeta.name := congrArg OwnerReference.name h
  rw [Test.key, Test.key, Test.name, Test.name, hkind, hname, hns]

/-- What a test owns is under its own name, and the test is not being deleted. -/
theorem Shared.own {done : List Test} {jobs : CronJobs} (h : Shared k6 playwright done jobs)
    {t : Test} (howner : ∀ u ∈ done, u.owner = t.owner → u = t)
    (hown : Owns k6 playwright jobs t) :
    t.objectMeta.deleting = false ∧
      ∃ cj, jobs.lookup t.name = some cj ∧ cj.controller = some t.owner := by
  obtain ⟨name, cj, hcj, hcontroller, _⟩ := hown
  obtain ⟨u, hu, hname, hlive, hcontroller', _⟩ := h.owned _ cj hcj
  obtain rfl : u = t := howner u hu (Option.some.inj (hcontroller'.symm.trans hcontroller))
  exact ⟨hlive, cj, hname ▸ hcj, hcontroller⟩

variable (k6 playwright)

/-- Once each test has been reconciled, every one of them has its own CronJob exactly when
none is being deleted and no two of them have one name. -/
theorem owns_iff (kube : Kube) (hkube : kube.OneController) {F : Type} (lib : Library F)
    (ns : String) (tests : Finset Test)
    (hns : ∀ t ∈ tests, t.objectMeta.ns = ns) (hadmitted : ∀ t ∈ tests, t.Admitted lib)
    (hkeys : ∀ t ∈ tests, ∀ u ∈ tests, t.key = u.key → t = u) (order : List (Test × Time))
    (horder : ∀ t, t ∈ order.map Prod.fst ↔ t ∈ tests) :
    (∀ t ∈ tests, Owns k6 playwright (reconcileAll k6 playwright kube order) t) ↔
      (∀ t ∈ tests, t.objectMeta.deleting = false) ∧
        ∀ t ∈ tests, ∀ u ∈ tests, t.objectMeta.name = u.objectMeta.name → t = u := by
  have hshared : Shared k6 playwright (order.map Prod.fst)
      (reconcileAll k6 playwright kube order) :=
    shared_reconcileAll hkube order fun turn hturn =>
      (hadmitted turn.1 ((horder turn.1).mp (List.mem_map_of_mem hturn))).scheduled
  have howner : ∀ t ∈ tests, ∀ u ∈ tests, t.owner = u.owner → t = u := fun t ht u hu heq =>
    hkeys t ht u hu (Test.key_eq_of_owner_eq ((hns t ht).trans (hns u hu).symm) heq)
  have hown : ∀ t ∈ tests, Owns k6 playwright (reconcileAll k6 playwright kube order) t →
      t.objectMeta.deleting = false ∧ ∃ cj,
        (reconcileAll k6 playwright kube order).lookup t.name = some cj ∧
        cj.controller = some t.owner := fun t ht =>
    hshared.own fun u hu => howner u ((horder u).mp hu) t ht
  constructor
  · intro hall
    refine ⟨fun t ht => (hown t ht (hall t ht)).1, fun t ht u hu hname => ?_⟩
    obtain ⟨_, cj, hcj, hcontroller⟩ := hown t ht (hall t ht)
    obtain ⟨_, cj', hcj', hcontroller'⟩ := hown u hu (hall u hu)
    have hnames : t.name = u.name := by rw [Test.name, Test.name, hname, hns t ht, hns u hu]
    rw [hnames, hcj'] at hcj
    cases hcj
    exact howner t ht u hu (Option.some.inj (hcontroller.symm.trans hcontroller'))
  · rintro ⟨hlive, hnames⟩ t ht
    obtain ⟨cj, hcj⟩ := hshared.taken t ((horder t).mpr ht) (hlive t ht)
    obtain ⟨u, hu, hname, _, hcontroller, hfits⟩ := hshared.owned t.name cj hcj
    have heq : u = t := hnames u ((horder u).mp hu) t ht (congrArg NamespacedName.name hname)
    subst heq
    exact ⟨u.objectMeta.name, cj, hcj, hcontroller, hfits⟩

end Namespace

/-- A test of the other kind. -/
def browserTest (name : String) : PlaywrightTest where
  name := name
  ns := "default"
  uid := "p"
  generation := 1
  deletionTimestamp := none
  spec :=
    { interval := 300000000000
      suspend := false
      script := ⟨⟨"scripts", "smoke.spec.js"⟩⟩
      ttlAfterFinished := 3600000000000
      depends := []
      metricLabels := ∅ }

theorem browserTest_admitted (name : String) (hname : name = "smoke" ∨ name = "browser") :
    PlaywrightAdmitted Library.sample (browserTest name) := by
  refine ⟨Cluster.empty.reader, ?_⟩
  rcases hname with rfl | rfl
  · decide +kernel
  · decide +kernel

/-- Two tests with different names, one of them reconciled twice. -/
theorem owns_two_names :
    let order : List (Test × Time) := [(.playwright (browserTest "browser"), ⟨0⟩),
      (.k6 (smokeK6 none), ⟨1⟩), (.playwright (browserTest "browser"), ⟨2⟩)]
    let jobs := reconcileAll sampleK6 samplePlaywright .sample order
    Owns sampleK6 samplePlaywright jobs (.k6 (smokeK6 none)) ∧
      Owns sampleK6 samplePlaywright jobs (.playwright (browserTest "browser")) := by
  intro order jobs
  have hall := (owns_iff sampleK6 samplePlaywright .sample Kube.sample_oneController
    Library.sample "default" {.k6 (smokeK6 none), .playwright (browserTest "browser")}
    (by decide) ?_ (by decide) order ?_).mpr (by decide)
  · exact ⟨hall _ (by simp), hall _ (by simp)⟩
  · intro t ht
    rcases Finset.mem_insert.mp ht with rfl | ht
    · exact smokeK6_admitted none
    · obtain rfl := Finset.mem_singleton.mp ht
      exact browserTest_admitted "browser" (.inr rfl)
  · intro t
    simp only [order, List.map_cons, List.map_nil, List.mem_cons, List.not_mem_nil, or_false,
      Finset.mem_insert, Finset.mem_singleton]
    tauto

/-- A K6Test and a PlaywrightTest of one name: the CronJob is that of the first, and the
second has none. -/
theorem second_test_owns_nothing :
    let order : List (Test × Time) :=
      [(.k6 (smokeK6 none), ⟨0⟩), (.playwright (browserTest "smoke"), ⟨1⟩)]
    K6Admitted Library.sample (smokeK6 none) ∧
      PlaywrightAdmitted Library.sample (browserTest "smoke") ∧
      ¬ Owns sampleK6 samplePlaywright (reconcileAll sampleK6 samplePlaywright .sample order)
        (.playwright (browserTest "smoke")) := by
  intro order
  refine ⟨smokeK6_admitted none, browserTest_admitted "smoke" (.inl rfl), ?_⟩
  rintro ⟨name, cj, hcj, hcontroller, _⟩
  have hshared : Shared sampleK6 samplePlaywright (order.map Prod.fst)
      (reconcileAll sampleK6 samplePlaywright .sample order) := by
    refine shared_reconcileAll Kube.sample_oneController order fun turn hturn => ?_
    rcases List.mem_pair.mp hturn with rfl | rfl
    · exact (smokeK6_admitted none).scheduled sampleK6
    · exact (browserTest_admitted "smoke" (.inl rfl)).scheduled samplePlaywright
  have hname : name = "smoke" := by
    obtain ⟨u, hu, hname, _⟩ := hshared.owned _ cj hcj
    rcases List.mem_pair.mp hu with rfl | rfl
    · exact (congrArg NamespacedName.name hname).symm
    · exact (congrArg NamespacedName.name hname).symm
  subst hname
  have hfirst : ((reconcileAll sampleK6 samplePlaywright .sample order).lookup
      ⟨"default", "smoke"⟩).map CronJob.controller = some (some ⟨.k6Test, "smoke", "k"⟩) := by
    decide +kernel
  rw [show (⟨"default", "smoke"⟩ : NamespacedName) =
    ⟨(Test.playwright (browserTest "smoke")).objectMeta.ns, "smoke"⟩ from rfl, hcj,
    Option.map_some, hcontroller] at hfirst
  exact absurd hfirst (by decide)

end SyntheticsOperator.Proofs.CronJobs
