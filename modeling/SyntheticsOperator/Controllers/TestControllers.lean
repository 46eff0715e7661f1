import SyntheticsOperator.Controllers.Cron
import SyntheticsOperator.Controllers.Specs
import SyntheticsOperator.Controllers.Status

/-!
# The test controllers

`Reconcile` of the two kinds of test that run as CronJobs, and the CronJob that it writes.
`CreateOrUpdate` changes the object that is stored, so what the controller does not set
stays as it was.  The two reconcilers are the same but for the fields they read and the
parts of the pod they build.
-/

namespace SyntheticsOperator.Controllers

open SyntheticsOperator.Api
open SyntheticsOperator.Results (SpecUpdate)
open SyntheticsOperator.Support

/-! ## CronJobs -/

structure VolumeMount where
  name : String
  mountPath : String
deriving DecidableEq

structure KeyToPath where
  key : String
  path : String
deriving DecidableEq

inductive VolumeSource where
  | emptyDir
  | configMap (name : String) (items : List KeyToPath)
deriving DecidableEq

structure Volume where
  name : String
  source : VolumeSource
deriving DecidableEq

structure SecurityContext where
  allowPrivilegeEscalation : Bool
  dropCapabilities : List String
deriving DecidableEq

structure Container where
  name : String
  image : String
  command : List String := []
  args : List String := []
  env : List EnvVar := []
  envFrom : List EnvFromSource := []
  resources : ResourceRequirements := {}
  restartPolicy : Option String := none
  volumeMounts : List VolumeMount
  securityContext : Option SecurityContext := none
deriving DecidableEq

structure PodSecurityContext where
  runAsNonRoot : Bool
  seccompProfile : String
deriving DecidableEq

structure PodSpec where
  restartPolicy : String := ""
  volumes : List Volume := []
  initContainers : List Container := []
  containers : List Container := []
  securityContext : Option PodSecurityContext := none
  affinity : Option Affinity := none
deriving DecidableEq

/-- The fields of `CronJobSpec` and of its job template that the controllers set. -/
structure CronJobSpec where
  schedule : String := ""
  suspend : Option Bool := none
  concurrencyPolicy : String := ""
  ttlSecondsAfterFinished : Option Int := none
  backoffLimit : Option Int := none
  template : PodSpec := {}
deriving DecidableEq

structure CronJob where
  controller : Option OwnerReference := none
  spec : CronJobSpec := {}
deriving DecidableEq

abbrev CronJobs := Finmap fun _ : NamespacedName => CronJob

def CronJob.setControllerReference (kube : Kube) (owner : OwnerReference) (cj : CronJob) :
    Except String CronJob :=
  match kube.setControllerReference owner cj.controller with
  | .error err => .error err
  | .ok controller => .ok { cj with controller := some controller }

/-! ## The pod of a test -/

/-- The security context of every container of a test. -/
def Container.harden (c : Container) : Container :=
  { c with securityContext := some ⟨false, ["ALL"]⟩ }

def hardenPodSpec (spec : PodSpec) : PodSpec :=
  { spec with
    securityContext := some ⟨true, "RuntimeDefault"⟩
    initContainers := spec.initContainers.map Container.harden
    containers := spec.containers.map Container.harden }

/-- What a test gives to its CronJob. -/
structure TestParts where
  suspend : Bool
  ttlAfterFinished : Duration
  volumes : List Volume
  initContainers : List Container
  containers : List Container
  runner : Option RunnerSpec

/-- `int32(d.Seconds())`, up to the rounding of `float64`.  Go leaves the conversion of what
does not fit to the implementation; on amd64 it is the least `int32`. -/
def seconds (d : Duration) : Int :=
  let whole := Int.tdiv d 1000000000
  if -2 ^ 31 ≤ whole ∧ whole < 2 ^ 31 then whole else -2 ^ 31

def mutateCronJob (spec : CronJobSpec) (parts : TestParts) (schedule : String) : CronJobSpec :=
  let pod := hardenPodSpec
    { spec.template with
      restartPolicy := "Never"
      volumes := parts.volumes
      initContainers := parts.initContainers
      containers := parts.containers }
  { spec with
    schedule := schedule
    suspend := some parts.suspend
    concurrencyPolicy := "Forbid"
    ttlSecondsAfterFinished := some (seconds parts.ttlAfterFinished)
    -- a failed run is a signal and is not retried
    backoffLimit := some 0
    template :=
      match parts.runner with
      | some runner => { pod with affinity := runner.affinity }
      | none => pod }

/-- The sidecar that publishes the result of a run. -/
def testSidecar (image natsUrl : String) : Container where
  name := "test-sidecar"
  image := image
  args := if natsUrl = "" then [] else ["--nats-url=" ++ natsUrl]
  restartPolicy := some "Always"
  volumeMounts := [⟨"results", "/results"⟩]

/-- The volume with the script of a test, under the file name `path`. -/
def scriptVolume (script : ScriptRef) (path : String) : Volume :=
  ⟨"script", .configMap script.configMap.name [⟨script.configMap.key, path⟩]⟩

/-- The environment of the runner container: that of the spec comes first. -/
def runnerEnv (runner : Option RunnerSpec) (env : List EnvVar) : List EnvVar :=
  match runner with
  | some runner => runner.env ++ env
  | none => env

/-! ## Reconcile -/

/-- What the calls of one `Reconcile` answer: the read of the test, `PublishSpec`, the
read and the write that `CreateOrUpdate` makes, the clock, the patch of the status and the
libraries.  `.error` carries the text of the error; a CronJob that is not found is no
error. -/
structure TestCalls (T : Type) where
  kube : Kube
  get : Except GetError T
  publish : Except String Unit
  getCronJob : Except String Unit
  writeCronJob : Except String Unit
  now : Time
  patch : Except String Unit

/-- The read finds the test and every other call succeeds. -/
def TestCalls.succeed {T : Type} (kube : Kube) (test : T) (now : Time) : TestCalls T where
  kube := kube
  get := .ok test
  publish := .ok ()
  getCronJob := .ok ()
  writeCronJob := .ok ()
  now := now
  patch := .ok ()

/-- What one `Reconcile` has done when it returns. -/
structure TestReconciled where
  jobs : CronJobs
  published : Option SpecUpdate := none
  patched : Option ProbeStatus := none
  result : Except String Unit

/-- Where the reconcilers of the tests differ. -/
structure TestReconciler (T : Type) where
  kind : Kind
  objectMeta : T → ObjectMeta
  interval : T → Duration
  status : T → ProbeStatus
  specUpdate : T → SpecUpdate
  parts : T → TestParts

namespace TestReconciler

variable {T : Type} (r : TestReconciler T) (calls : TestCalls T)

def name (test : T) : NamespacedName := ⟨(r.objectMeta test).ns, (r.objectMeta test).name⟩

def owner (test : T) : OwnerReference where
  kind := r.kind
  name := (r.objectMeta test).name
  uid := (r.objectMeta test).uid

def schedule (test : T) : Option String :=
  validSchedule (r.objectMeta test).ns (r.objectMeta test).name (r.interval test)

/-- The CronJob of a test, given the one that is stored or a new one. -/
def mutate (test : T) (schedule : String) (cj : CronJob) : Except String CronJob :=
  match cj.setControllerReference calls.kube (r.owner test) with
  | .error err => .error err
  | .ok cj => .ok { cj with spec := mutateCronJob cj.spec (r.parts test) schedule }

/-- `CreateOrUpdate` writes only what has changed. -/
def reconcileCronJob (test : T) (jobs : CronJobs) : CronJobs × Except String Unit :=
  match r.schedule test with
  -- an object that predates the webhook: wait for its next generation
  | none => (jobs, .ok ())
  | some schedule =>
      match calls.getCronJob with
      | .error err => (jobs, .error err)
      | .ok () =>
          let stored := jobs.lookup (r.name test)
          match r.mutate calls test schedule (stored.getD {}) with
          | .error err => (jobs, .error err)
          | .ok cj =>
              if stored = some cj then (jobs, .ok ())
              else
                match calls.writeCronJob with
                | .error err => (jobs, .error err)
                | .ok () => (jobs.insert (r.name test) cj, .ok ())

def newStatus (test : T) : ProbeStatus where
  observedGeneration := (r.objectMeta test).generation
  conditions := setSuspendedCondition calls.kube (r.status test).conditions
    (r.objectMeta test).generation (r.parts test).suspend calls.now

/-- `Reconcile` of a test that is not being deleted. -/
def reconcileTest (test : T) (jobs : CronJobs) : TestReconciled :=
  let spec := r.specUpdate test
  match calls.publish with
  | .error err => { jobs := jobs, published := some spec, result := .error err }
  | .ok () =>
      match r.reconcileCronJob calls test jobs with
      | (jobs, .error err) => { jobs := jobs, published := some spec, result := .error err }
      | (jobs, .ok ()) =>
          let before := r.status test
          let after := r.newStatus calls test
          if probeStatusChanged before.observedGeneration after.observedGeneration
              before.conditions after.conditions then
            ⟨jobs, some spec, some after, calls.patch⟩
          else ⟨jobs, some spec, none, .ok ()⟩

def reconcile (key : NamespacedName) (jobs : CronJobs) : TestReconciled :=
  match calls.get with
  | .error .notFound =>
      { jobs := jobs, published := some (tombstone r.kind key.ns key.name),
        result := calls.publish }
  | .error (.failed err) => { jobs := jobs, result := .error err }
  | .ok test =>
      let m := r.objectMeta test
      if m.deleting then
        { jobs := jobs, published := some (tombstone r.kind m.ns m.name), result := calls.publish }
      else r.reconcileTest calls test jobs

end TestReconciler

/-! ## K6Test -/

structure K6TestReconciler where
  natsUrl : String
  testSidecarImage : String
  k6RunnerImage : String
deriving DecidableEq

namespace K6TestReconciler

variable (r : K6TestReconciler)

def buildVolumes (test : K6Test) : List Volume :=
  [⟨"runner-bin", .emptyDir⟩, ⟨"results", .emptyDir⟩, scriptVolume test.spec.script "test.js"]

def buildInitContainers : List Container :=
  [{ name := "runner-installer"
     image := r.k6RunnerImage
     command := ["/ko-app/k6-runner", "--install"]
     volumeMounts := [⟨"runner-bin", "/runner-bin"⟩] },
    testSidecar r.testSidecarImage r.natsUrl]

def buildRunnerContainers (test : K6Test) : List Container :=
  [{ name := "runner"
     image := "grafana/k6:" ++ test.spec.k6Version
     command := ["/runner-bin/k6-runner"]
     args := ["--name=" ++ test.name, "--namespace=" ++ test.ns]
     env := runnerEnv test.spec.runner
       [{ name := "K6TEST_NAME", value := test.name },
        { name := "K6TEST_NAMESPACE", value := test.ns }]
     envFrom := (test.spec.runner.map RunnerSpec.envFrom).getD []
     resources := (test.spec.runner.map RunnerSpec.resources).getD {}
     volumeMounts :=
       [⟨"runner-bin", "/runner-bin"⟩, ⟨"results", "/results"⟩, ⟨"script", "/scripts"⟩] }]

def reconciler : TestReconciler K6Test where
  kind := .k6Test
  objectMeta t := t.toObjectMeta
  interval t := t.spec.interval
  status t := t.status
  specUpdate := k6TestSpecUpdate
  parts t :=
    { suspend := t.spec.suspend
      ttlAfterFinished := t.spec.ttlAfterFinished
      volumes := buildVolumes t
      initContainers := r.buildInitContainers
      containers := buildRunnerContainers t
      runner := t.spec.runner }

end K6TestReconciler

/-! ## PlaywrightTest -/

structure PlaywrightTestReconciler where
  natsUrl : String
  testSidecarImage : String
  playwrightRunnerImage : String
deriving DecidableEq

namespace PlaywrightTestReconciler

variable (r : PlaywrightTestReconciler)

def buildVolumes (test : PlaywrightTest) : List Volume :=
  [⟨"results", .emptyDir⟩, scriptVolume test.spec.script "test.spec.js"]

def buildInitContainers : List Container := [testSidecar r.testSidecarImage r.natsUrl]

def buildRunnerContainers (test : PlaywrightTest) : List Container :=
  [{ name := "runner"
     image := r.playwrightRunnerImage
     env := runnerEnv test.spec.runner
       [{ name := "PLAYWRIGHT_TEST_NAME", value := test.name },
        { name := "PLAYWRIGHT_TEST_NAMESPACE", value := test.ns }]
     envFrom := (test.spec.runner.map RunnerSpec.envFrom).getD []
     resources := (test.spec.runner.map RunnerSpec.resources).getD {}
     volumeMounts := [⟨"results", "/results"⟩, ⟨"script", "/scripts"⟩] }]

def reconciler : TestReconciler PlaywrightTest where
  kind := .playwrightTest
  objectMeta t := t.toObjectMeta
  interval t := t.spec.interval
  status t := t.status
  specUpdate := playwrightTestSpecUpdate
  parts t :=
    { suspend := t.spec.suspend
      ttlAfterFinished := t.spec.ttlAfterFinished
      volumes := buildVolumes t
      initContainers := r.buildInitContainers
      containers := r.buildRunnerContainers t
      runner := t.spec.runner }

end PlaywrightTestReconciler

end SyntheticsOperator.Controllers
