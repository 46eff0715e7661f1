import SyntheticsOperator.Controllers.Specs
import SyntheticsOperator.Controllers.Status
import SyntheticsOperator.Probes.Scheduler

/-!
# The probe controllers

`Reconcile` of the three kinds of probe.  The three functions are the same but for the
kind, the fields they read and the message they build; that of the HTTPProbe first reads
the Secrets behind its headers, which can fail.
-/

namespace SyntheticsOperator.Controllers

open SyntheticsOperator.Api
open SyntheticsOperator.Probes (Scheduler)
open SyntheticsOperator.Results (SpecUpdate)
open SyntheticsOperator.Support

/-- What the calls of one `Reconcile` answer: the read of the probe, the reads of Secrets,
`PublishSpec`, the clock, the patch of the status and the libraries.  `.error` carries the
text of the error. -/
structure ReconcileCalls (P : Type) where
  kube : Kube
  get : Except GetError P
  secret : SecretReader
  publish : Except String Unit
  now : Time
  patch : Except String Unit

/-- What one `Reconcile` has done when it returns; `published` and `patched` are what it
asked for, whether that succeeded or not. -/
structure Reconciled where
  scheduler : Scheduler
  published : Option SpecUpdate := none
  patched : Option ProbeStatus := none
  result : Except String Unit

/-- Where the reconcilers of the probes differ. -/
structure ProbeReconciler (P : Type) where
  kind : Kind
  objectMeta : P → ObjectMeta
  suspend : P → Bool
  status : P → ProbeStatus
  specUpdate : SecretReader → P → Except String SpecUpdate

namespace ProbeReconciler

variable {P : Type} (r : ProbeReconciler P) (calls : ReconcileCalls P)

/-- The probe is unregistered, then its tombstone is published. -/
def reconcileGone (key name : NamespacedName) (scheduler : Scheduler) : Reconciled where
  scheduler := scheduler.unregister ⟨r.kind, key⟩
  published := some (tombstone r.kind name.ns name.name)
  result := calls.publish

/-- The status that `Reconcile` gives to a probe whose spec was published. -/
def newStatus (probe : P) : ProbeStatus where
  observedGeneration := (r.objectMeta probe).generation
  conditions := setSuspendedCondition calls.kube (r.status probe).conditions
    (r.objectMeta probe).generation (r.suspend probe) calls.now

/-- `Reconcile` once the spec was published. -/
def schedule (key : NamespacedName) (probe : P) (spec : SpecUpdate) (scheduler : Scheduler) :
    Reconciled :=
  let scheduler :=
    if r.suspend probe then scheduler.unregister ⟨r.kind, key⟩ else scheduler.register spec
  let before := r.status probe
  let after := r.newStatus calls probe
  if probeStatusChanged before.observedGeneration after.observedGeneration before.conditions
      after.conditions then
    ⟨scheduler, some spec, some after, calls.patch⟩
  else ⟨scheduler, some spec, none, .ok ()⟩

/-- `Reconcile` of a probe that is not being deleted. -/
def reconcileProbe (key : NamespacedName) (probe : P) (scheduler : Scheduler) : Reconciled :=
  match r.specUpdate calls.secret probe with
  | .error err => { scheduler := scheduler, result := .error err }
  | .ok spec =>
      match calls.publish with
      | .error err => { scheduler := scheduler, published := some spec, result := .error err }
      | .ok () => r.schedule calls key probe spec scheduler

def reconcile (key : NamespacedName) (scheduler : Scheduler) : Reconciled :=
  match calls.get with
  | .error .notFound => r.reconcileGone calls key key scheduler
  | .error (.failed err) => { scheduler := scheduler, result := .error err }
  | .ok probe =>
      let m := r.objectMeta probe
      if m.deleting then r.reconcileGone calls key ⟨m.ns, m.name⟩ scheduler
      else r.reconcileProbe calls key probe scheduler

end ProbeReconciler

def httpProbeReconciler : ProbeReconciler HTTPProbe where
  kind := .httpProbe
  objectMeta p := p.toObjectMeta
  suspend p := p.spec.suspend
  status p := p.status
  specUpdate secret p :=
    match resolveRequestHeaders secret p.ns p.spec.request with
    | .error err => .error err
    | .ok headers => .ok (httpProbeSpecUpdate p headers)

def dnsProbeReconciler : ProbeReconciler DNSProbe where
  kind := .dnsProbe
  objectMeta p := p.toObjectMeta
  suspend p := p.spec.suspend
  status p := p.status
  specUpdate _ p := .ok (dnsProbeSpecUpdate p)

def tcpProbeReconciler : ProbeReconciler TCPProbe where
  kind := .tcpProbe
  objectMeta p := p.toObjectMeta
  suspend p := p.spec.suspend
  status p := p.status
  specUpdate _ p := .ok (tcpProbeSpecUpdate p)

end SyntheticsOperator.Controllers
