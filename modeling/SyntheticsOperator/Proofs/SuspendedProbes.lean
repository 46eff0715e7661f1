import SyntheticsOperator.Controllers.ProbeControllers

/-!
# Stopping a probe

A probe that is gone or being deleted is unregistered before anything can fail.  One that
is suspended is unregistered only after its spec was published, for an HTTPProbe only
after its Secrets were read: when one of these calls fails, a probe that was running keeps
running with its old spec.
-/

namespace SyntheticsOperator.Proofs.SuspendedProbes

open SyntheticsOperator.Api
open SyntheticsOperator.Controllers
open SyntheticsOperator.Probes
open SyntheticsOperator.Results (SpecUpdate)
open SyntheticsOperator.Support

section Reconcile

variable {P : Type} (r : ProbeReconciler P) (calls : ReconcileCalls P)

/-- The read says that the probe must not run: it is not there, or it is being deleted, or
it is suspended. -/
def MustStop : Prop :=
  calls.get = .error .notFound ∨
    ∃ probe, calls.get = .ok probe ∧
      ((r.objectMeta probe).deleting = true ∨ r.suspend probe = true)

def Arrives : Prop :=
  calls.get = .error .notFound ∨
    ∃ probe, calls.get = .ok probe ∧
      ((r.objectMeta probe).deleting = true ∨
        (∃ spec, r.specUpdate calls.secret probe = .ok spec) ∧ calls.publish = .ok ())

variable {r calls}

/-- A call that comes as far as the scheduler unregisters the probe, and one that does not
leaves the scheduler alone. -/
theorem reconcile_scheduler (h : MustStop r calls) (key : NamespacedName) (s : Scheduler) :
    (Arrives r calls ∧ (r.reconcile calls key s).scheduler = s.unregister ⟨r.kind, key⟩) ∨
      (¬ Arrives r calls ∧ (r.reconcile calls key s).scheduler = s) := by
  rcases h with hgone | ⟨probe, hget, hstop⟩
  · refine .inl ⟨.inl hgone, ?_⟩
    simp only [ProbeReconciler.reconcile, hgone, ProbeReconciler.reconcileGone]
  · cases hdeleting : (r.objectMeta probe).deleting with
    | true =>
        refine .inl ⟨.inr ⟨probe, hget, .inl hdeleting⟩, ?_⟩
        simp only [ProbeReconciler.reconcile, hget, hdeleting, if_true,
          ProbeReconciler.reconcileGone]
    | false =>
        have hsuspend : r.suspend probe = true := by simpa [hdeleting] using hstop
        have harrives : Arrives r calls ↔
            (∃ spec, r.specUpdate calls.secret probe = .ok spec) ∧ calls.publish = .ok () := by
          simp [Arrives, hget, hdeleting]
        rw [harrives]
        simp only [ProbeReconciler.reconcile, hget, hdeleting, Bool.false_eq_true, if_false,
          ProbeReconciler.reconcileProbe]
        -- the two calls that can fail before the scheduler is told
        cases hspec : r.specUpdate calls.secret probe with
        | error err => exact .inr ⟨by simp, rfl⟩
        | ok spec =>
            cases hpublish : calls.publish with
            | error err => exact .inr ⟨by simp, rfl⟩
            | ok =>
                refine .inl ⟨⟨⟨spec, rfl⟩, rfl⟩, ?_⟩
                simp only [ProbeReconciler.schedule, hsuspend, if_true]
                split <;> rfl

/-- A probe that must stop is not scheduled afterwards exactly when it was not scheduled
before or the call comes as far as the scheduler. -/
theorem lookup_reconcile_iff (h : MustStop r calls) (key : NamespacedName) (s : Scheduler) :
    (r.reconcile calls key s).scheduler.probes.lookup ⟨r.kind, key⟩ = none ↔
      s.probes.lookup ⟨r.kind, key⟩ = none ∨ Arrives r calls := by
  rcases reconcile_scheduler h key s with ⟨harrives, heq⟩ | ⟨harrives, heq⟩
  · rw [heq, Scheduler.lookup_unregister, if_pos rfl]
    exact iff_of_true rfl (.inr harrives)
  · rw [heq]
    simp only [harrives, or_false]

end Reconcile

/-! ## The three kinds -/

def HeadersResolve (secret : SecretReader) (p : HTTPProbe) : Prop :=
  ∃ headers, resolveRequestHeaders secret p.ns p.spec.request = .ok headers

theorem httpProbe_specUpdate_ok (secret : SecretReader) (p : HTTPProbe) :
    (∃ spec, httpProbeReconciler.specUpdate secret p = .ok spec) ↔ HeadersResolve secret p := by
  simp only [HeadersResolve, httpProbeReconciler]
  cases resolveRequestHeaders secret p.ns p.spec.request with
  | error err => simp
  | ok headers => simp

/-- For every scheduler and whatever the calls of `Reconcile` answer: a probe that must
stop is not scheduled when it returns exactly when it was not scheduled before, or it is
gone or being deleted, or its spec was published, for an HTTPProbe with the headers of its
Secrets. -/
theorem reconcile_stops_iff (s : Scheduler) (key : NamespacedName) :
    (∀ calls, MustStop httpProbeReconciler calls →
      ((httpProbeReconciler.reconcile calls key s).scheduler.probes.lookup ⟨.httpProbe, key⟩ =
          none ↔
        s.probes.lookup ⟨.httpProbe, key⟩ = none ∨ calls.get = .error .notFound ∨
          ∃ p, calls.get = .ok p ∧
            (p.deleting = true ∨ HeadersResolve calls.secret p ∧ calls.publish = .ok ()))) ∧
      (∀ calls, MustStop dnsProbeReconciler calls →
        ((dnsProbeReconciler.reconcile calls key s).scheduler.probes.lookup ⟨.dnsProbe, key⟩ =
            none ↔
          s.probes.lookup ⟨.dnsProbe, key⟩ = none ∨ calls.get = .error .notFound ∨
            ∃ p, calls.get = .ok p ∧ (p.deleting = true ∨ calls.publish = .ok ()))) ∧
      (∀ calls, MustStop tcpProbeReconciler calls →
        ((tcpProbeReconciler.reconcile calls key s).scheduler.probes.lookup ⟨.tcpProbe, key⟩ =
            none ↔
          s.probes.lookup ⟨.tcpProbe, key⟩ = none ∨ calls.get = .error .notFound ∨
            ∃ p, calls.get = .ok p ∧ (p.deleting = true ∨ calls.publish = .ok ()))) := by
  refine ⟨fun calls h => ?_, fun calls h => ?_, fun calls h => ?_⟩
  · refine (lookup_reconcile_iff h key s).trans ?_
    simp only [Arrives, httpProbe_specUpdate_ok]
    rfl
  · refine (lookup_reconcile_iff h key s).trans ?_
    simp [Arrives, dnsProbeReconciler]
  · refine (lookup_reconcile_iff h key s).trans ?_
    simp [Arrives, tcpProbeReconciler]

/-! ## A Secret that cannot be read -/

def authorized : HTTPRequestSpec where
  url := "https://example.com/health"
  method := "GET"
  headers := ∅
  headersFrom := [⟨"Authorization", ⟨"creds", "token"⟩⟩]
  body := ""

def webProbe (suspend : Bool) : HTTPProbe where
  name := "web"
  ns := "default"
  generation := if suspend then 2 else 1
  deletionTimestamp := none
  spec :=
    { interval := 30000000000
      timeout := 10000000000
      suspend := suspend
      request := authorized
      tls := none
      assertions := []
      depends := []
      metricLabels := ∅ }

/-- A started scheduler that runs the probe as it was before it was suspended. -/
def running : Scheduler :=
  Scheduler.new.start.register
    (httpProbeSpecUpdate (webProbe false) (Finmap.singleton "Authorization" "Bearer t"))

/-- The suspended probe is read; `creds` is as `secret` says, and every other call
succeeds. -/
def suspendedCalls (secret : SecretReader) : ReconcileCalls HTTPProbe where
  kube := .sample
  get := .ok (webProbe true)
  secret := secret
  publish := .ok ()
  now := ⟨0⟩
  patch := .ok ()

theorem mustStop_suspended (secret : SecretReader) :
    MustStop httpProbeReconciler (suspendedCalls secret) :=
  .inr ⟨webProbe true, rfl, .inr rfl⟩

theorem suspended_probe_stopped :
    (httpProbeReconciler.reconcile
        (suspendedCalls fun _ => .ok (Finmap.singleton "token" "Bearer t")) ⟨"default", "web"⟩
        running).scheduler.probes.lookup ⟨.httpProbe, ⟨"default", "web"⟩⟩ = none := by
  refine ((reconcile_stops_iff running ⟨"default", "web"⟩).1 _ (mustStop_suspended _)).mpr
    (.inr (.inr ⟨webProbe true, rfl, .inr ⟨?_, rfl⟩⟩))
  exact ⟨Finmap.singleton "Authorization" "Bearer t", by decide +kernel⟩

/-- The Secret was deleted: `Reconcile` of the suspended probe returns an error, and the
probe keeps running. -/
theorem suspended_probe_keeps_running :
    let key : NamespacedName := ⟨"default", "web"⟩
    let calls := suspendedCalls fun _ => .error "secrets \"creds\" not found"
    let after := httpProbeReconciler.reconcile calls key running
    MustStop httpProbeReconciler calls ∧
      after.scheduler.probes.lookup ⟨.httpProbe, key⟩ ≠ none ∧
      after.result = .error ("resolving header \"Authorization\" from secret \"creds\": " ++
        "secrets \"creds\" not found") :=
  ⟨mustStop_suspended _, by decide +kernel, by decide +kernel⟩

end SyntheticsOperator.Proofs.SuspendedProbes
