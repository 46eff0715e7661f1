import SyntheticsOperator.Proofs.CertRotation
import SyntheticsOperator.WebhookCerts.Replica

/-!
# Replicas that follow the Secret

A replica never makes a certificate, and whatever is written into the Secret it never stops
serving one.  Once the controller has gone through one call without a failure and the informer
has delivered the Secret, every replica serves the controller's certificate, and the API server
verifies it under the CA of every entry.

* `isSome_follow`: nothing takes a certificate away;
* `follow_last`: the last Secret that can be loaded counts;
* `initializeReadOnly_ok`: the wait ends with the first read that finds the Secret.
-/

namespace SyntheticsOperator.Proofs.WebhookReplicas

open SyntheticsOperator.Support
open SyntheticsOperator.WebhookCerts
open SyntheticsOperator.Proofs.CertRotation
open SyntheticsOperator.Proofs.WebhookCerts

section Replicas

variable {K P : Type} [DecidableEq P] {pki : Pki K P} {m : Manager}

/-! ## One replica -/

theorem isSome_reload {current : Option (TLSCertificate K P)} (h : current.isSome = true)
    (obj : Watched) : (reloadCertFromSecret pki m current obj).isSome = true := by
  unfold reloadCertFromSecret
  split
  · exact h
  · split
    · exact h
    · rfl

theorem isSome_follow {current : Option (TLSCertificate K P)} (h : current.isSome = true)
    (watched : List Watched) : (follow pki m current watched).isSome = true := by
  induction watched generalizing current with
  | nil => exact h
  | cons obj watched ih => exact ih (isSome_reload h obj)

/-- The Secret that was delivered last. -/
def lastDelivered (m : Manager) (watched : List Watched) : Option Secret :=
  (watched.filterMap (Watched.ours m)).getLast?

theorem lastDelivered_concat (watched : List Watched) (obj : Watched) :
    lastDelivered m (watched ++ [obj]) = (obj.ours m).or (lastDelivered m watched) := by
  cases hours : obj.ours m <;> simp [lastDelivered, hours]

theorem reload_of_ours {current : Option (TLSCertificate K P)} {obj : Watched} {secret : Secret}
    {cert : TLSCertificate K P} (hours : obj.ours m = some secret)
    (hload : loadSecret pki m secret = .ok cert) :
    reloadCertFromSecret pki m current obj = some cert := by
  simp only [reloadCertFromSecret, hours, hload]

theorem reload_of_not_ours {current : Option (TLSCertificate K P)} {obj : Watched}
    (hours : obj.ours m = none) : reloadCertFromSecret pki m current obj = current := by
  simp only [reloadCertFromSecret, hours]

theorem follow_last {watched : List Watched} {secret : Secret} {cert : TLSCertificate K P}
    (current : Option (TLSCertificate K P)) (hlast : lastDelivered m watched = some secret)
    (hload : loadSecret pki m secret = .ok cert) : follow pki m current watched = some cert := by
  induction watched using List.reverseRecOn with
  | nil => cases hlast
  | append_singleton watched obj ih =>
      rw [follow, List.foldl_append, List.foldl_cons, List.foldl_nil]
      rw [lastDelivered_concat] at hlast
      cases hours : obj.ours m with
      | none =>
          rw [hours, Option.none_or] at hlast
          rw [reload_of_not_ours hours]
          exact ih hlast
      | some delivered =>
          rw [hours, Option.some_or] at hlast
          obtain rfl : delivered = secret := Option.some.inj hlast
          exact reload_of_ours hours hload

/-! ## The controller -/

theorem loadSecret_of_usable {secret : Secret} {bundle : CertBundle} {cert : TLSCertificate K P}
    (hcarries : Carries secret bundle) (husable : Usable pki bundle cert) :
    loadSecret pki m secret = .ok cert := by
  simp only [loadSecret, husable.bundleFromSecret hcarries, husable.keyPair]

/-- The CA of every entry verifies the certificate. -/
def Verified (pki : Pki K P) (m : Manager) (w : World K P) (cert : TLSCertificate K P) : Prop :=
  ∀ kind, configurationName m kind ≠ "" → ∀ configuration,
    w.configuration kind = some configuration →
      ∀ hook ∈ configuration.webhooks, pki.verify hook.caBundle cert.leaf = true

theorem verified_of_deployed {w : World K P} {secret : Secret} {bundle : CertBundle}
    {cert : TLSCertificate K P} (hcarries : Carries secret bundle)
    (husable : Usable pki bundle cert) (h : Deployed pki m w secret cert) :
    Verified pki m w cert := by
  intro kind hkind configuration hconfiguration hook hhook
  rw [h.injected kind hkind configuration hconfiguration hook hhook, hcarries.caCert]
  exact husable.verified

/-- A read of the waiting replica that comes in time and answers with what is stored. -/
structure Timely (pki : Pki K P) (m : Manager) (start : Time) (turn : Turn) : Prop where
  early : turn.now.nanos < (start.add readOnlyWait).nanos
  running : turn.cancelled = none
  answered : turn.answer = .error .notFound ∨
    ∃ w secret, Reaches pki m w ∧ w.secret = some secret ∧ turn.answer = .ok secret

theorem loadSecret_of_reaches (hpki : pki.Lawful m) {w : World K P} (hreach : Reaches pki m w)
    {secret : Secret} (hsecret : w.secret = some secret) :
    ∃ cert, loadSecret pki m secret = .ok cert := by
  obtain ⟨inputs, made, hmade, hcarries⟩ := hreach.stored secret hsecret
  obtain ⟨cert, husable, -⟩ := generateBundle_usable hpki hmade
  exact ⟨cert, loadSecret_of_usable hcarries husable⟩

/-- The first turn that finds the Secret ends the wait. -/
theorem initializeReadOnly_ok (hpki : pki.Lawful m) {start : Time} {turns : List Turn}
    (htimely : ∀ turn ∈ turns, Timely pki m start turn)
    (hfound : ∃ turn ∈ turns, turn.answer ≠ .error .notFound) :
    ∃ cert, initializeReadOnly pki m start turns = some (.ok cert) := by
  induction turns with
  | nil =>
      obtain ⟨turn, hturn, -⟩ := hfound
      cases hturn
  | cons turn turns ih =>
      obtain ⟨hturn, hturns⟩ := List.forall_mem_cons.mp htimely
      rw [initializeReadOnly, awaitSecret, if_pos hturn.early]
      rcases hturn.answered with hanswer | ⟨w, secret, hreach, hsecret, hanswer⟩
      · rw [hanswer, hturn.running]
        apply ih hturns
        obtain ⟨found, hmem, hne⟩ := hfound
        rcases List.mem_cons.mp hmem with rfl | hrest
        · exact absurd hanswer hne
        · exact ⟨found, hrest, hne⟩
      · obtain ⟨cert, hload⟩ := loadSecret_of_reaches hpki hreach hsecret
        exact ⟨cert, by simp only [hanswer, hload]⟩

end Replicas

end SyntheticsOperator.Proofs.WebhookReplicas
