import SyntheticsOperator.Proofs.WebhookCerts

/-!
# Any content of the Secret

`ensureSecret` replaces a Secret that lacks an entry, whose serving certificate it cannot
read, or whose serving certificate expires soon.  It looks neither at the private key nor
at the CA, so a Secret that is damaged there is never replaced.
-/

namespace SyntheticsOperator.Proofs.CertRecovery

open SyntheticsOperator.Support
open SyntheticsOperator.WebhookCerts
open SyntheticsOperator.Proofs.WebhookCerts

section Recovery

variable {K P : Type} (pki : Pki K P) (m : Manager) (now : Time)

/-- The certificate that is served has its private key, verifies under the CA in every
webhook configuration, and does not expire soon. -/
def Recovered (w : World K P) : Prop :=
  ∃ secret cert, w.secret = some secret ∧ w.currentCert = some cert ∧
    Injected m w (secret.get defaultCAName) ∧
    cert.leaf.publicKey = pki.publicKey cert.privateKey ∧
    pki.verify (secret.get defaultCAName) cert.leaf = true ∧
    (now.add m.rotateBefore).nanos ≤ cert.leaf.notAfter.nanos

/-- An entry is missing or empty, the serving certificate is not readable or expires soon,
or else its key is readable and belongs to it, and the CA has signed it. -/
def Healable (secret : Secret) : Prop :=
  secret.get defaultCAName = [] ∨ secret.get defaultCAKey = [] ∨
    secret.get defaultCertName = [] ∨ secret.get defaultKeyName = [] ∨
    ∀ cert, pki.readCertificate (secret.get defaultCertName) = .ok cert →
      cert.notAfter.nanos < (now.add m.rotateBefore).nanos ∨
        ∃ key, pki.parsePrivateKey (secret.get defaultKeyName) = .ok key ∧
          cert.publicKey = pki.publicKey key ∧
          pki.verify (secret.get defaultCAName) cert = true

variable {pki m now}

theorem healable_of_due {w : World K P} (hdue : Due pki m now w) :
    ∀ secret, w.secret = some secret → Healable pki m now secret := by
  intro secret hsecret
  by_cases hcomplete : secret.get defaultCAName = [] ∨ secret.get defaultCAKey = [] ∨
      secret.get defaultCertName = [] ∨ secret.get defaultKeyName = []
  · rcases hcomplete with h | h | h | h
    · exact .inl h
    · exact .inr (.inl h)
    · exact .inr (.inr (.inl h))
    · exact .inr (.inr (.inr (.inl h)))
  · refine .inr (.inr (.inr (.inr fun cert hcert => .inl ?_)))
    have hread : bundleFromSecret pki m secret = .ok ⟨_, _, _, _, cert.notAfter⟩ :=
      bundleFromSecret_eq_ok_iff.mpr
        ⟨⟨rfl, rfl, rfl, rfl⟩, hcomplete, cert, hcert, rfl⟩
    have hrotate := hdue secret hsecret _ hread
    simpa [shouldRotate] using hrotate

variable [DecidableEq P]

theorem healable_iff_of_kept {secret : Secret} {bundle : CertBundle}
    (hread : bundleFromSecret pki m secret = .ok bundle)
    (hkeep : shouldRotate bundle now m.rotateBefore = false) :
    Healable pki m now secret ↔ ∃ cert,
      pki.x509KeyPair bundle.servingCertPEM bundle.servingKeyPEM = .ok cert ∧
        pki.verify bundle.caCertPEM cert.leaf = true := by
  obtain ⟨hcarries, hcomplete, leaf, hleaf, hnotAfter⟩ := bundleFromSecret_eq_ok_iff.mp hread
  have hlate := shouldRotate_eq_false_iff.mp hkeep
  simp only [Complete, not_or] at hcomplete
  simp only [Healable, hcarries.caCert, hcarries.caKey, hcarries.servingCert,
    hcarries.servingKey, hcomplete, false_or, hleaf, Except.ok.injEq, forall_eq']
  constructor
  · rintro (hsoon | ⟨key, hkey, hmatch, hverify⟩)
    · rw [← hnotAfter] at hsoon
      omega
    · exact ⟨⟨leaf, key⟩, Pki.x509KeyPair_eq_ok_iff.mpr ⟨hleaf, hkey, hmatch⟩, hverify⟩
  · rintro ⟨cert, hpair, hverify⟩
    obtain ⟨hleaf', hkey, hmatch⟩ := Pki.x509KeyPair_eq_ok_iff.mp hpair
    obtain rfl : leaf = cert.leaf := Except.ok.inj (hleaf.symm.trans hleaf')
    exact .inr ⟨cert.privateKey, hkey, hmatch, hverify⟩

theorem recovered_iff_of_deployed {w : World K P} {secret : Secret} {cert : TLSCertificate K P}
    (h : Deployed pki m w secret cert) :
    Recovered pki m now w ↔ pki.verify (secret.get defaultCAName) cert.leaf = true ∧
      (now.add m.rotateBefore).nanos ≤ cert.leaf.notAfter.nanos := by
  constructor
  · rintro ⟨secret', cert', hsecret, hcert, _, _, hverify, hlate⟩
    obtain rfl : secret' = secret := Option.some.inj (hsecret.symm.trans h.stored)
    obtain rfl : cert' = cert := Option.some.inj (hcert.symm.trans h.served)
    exact ⟨hverify, hlate⟩
  · rintro ⟨hverify, hlate⟩
    exact ⟨secret, cert, h.stored, h.served, h.injected,
      (Pki.x509KeyPair_eq_ok_iff.mp h.keyPair).2.2, hverify, hlate⟩

/-- `Initialize`, with every call to the API server succeeding, leaves a webhook server that
works exactly when the Secret is absent or its content is healable. -/
theorem initialize_recovers_iff (pki : Pki K P)
    (ns secretName serviceName validating mutating : String)
    (hpki : pki.Lawful (newManager ns secretName serviceName validating mutating)) (now : Time)
    (caKey servingKey : K) (w : World K P) :
    let m := newManager ns secretName serviceName validating mutating
    let after := (initializeCerts pki m ⟨now, .ok caKey, .ok servingKey⟩).exec World.serve w
    (after.1 = .ok () ∧ Recovered pki m now after.2) ↔
      ∀ secret, w.secret = some secret → Healable pki m now secret := by
  intro m after
  rcases due_or_kept pki m now w with hdue | ⟨secret, bundle, hsecret, hread, hkeep⟩
  · obtain ⟨w', secret, bundle, cert, hexec, hdeployed, hcarries, husable, hexpiry⟩ :=
      exec_initializeCerts_due hpki hdue caKey servingKey
    have hafter : after = (.ok (), w') := hexec
    rw [hafter, recovered_iff_of_deployed hdeployed, hcarries.caCert, hexpiry]
    exact iff_of_true ⟨rfl, husable.verified,
      late_expiry ns secretName serviceName validating mutating now⟩ (healable_of_due hdue)
  · have hensure := exec_ensureSecret_kept ⟨now, .ok caKey, .ok servingKey⟩ hsecret hread hkeep
    obtain ⟨hcarries, _, leaf, hleaf, hnotAfter⟩ := bundleFromSecret_eq_ok_iff.mp hread
    have hrhs : (∀ secret, w.secret = some secret → Healable pki m now secret) ↔
        Healable pki m now secret := by
      simp only [hsecret, Option.some.injEq, forall_eq']
    rw [hrhs, healable_iff_of_kept hread hkeep]
    cases hpair : pki.x509KeyPair bundle.servingCertPEM bundle.servingKeyPEM with
    | error err =>
        have hafter : after = (.error err, w) := exec_initializeCerts_error hensure hpair
        simp [hafter]
    | ok cert =>
        obtain ⟨w', hexec, hdeployed⟩ := exec_initializeCerts_ok hensure hsecret hcarries hpair
        have hafter : after = (.ok (), w') := hexec
        have hlate : (now.add m.rotateBefore).nanos ≤ cert.leaf.notAfter.nanos := by
          obtain rfl : cert.leaf = leaf :=
            Except.ok.inj ((Pki.x509KeyPair_eq_ok_iff.mp hpair).1.symm.trans hleaf)
          rw [← hnotAfter]
          exact shouldRotate_eq_false_iff.mp hkeep
        rw [hafter, recovered_iff_of_deployed hdeployed, hcarries.caCert]
        simp only [true_and, hlate, and_true, Except.ok.injEq, exists_eq_left']

end Recovery

/-- A CA with key 1, a serving certificate for key 2 that expires after 10⁷ seconds, and
another text for its private key. -/
def sampleSecret (servingKey : GoString) : Secret where
  data := (((Finmap.singleton defaultCAName [67, 1, 1, 0]).insert defaultCAKey [75, 1]).insert
    defaultCertName [67, 1, 2, 0, 0x80, 0x96, 0x98]).insert defaultKeyName servingKey
  resourceVersion := 1

/-- A Secret without a private key is replaced. -/
theorem missing_key_recovered :
    Recovered samplePki sampleManager ⟨0⟩
      ((initializeCerts samplePki sampleManager ⟨⟨0⟩, .ok 3, .ok 4⟩).exec World.serve
        (sampleWorld (some (sampleSecret [])))).2 := by
  refine ((initialize_recovers_iff samplePki "system" "webhook-cert" "webhook" "validate"
    "mutate" (samplePki_lawful _) ⟨0⟩ 3 4 (sampleWorld (some (sampleSecret [])))).mpr ?_).2
  intro secret hsecret
  cases hsecret
  exact .inr (.inr (.inr (.inl (by decide))))

/-- The private key of another certificate: `Initialize` fails, and it will fail at every
start, as the Secret stays as it is. -/
theorem foreign_key_not_recovered :
    let w := sampleWorld (some (sampleSecret [75, 5]))
    let after := (initializeCerts samplePki sampleManager ⟨⟨0⟩, .ok 3, .ok 4⟩).exec World.serve w
    after.1 = .error "tls: private key does not match public key" ∧
      after.2.secret = w.secret := by
  decide +kernel

end SyntheticsOperator.Proofs.CertRecovery
