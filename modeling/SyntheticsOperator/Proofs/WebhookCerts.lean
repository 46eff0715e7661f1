import Mathlib.Data.Nat.Digits.Defs
import SyntheticsOperator.Support.MapLookup
import SyntheticsOperator.WebhookCerts.Manager

/-!
# Calls of the certificate manager

What each step of `Initialize` and of a tick does when no request fails: `ensureSecret`
keeps the Secret or writes a new bundle, `loadBundle` serves it, and `injectCABundle`
brings the webhook configurations in line.
-/

namespace SyntheticsOperator.Proofs.WebhookCerts

open SyntheticsOperator.Api (GetError)
open SyntheticsOperator.Support
open SyntheticsOperator.WebhookCerts

/-! ## Bundles -/

/-- The four entries of the Secret are those of the bundle. -/
structure Carries (secret : Secret) (bundle : CertBundle) : Prop where
  caCert : secret.get defaultCAName = bundle.caCertPEM
  caKey : secret.get defaultCAKey = bundle.caKeyPEM
  servingCert : secret.get defaultCertName = bundle.servingCertPEM
  servingKey : secret.get defaultKeyName = bundle.servingKeyPEM

/-- No part of the bundle is empty. -/
def Complete (bundle : CertBundle) : Prop :=
  ¬ (bundle.caCertPEM = [] ∨ bundle.caKeyPEM = [] ∨ bundle.servingCertPEM = [] ∨
    bundle.servingKeyPEM = [])

theorem carries_write (bundle : CertBundle) (data : Finmap fun _ : String => GoString)
    (version : Nat) : Carries ⟨bundle.write data, version⟩ bundle := by
  constructor <;>
    simp [Secret.get, CertBundle.write, defaultCAName, defaultCAKey, defaultCertName,
      defaultKeyName]

section Pki

variable {K P : Type} {pki : Pki K P} {m : Manager}

theorem bundleFromSecret_eq_ok_iff {secret : Secret} {bundle : CertBundle} :
    bundleFromSecret pki m secret = .ok bundle ↔
      Carries secret bundle ∧ Complete bundle ∧
        ∃ cert, pki.readCertificate bundle.servingCertPEM = .ok cert ∧
          bundle.notAfter = cert.notAfter := by
  constructor
  · intro h
    simp only [bundleFromSecret] at h
    split at h
    · cases h
    · rename_i hcomplete
      split at h
      · cases h
      · rename_i cert hcert
        cases h
        exact ⟨⟨rfl, rfl, rfl, rfl⟩, hcomplete, cert, hcert, rfl⟩
  · rintro ⟨hcarries, hcomplete, cert, hcert, hnotAfter⟩
    simp only [bundleFromSecret, hcarries.caCert, hcarries.caKey, hcarries.servingCert,
      hcarries.servingKey]
    rw [if_neg hcomplete]
    simp only [hcert, ← hnotAfter]

theorem exists_generateBundle (hpki : pki.Lawful m) (now : Time) (caKey servingKey : K) :
    ∃ bundle, generateBundle pki m ⟨now, .ok caKey, .ok servingKey⟩ = .ok bundle := by
  obtain ⟨caDER, hca⟩ := hpki.createsCA now caKey
  obtain ⟨servingDER, hserving⟩ := hpki.createsServing now caKey servingKey
  simp only [generateBundle, hca, hserving]
  exact ⟨_, rfl⟩

variable [DecidableEq P]

/-- A bundle with which the webhook server works. -/
structure Usable (pki : Pki K P) (bundle : CertBundle) (cert : TLSCertificate K P) : Prop where
  complete : Complete bundle
  keyPair : pki.x509KeyPair bundle.servingCertPEM bundle.servingKeyPEM = .ok cert
  verified : pki.verify bundle.caCertPEM cert.leaf = true

/-- The last whole second of the lifetime of a certificate made at `now`. -/
def expiry (m : Manager) (now : Time) : Time := ⟨(now.add m.certTTL).unix * 1000000000⟩

theorem generateBundle_usable (hpki : pki.Lawful m) {inputs : Inputs K} {bundle : CertBundle}
    (h : generateBundle pki m inputs = .ok bundle) :
    ∃ cert, Usable pki bundle cert ∧ cert.leaf.notAfter = expiry m inputs.now := by
  simp only [generateBundle] at h
  split at h
  · cases h
  · rename_i caKey hcaKey
    split at h
    · cases h
    · rename_i caDER hca
      split at h
      · cases h
      · rename_i servingKey hservingKey
        split at h
        · cases h
        · rename_i servingDER hserving
          cases h
          have hparse := hpki.parses _ _ _ _ hserving
          refine ⟨⟨⟨servingDER, pki.publicKey servingKey, expiry m inputs.now⟩, servingKey⟩,
            ⟨?_, ?_, ?_⟩, rfl⟩
          · simp only [Complete, (hpki.encodes _ _).1, or_self, not_false_eq_true]
          · apply Pki.x509KeyPair_eq_ok_iff.mpr
            refine ⟨?_, hpki.parsesKey servingKey, rfl⟩
            rw [Pki.readCertificate, (hpki.encodes _ _).2]
            exact hparse
          · exact hpki.verifies _ _ _ _ _ _ hca hserving hparse

/-- What is stored of a usable bundle is read back, with the instant in the certificate. -/
theorem Usable.bundleFromSecret {secret : Secret} {bundle : CertBundle}
    {cert : TLSCertificate K P} (h : Usable pki bundle cert) (hcarries : Carries secret bundle) :
    bundleFromSecret pki m secret = .ok { bundle with notAfter := cert.leaf.notAfter } :=
  bundleFromSecret_eq_ok_iff.mpr
    ⟨⟨hcarries.caCert, hcarries.caKey, hcarries.servingCert, hcarries.servingKey⟩, h.complete,
      cert.leaf, (Pki.x509KeyPair_eq_ok_iff.mp h.keyPair).1, rfl⟩

end Pki

theorem shouldRotate_eq_false_iff {bundle : CertBundle} {now : Time} {rotateBefore : Duration} :
    shouldRotate bundle now rotateBefore = false ↔
      (now.add rotateBefore).nanos ≤ bundle.notAfter.nanos := by
  simp [shouldRotate]

/-- With the lifetimes of `NewManager` a certificate that was just made is not due. -/
theorem late_expiry (ns secretName serviceName validating mutating : String) (now : Time) :
    let m := newManager ns secretName serviceName validating mutating
    (now.add m.rotateBefore).nanos ≤ (expiry m now).nanos := by
  simp only [expiry, newManager, Time.add, Time.unix]
  omega

/-! ## The Secret -/

section Secret

variable {K P : Type} {pki : Pki K P} {m : Manager} {inputs : Inputs K} {w : World K P}
variable {secret : Secret} {bundle : CertBundle}

/-- `ensureSecret` writes a new bundle: there is no Secret, its content is not read as a
bundle, or its certificate expires soon. -/
def Due (pki : Pki K P) (m : Manager) (now : Time) (w : World K P) : Prop :=
  ∀ secret, w.secret = some secret → ∀ bundle, bundleFromSecret pki m secret = .ok bundle →
    shouldRotate bundle now m.rotateBefore = true

theorem due_or_kept (pki : Pki K P) (m : Manager) (now : Time) (w : World K P) :
    Due pki m now w ∨ ∃ secret bundle, w.secret = some secret ∧
      bundleFromSecret pki m secret = .ok bundle ∧
      shouldRotate bundle now m.rotateBefore = false := by
  by_cases h : Due pki m now w
  · exact .inl h
  · simp only [Due, not_forall, Bool.not_eq_true] at h
    obtain ⟨secret, hsecret, bundle, hread, hkeep⟩ := h
    exact .inr ⟨secret, bundle, hsecret, hread, hkeep⟩

theorem exec_rotateCertSecret (hsecret : w.secret = some secret)
    (hbundle : generateBundle pki m inputs = .ok bundle) :
    (rotateCertSecret pki m inputs secret).exec World.serve w =
      (.ok bundle, w.putSecret (bundle.write secret.data)) := by
  simp only [rotateCertSecret, hbundle, Program.exec, World.serve, hsecret, if_true]

theorem exec_ensureSecret_due (hdue : Due pki m inputs.now w)
    (hbundle : generateBundle pki m inputs = .ok bundle) :
    ∃ data, (ensureSecret pki m inputs).exec World.serve w =
      (.ok bundle, w.putSecret (bundle.write data)) := by
  cases hsecret : w.secret with
  | none =>
      refine ⟨∅, ?_⟩
      simp only [ensureSecret, createCertSecret, Program.exec, World.serve, hsecret, hbundle]
  | some secret =>
      refine ⟨secret.data, ?_⟩
      simp only [ensureSecret, Program.exec, World.serve, hsecret]
      cases hread : bundleFromSecret pki m secret with
      | error err => exact exec_rotateCertSecret hsecret hbundle
      | ok old =>
          simp only [hdue secret hsecret old hread, if_true]
          exact exec_rotateCertSecret hsecret hbundle

theorem exec_ensureSecret_kept (inputs : Inputs K) (hsecret : w.secret = some secret)
    (hread : bundleFromSecret pki m secret = .ok bundle)
    (hkeep : shouldRotate bundle inputs.now m.rotateBefore = false) :
    (ensureSecret pki m inputs).exec World.serve w = (.ok bundle, w) := by
  simp only [ensureSecret, Program.exec, World.serve, hsecret, hread, hkeep, Bool.false_eq_true,
    if_false]

theorem sent_ensureSecret_kept (inputs : Inputs K) (hsecret : w.secret = some secret)
    (hread : bundleFromSecret pki m secret = .ok bundle)
    (hkeep : shouldRotate bundle inputs.now m.rotateBefore = false) :
    (ensureSecret pki m inputs).sent World.serve w = [.getSecret] := by
  simp only [ensureSecret, Program.sent, World.serve, hsecret, hread, hkeep, Bool.false_eq_true,
    if_false]

end Secret

/-! ## The webhook configurations -/

/-- The name of a configuration; the manager leaves one without a name alone. -/
def configurationName (m : Manager) : ConfigurationKind → String
  | .validating => m.validatingWebhookConfiguration
  | .mutating => m.mutatingWebhookConfiguration

/-- Every entry of a configuration, if it exists, has this CA. -/
def InjectedIn {K P : Type} (w : World K P) (kind : ConfigurationKind) (ca : GoString) : Prop :=
  ∀ configuration, w.configuration kind = some configuration →
    ∀ hook ∈ configuration.webhooks, hook.caBundle = ca

/-- Every entry of each existing configuration of the manager has this CA. -/
def Injected {K P : Type} (m : Manager) (w : World K P) (ca : GoString) : Prop :=
  ∀ kind, configurationName m kind ≠ "" → InjectedIn w kind ca

theorem setCABundle_eq (ca : GoString) (hooks : List Webhook) :
    setCABundle ca hooks = (hooks.map fun hook => { hook with caBundle := ca },
      hooks.any fun hook => hook.caBundle ≠ ca) := by
  induction hooks with
  | nil => rfl
  | cons hook hooks ih =>
      rw [setCABundle, ih]
      by_cases heq : hook.caBundle = ca
      · simp [← heq]
      · simp [heq]

section Inject

variable {K P : Type} {m : Manager} {w : World K P} {kind : ConfigurationKind} {ca : GoString}

/-- The step of `injectCABundle` for one configuration. -/
def patchNamed (m : Manager) (kind : ConfigurationKind) (ca : GoString) :
    CertProgram K P (Except String Unit) :=
  if configurationName m kind ≠ "" then patchWebhookCABundle kind ca else .done (.ok ())

theorem injectCABundle_eq (m : Manager) (ca : GoString) :
    (injectCABundle m ca : CertProgram K P _) =
      (patchNamed m .validating ca).bind fun
        | .error err => .done (.error err)
        | .ok () => patchNamed m .mutating ca := by
  by_cases hname : m.validatingWebhookConfiguration ≠ ""
  · have hnamed : configurationName m .validating ≠ "" := hname
    rw [patchNamed, if_pos hnamed]
    simp only [injectCABundle, if_pos hname]
    rfl
  · have hunnamed : ¬ configurationName m .validating ≠ "" := hname
    rw [patchNamed, if_neg hunnamed]
    simp only [injectCABundle, if_neg hname]
    rfl

/-- One configuration is patched and the rest of the world is as it was. -/
structure Patched (m : Manager) (w w' : World K P) (kind : ConfigurationKind) (ca : GoString) :
    Prop where
  secret : w'.secret = w.secret
  cert : w'.currentCert = w.currentCert
  injected : configurationName m kind ≠ "" → InjectedIn w' kind ca
  other : ∀ kind', kind' ≠ kind → w'.configuration kind' = w.configuration kind'

theorem exec_patchNamed (m : Manager) (w : World K P) (kind : ConfigurationKind)
    (ca : GoString) :
    ∃ w', (patchNamed m kind ca).exec World.serve w = (.ok (), w') ∧ Patched m w w' kind ca := by
  unfold patchNamed
  split
  · cases hconfiguration : w.configuration kind with
    | none =>
        refine ⟨w, ?_, rfl, rfl, fun _ configuration hsome => ?_, fun _ _ => rfl⟩
        · simp only [patchWebhookCABundle, Program.exec, World.serve, hconfiguration]
        · rw [hconfiguration] at hsome
          cases hsome
    | some configuration =>
        by_cases hchanged : (configuration.webhooks.any fun hook => hook.caBundle ≠ ca) = true
        · refine ⟨w.putConfiguration kind
            (configuration.webhooks.map fun hook => { hook with caBundle := ca }),
            ?_, rfl, rfl, fun _ configuration' hsome hook hhook => ?_,
            fun kind' hne => Function.update_of_ne hne ..⟩
          · simp only [patchWebhookCABundle, Program.exec, World.serve, hconfiguration,
              setCABundle_eq, hchanged, if_true]
          · simp only [World.putConfiguration, Function.update_self, Option.some.injEq] at hsome
            subst hsome
            obtain ⟨hook', _, rfl⟩ := List.mem_map.mp hhook
            rfl
        · refine ⟨w, ?_, rfl, rfl, fun _ configuration' hsome hook hhook => ?_, fun _ _ => rfl⟩
          · simp only [patchWebhookCABundle, Program.exec, World.serve, hconfiguration,
              setCABundle_eq, hchanged, if_false, Bool.false_eq_true]
          · rw [hconfiguration] at hsome
            cases hsome
            simp only [List.any_eq_true, decide_eq_true_eq, not_exists, not_and, not_not]
              at hchanged
            exact hchanged hook hhook
  · rename_i hname
    exact ⟨w, rfl, rfl, rfl, fun hname' => absurd hname' hname, fun _ _ => rfl⟩

/-- Nothing is left to patch. -/
theorem patchNamed_noop (h : configurationName m kind ≠ "" → InjectedIn w kind ca) :
    (patchNamed m kind ca).exec World.serve w = (.ok (), w) ∧
      ∀ request ∈ (patchNamed m kind ca : CertProgram K P _).sent World.serve w,
        request.writes = false := by
  unfold patchNamed
  split
  · rename_i hname
    cases hconfiguration : w.configuration kind with
    | none =>
        simp [patchWebhookCABundle, Program.exec, Program.sent, World.serve, hconfiguration,
          Request.writes]
    | some configuration =>
        have hunchanged : (configuration.webhooks.any fun hook => hook.caBundle ≠ ca) = false := by
          simp only [List.any_eq_false, decide_eq_true_eq, not_not]
          exact h hname configuration hconfiguration
        simp only [patchWebhookCABundle, Program.exec, Program.sent, World.serve, hconfiguration,
          setCABundle_eq, hunchanged, Bool.false_eq_true, if_false, List.mem_singleton,
          forall_eq, Request.writes, and_self]
  · exact ⟨rfl, by simp⟩

theorem exec_injectCABundle (m : Manager) (w : World K P) (ca : GoString) :
    ∃ w', (injectCABundle m ca).exec World.serve w = (.ok (), w') ∧ w'.secret = w.secret ∧
      w'.currentCert = w.currentCert ∧ Injected m w' ca := by
  obtain ⟨w₁, hexec₁, hpatched₁⟩ := exec_patchNamed m w .validating ca
  obtain ⟨w₂, hexec₂, hpatched₂⟩ := exec_patchNamed m w₁ .mutating ca
  refine ⟨w₂, ?_, hpatched₂.secret.trans hpatched₁.secret, hpatched₂.cert.trans hpatched₁.cert,
    fun kind hname => ?_⟩
  · rw [injectCABundle_eq, Program.exec_bind, hexec₁]
    exact hexec₂
  · cases kind with
    | validating =>
        intro configuration hsome
        rw [hpatched₂.other .validating (by decide)] at hsome
        exact hpatched₁.injected hname configuration hsome
    | mutating => exact hpatched₂.injected hname

theorem injectCABundle_noop (h : Injected m w ca) :
    (injectCABundle m ca).exec World.serve w = (.ok (), w) ∧
      ∀ request ∈ (injectCABundle m ca : CertProgram K P _).sent World.serve w,
        request.writes = false := by
  obtain ⟨hexec₁, hsent₁⟩ := patchNamed_noop (h .validating)
  obtain ⟨hexec₂, hsent₂⟩ := patchNamed_noop (h .mutating)
  rw [injectCABundle_eq, Program.exec_bind, Program.sent_bind, hexec₁]
  refine ⟨hexec₂, fun request hrequest => ?_⟩
  rcases List.mem_append.mp hrequest with hrequest | hrequest
  · exact hsent₁ request hrequest
  · exact hsent₂ request hrequest

end Inject

/-! ## One call without a failure -/

section Calls

variable {K P : Type} [DecidableEq P] {pki : Pki K P} {m : Manager} {inputs : Inputs K}
variable {w w₁ : World K P} {bundle : CertBundle} {cert : TLSCertificate K P}

/-- `Initialize`, when the process starts, and the tick of `Start`. -/
inductive Call where
  | atStart
  | atTick
deriving DecidableEq

/-- What a call does; its result is left aside. -/
def Call.program (pki : Pki K P) (m : Manager) (inputs : Inputs K) : Call → CertProgram K P Unit
  | .atStart => (initializeCerts pki m inputs).bind fun _ => .done ()
  | .atTick => (tick pki m inputs).bind fun _ => .done ()

theorem exec_initializeCerts_error {err : String}
    (hensure : (ensureSecret pki m inputs).exec World.serve w = (.ok bundle, w₁))
    (hpair : pki.x509KeyPair bundle.servingCertPEM bundle.servingKeyPEM = .error err) :
    (initializeCerts pki m inputs).exec World.serve w = (.error err, w₁) := by
  simp only [initializeCerts, Program.exec_bind, hensure, loadBundle, hpair, Program.exec_done]

/-- The Secret, the configurations and the certificate that is served agree. -/
structure Deployed (pki : Pki K P) (m : Manager) (w : World K P) (secret : Secret)
    (cert : TLSCertificate K P) : Prop where
  stored : w.secret = some secret
  injected : Injected m w (secret.get defaultCAName)
  keyPair : pki.x509KeyPair (secret.get defaultCertName) (secret.get defaultKeyName) = .ok cert
  served : w.currentCert = some cert

/-- Once the bundle is a key pair, it is served and its CA injected. -/
theorem exec_initializeCerts_ok {secret : Secret}
    (hensure : (ensureSecret pki m inputs).exec World.serve w = (.ok bundle, w₁))
    (hsecret : w₁.secret = some secret) (hcarries : Carries secret bundle)
    (hpair : pki.x509KeyPair bundle.servingCertPEM bundle.servingKeyPEM = .ok cert) :
    ∃ w', (initializeCerts pki m inputs).exec World.serve w = (.ok (), w') ∧
      Deployed pki m w' secret cert := by
  obtain ⟨w', hinject, hsecret', hcert, hinjected⟩ :=
    exec_injectCABundle m { w₁ with currentCert := some cert } bundle.caCertPEM
  refine ⟨w', ?_, hsecret'.trans hsecret, ?_, ?_, hcert⟩
  · simp only [initializeCerts, Program.exec_bind, hensure, loadBundle, hpair, Program.exec,
      World.serve, hinject]
  · rw [hcarries.caCert]
    exact hinjected
  · rw [hcarries.servingCert, hcarries.servingKey]
    exact hpair

/-- A Secret that is due is replaced by a bundle made now. -/
theorem exec_initializeCerts_due (hpki : pki.Lawful m) {now : Time} (hdue : Due pki m now w)
    (caKey servingKey : K) :
    ∃ w' secret bundle cert,
      (initializeCerts pki m ⟨now, .ok caKey, .ok servingKey⟩).exec World.serve w = (.ok (), w') ∧
        Deployed pki m w' secret cert ∧ Carries secret bundle ∧ Usable pki bundle cert ∧
        cert.leaf.notAfter = expiry m now := by
  obtain ⟨bundle, hbundle⟩ := exists_generateBundle hpki now caKey servingKey
  obtain ⟨cert, husable, hexpiry⟩ := generateBundle_usable hpki hbundle
  obtain ⟨data, hensure⟩ := exec_ensureSecret_due hdue hbundle
  have hcarries := carries_write bundle data (w.revision + 1)
  obtain ⟨w', hexec, hdeployed⟩ :=
    exec_initializeCerts_ok hensure rfl hcarries husable.keyPair
  exact ⟨w', _, bundle, cert, hexec, hdeployed, hcarries, husable, hexpiry⟩

/-- A call is `Initialize` but for its result. -/
theorem Call.program_eq (c : Call) (pki : Pki K P) (m : Manager) (inputs : Inputs K) :
    c.program pki m inputs = (initializeCerts pki m inputs).bind fun _ => .done () := by
  cases c with
  | atStart => rfl
  | atTick =>
      simp only [Call.program, tick, initializeCerts, Program.bind_assoc]
      congr 1
      funext ensured
      cases ensured with
      | error err => rfl
      | ok bundle =>
          simp only [Program.bind_assoc]
          congr 1
          funext loaded
          cases loaded with
          | error err => rfl
          | ok =>
              simp only [Program.bind_assoc]
              congr 1
              funext injected
              cases injected <;> rfl

theorem Call.exec_program (c : Call) (w : World K P) :
    ((c.program pki m inputs).exec World.serve w).2 =
      ((initializeCerts pki m inputs).exec World.serve w).2 := by
  rw [c.program_eq, Program.exec_bind, Program.exec_done]

theorem Call.sent_program (c : Call) (w : World K P) :
    (c.program pki m inputs).sent World.serve w =
      (initializeCerts pki m inputs).sent World.serve w := by
  rw [c.program_eq, Program.sent_bind, Program.sent_done, List.append_nil]

end Calls

/-! ## A small cryptography -/

/-- A sign byte and the digits. -/
def intBytes (n : Int) : GoString :=
  (if n < 0 then 1 else 0) :: (Nat.digits 256 n.natAbs).map UInt8.ofNat

def bytesInt : GoString → Int
  | [] => 0
  | sign :: digits =>
      let n : Nat := Nat.ofDigits 256 (digits.map UInt8.toNat)
      if sign = 1 then -n else n

theorem bytesInt_intBytes (n : Int) : bytesInt (intBytes n) = n := by
  have hbyte : ∀ d ∈ Nat.digits 256 n.natAbs, (UInt8.toNat ∘ UInt8.ofNat) d = id d := by
    intro d hd
    have hlt : d < 256 := Nat.digits_lt_base (by decide) hd
    simp only [Function.comp_apply, UInt8.toNat_ofNat', id_eq]
    omega
  have hdigits : ((Nat.digits 256 n.natAbs).map UInt8.ofNat).map UInt8.toNat =
      Nat.digits 256 n.natAbs := by
    rw [List.map_map, List.map_congr_left hbyte, List.map_id]
  simp only [intBytes, bytesInt, hdigits, Nat.ofDigits_digits]
  split
  · rw [if_pos rfl]
    omega
  · rw [if_neg (by decide)]
    omega

/-- Keys are bytes, and a certificate names the key that signed it. -/
def samplePki : Pki UInt8 UInt8 where
  publicKey key := key
  createCertificate template _ key signer := .ok (signer :: key :: intBytes template.notAfter.unix)
  marshalPrivateKey key := [key]
  encode
    | .certificate, bytes => 67 :: bytes
    | .rsaPrivateKey, bytes => 75 :: bytes
  decode
    | [] => none
    | _ :: bytes => some bytes
  parseCertificate der :=
    match der with
    | _ :: key :: expiry => .ok ⟨der, key, ⟨bytesInt expiry * 1000000000⟩⟩
    | _ => .error "x509: malformed certificate"
  parsePrivateKey
    | [75, key] => .ok key
    | _ => .error "tls: failed to find any PEM data in key input"
  verify roots cert :=
    match roots, cert.raw with
    | _ :: _ :: ca :: _, signer :: _ => decide (ca = signer)
    | _, _ => false

theorem samplePki_lawful (m : Manager) : samplePki.Lawful m where
  createsCA _ _ := ⟨_, rfl⟩
  createsServing _ _ _ := ⟨_, rfl⟩
  encodes type bytes := by cases type <;> simp [samplePki]
  parses now caKey servingKey der hder := by
    cases hder
    simp [samplePki, servingTemplate, bytesInt_intBytes]
  parsesKey key := rfl
  verifies now caKey servingKey caDER der cert hca hder hcert := by
    cases hca
    cases hder
    cases hcert
    simp [samplePki]

/-- The manager of an installation with both configurations. -/
def sampleManager : Manager := newManager "system" "webhook-cert" "webhook" "validate" "mutate"

/-- An API server with this Secret and one webhook, whose CA is unknown, in the validating
configuration. -/
def sampleWorld (secret : Option Secret) : World UInt8 UInt8 where
  secret := secret
  configuration
    | .validating => some ⟨[⟨"probes", [9]⟩], 1⟩
    | .mutating => none
  revision := 1
  currentCert := none

end SyntheticsOperator.Proofs.WebhookCerts
