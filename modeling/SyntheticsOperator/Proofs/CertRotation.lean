import SyntheticsOperator.Proofs.WebhookCerts

/-!
# Rotation of the certificates

A call may stop between any two of its requests.  What holds wherever it stops is that the
Secret is absent or carries a bundle that a manager has made; from there, one call without
a failure makes the Secret, the configurations and the served certificate agree.
-/

namespace SyntheticsOperator.Proofs.CertRotation

open SyntheticsOperator.Support
open SyntheticsOperator.WebhookCerts
open SyntheticsOperator.Proofs.WebhookCerts

section Histories

variable {K P : Type} (pki : Pki K P) (m : Manager)

/-- The Secret carries a bundle that `generateBundle` made. -/
def Generated (secret : Secret) : Prop :=
  ∃ inputs bundle, generateBundle pki m inputs = .ok bundle ∧ Carries secret bundle

/-- The Secret is absent or one that a manager has written. -/
def Stored (w : World K P) : Prop := ∀ secret, w.secret = some secret → Generated pki m secret

/-- The manager writes only what it has generated. -/
def WritesGenerated : Request K P → Prop
  | .createSecret data => Generated pki m ⟨data, 0⟩
  | .updateSecret secret => Generated pki m secret
  | _ => True

variable {pki m}

theorem Generated.of_data {secret secret' : Secret} (h : Generated pki m secret)
    (hdata : secret'.data = secret.data) : Generated pki m secret' := by
  obtain ⟨inputs, bundle, hbundle, hcarries⟩ := h
  have hget : ∀ name, secret'.get name = secret.get name := fun name => by
    rw [Secret.get, Secret.get, hdata]
  exact ⟨inputs, bundle, hbundle, (hget _).trans hcarries.caCert, (hget _).trans hcarries.caKey,
    (hget _).trans hcarries.servingCert, (hget _).trans hcarries.servingKey⟩

theorem generated_write {inputs : Inputs K} {bundle : CertBundle}
    (h : generateBundle pki m inputs = .ok bundle) (data : Finmap fun _ : String => GoString)
    (version : Nat) : Generated pki m ⟨bundle.write data, version⟩ :=
  ⟨inputs, bundle, h, carries_write bundle data version⟩

theorem Stored.serve {w : World K P} (h : Stored pki m w) {request : Request K P}
    (hrequest : WritesGenerated pki m request) : Stored pki m (w.serve request).2 := by
  -- what a write leaves is what it was given
  have hput : ∀ data version, Generated pki m ⟨data, version⟩ →
      Stored pki m (w.putSecret data) := by
    intro data version hgenerated secret hsecret
    cases hsecret
    exact hgenerated.of_data rfl
  cases request with
  | getSecret =>
      rw [World.serve]
      split <;> exact h
  | createSecret data =>
      rw [World.serve]
      split
      · exact hput data 0 hrequest
      · exact h
  | updateSecret secret =>
      rw [World.serve]
      split
      · exact h
      · split
        · exact hput secret.data secret.resourceVersion hrequest
        · exact h
  | getConfiguration kind =>
      rw [World.serve]
      split <;> exact h
  | updateConfiguration kind configuration =>
      rw [World.serve]
      split
      · exact h
      · split <;> exact h
  | store cert => exact h

theorem Stored.serves {w w' : World K P} {request : Request K P} {answer : Answer request}
    (hrequest : WritesGenerated pki m request) (h : Stored pki m w)
    (hserves : World.Serves w request answer w') : Stored pki m w' := by
  cases hserves with
  | answers => exact h.serve hrequest
  | fails => exact h
  | lost => exact h.serve hrequest

theorem rotateCertSecret_writesGenerated (inputs : Inputs K) (secret : Secret) :
    (rotateCertSecret pki m inputs secret).Ensures (fun _ _ => True) (WritesGenerated pki m)
      fun _ => True := by
  unfold rotateCertSecret
  split
  · trivial
  · rename_i bundle hbundle
    refine ⟨generated_write hbundle _ _, fun updated _ => ?_⟩
    rcases updated with err | _ <;> trivial

theorem createCertSecret_writesGenerated (inputs : Inputs K) :
    (createCertSecret pki m inputs).Ensures (fun _ _ => True) (WritesGenerated pki m)
      fun _ => True := by
  unfold createCertSecret
  split
  · trivial
  · rename_i bundle hbundle
    refine ⟨generated_write hbundle _ _, fun created _ => ?_⟩
    rcases created with err | _ <;> trivial

theorem ensureSecret_writesGenerated (inputs : Inputs K) :
    (ensureSecret pki m inputs).Ensures (fun _ _ => True) (WritesGenerated pki m)
      fun _ => True := by
  refine ⟨trivial, fun answer _ => ?_⟩
  rcases answer with (_ | err) | secret
  · exact createCertSecret_writesGenerated inputs
  · trivial
  · cases hread : bundleFromSecret pki m secret with
    | error err =>
        simp only [hread]
        exact rotateCertSecret_writesGenerated inputs secret
    | ok bundle =>
        simp only [hread]
        split
        · exact rotateCertSecret_writesGenerated inputs secret
        · trivial

theorem patchNamed_writesGenerated (kind : ConfigurationKind) (ca : GoString) :
    (patchNamed m kind ca : CertProgram K P _).Ensures (fun _ _ => True) (WritesGenerated pki m)
      fun _ => True := by
  unfold patchNamed
  split
  · refine ⟨trivial, fun answer _ => ?_⟩
    rcases answer with (_ | err) | configuration
    · trivial
    · trivial
    · simp only [setCABundle_eq]
      split
      · exact ⟨trivial, fun _ _ => trivial⟩
      · trivial
  · trivial

theorem injectCABundle_writesGenerated (ca : GoString) :
    (injectCABundle m ca : CertProgram K P _).Ensures (fun _ _ => True) (WritesGenerated pki m)
      fun _ => True := by
  rw [injectCABundle_eq, Program.ensures_bind]
  apply (patchNamed_writesGenerated .validating ca).mono
  intro result _
  cases result with
  | error err => trivial
  | ok => exact patchNamed_writesGenerated .mutating ca

variable [DecidableEq P]

theorem loadBundle_writesGenerated (bundle : CertBundle) :
    (loadBundle pki bundle).Ensures (fun _ _ => True) (WritesGenerated pki m) fun _ => True := by
  unfold loadBundle
  split
  · trivial
  · exact ⟨trivial, fun _ _ => trivial⟩

theorem initializeCerts_writesGenerated (inputs : Inputs K) :
    (initializeCerts pki m inputs).Ensures (fun _ _ => True) (WritesGenerated pki m)
      fun _ => True := by
  simp only [initializeCerts, Program.ensures_bind]
  apply (ensureSecret_writesGenerated inputs).mono
  intro ensured _
  cases ensured with
  | error err => trivial
  | ok bundle =>
      simp only [Program.ensures_bind]
      apply (loadBundle_writesGenerated bundle).mono
      intro loaded _
      cases loaded with
      | error err => trivial
      | ok => exact injectCABundle_writesGenerated bundle.caCertPEM

theorem Call.writesGenerated (c : Call) (inputs : Inputs K) :
    (c.program pki m inputs).Ensures (fun _ _ => True) (WritesGenerated pki m)
      fun _ => True := by
  rw [c.program_eq, Program.ensures_bind]
  exact (initializeCerts_writesGenerated inputs).mono fun _ _ => trivial

variable (pki m)

/-- The worlds after calls one after the other, from any configurations and any served
certificate.  A call of a run may fail at any request; a process that crashes stops before
any request and loses its certificate; between two calls others change the configurations,
delete the Secret or, as the informer does, replace the served certificate. -/
inductive Reaches : World K P → Prop
  | start {w : World K P} (h : Stored pki m w) : Reaches w
  | call {w w' : World K P} (h : Reaches w) (c : Call) (inputs : Inputs K)
      (hrun : Program.Steps World.Serves (c.program pki m inputs) w (.done ()) w') : Reaches w'
  | crash {w w' : World K P} (h : Reaches w) (c : Call) (inputs : Inputs K)
      (rest : CertProgram K P Unit)
      (hrun : Program.Steps World.Serves (c.program pki m inputs) w rest w') :
      Reaches { w' with currentCert := none }
  | outside {w w' : World K P} (h : Reaches w)
      (hsecret : w'.secret = w.secret ∨ w'.secret = none) : Reaches w'

/-- The Secret is not due, its CA is in every entry of the existing configurations, and its
serving pair is the certificate that is served. -/
def Converged (now : Time) (w : World K P) : Prop :=
  ∃ secret bundle cert, w.secret = some secret ∧ bundleFromSecret pki m secret = .ok bundle ∧
    shouldRotate bundle now m.rotateBefore = false ∧
    Injected m w (secret.get defaultCAName) ∧
    pki.x509KeyPair (secret.get defaultCertName) (secret.get defaultKeyName) = .ok cert ∧
    w.currentCert = some cert

variable {pki m}

theorem Reaches.stored {w : World K P} (h : Reaches pki m w) : Stored pki m w := by
  induction h with
  | start h => exact h
  | call _ c inputs hrun ih =>
      exact (Call.writesGenerated c inputs).steps hrun (fun _ _ _ _ => Stored.serves) ih
  | @crash w w' _ c inputs rest hrun ih =>
      have hstopped : Stored pki m w' :=
        (Call.writesGenerated c inputs).steps hrun (fun _ _ _ _ => Stored.serves) ih
      exact hstopped
  | outside _ hsecret ih =>
      intro secret hsome
      rcases hsecret with hsame | hnone
      · exact ih secret (hsame ▸ hsome)
      · rw [hnone] at hsome
        cases hsome

theorem Converged.of_deployed {now : Time} {w : World K P} {secret : Secret}
    {bundle : CertBundle} {cert : TLSCertificate K P} (h : Deployed pki m w secret cert)
    (hread : bundleFromSecret pki m secret = .ok bundle)
    (hkeep : shouldRotate bundle now m.rotateBefore = false) : Converged pki m now w :=
  ⟨secret, bundle, cert, h.stored, hread, hkeep, h.injected, h.keyPair, h.served⟩

/-- A call in a converged world writes nothing and leaves it as it is. -/
theorem Converged.noop {now : Time} {w : World K P} (h : Converged pki m now w) (c : Call)
    (inputs : Inputs K) (hnow : inputs.now = now) :
    ((c.program pki m inputs).exec World.serve w).2 = w ∧
      ∀ request ∈ (c.program pki m inputs).sent World.serve w, request.writes = false := by
  obtain ⟨secret, bundle, cert, hsecret, hread, hkeep, hinjected, hpair, hcert⟩ := h
  have hcarries := (bundleFromSecret_eq_ok_iff.mp hread).1
  rw [hcarries.caCert] at hinjected
  rw [hcarries.servingCert, hcarries.servingKey] at hpair
  rw [← hnow] at hkeep
  have hstored : { w with currentCert := some cert } = w := by rw [← hcert]
  obtain ⟨hexec, hsent⟩ := injectCABundle_noop hinjected
  rw [c.exec_program, c.sent_program]
  simp only [initializeCerts, Program.exec_bind, Program.sent_bind,
    exec_ensureSecret_kept inputs hsecret hread hkeep,
    sent_ensureSecret_kept inputs hsecret hread hkeep, loadBundle, hpair, Program.exec,
    Program.sent, World.serve, hstored, hexec]
  refine ⟨trivial, fun request hrequest => ?_⟩
  simp only [List.cons_append, List.nil_append, List.mem_cons] at hrequest
  rcases hrequest with rfl | rfl | hrequest
  · rfl
  · rfl
  · exact hsent request hrequest

/-- A call in which no request fails leaves a Secret with a usable bundle, which is deployed.
The bundle is new, or it was not due. -/
theorem exec_call_usable (hpki : pki.Lawful m) {w : World K P} (hreach : Reaches pki m w) (c : Call)
    (now : Time) (caKey servingKey : K) :
    ∃ secret bundle cert, Carries secret bundle ∧ Usable pki bundle cert ∧
      Deployed pki m ((c.program pki m ⟨now, .ok caKey, .ok servingKey⟩).exec World.serve w).2
        secret cert ∧
      (cert.leaf.notAfter = expiry m now ∨
        shouldRotate { bundle with notAfter := cert.leaf.notAfter } now m.rotateBefore =
          false) := by
  rw [c.exec_program]
  rcases due_or_kept pki m now w with hdue | ⟨secret, bundle, hsecret, hread, hkeep⟩
  · obtain ⟨w', secret, bundle, cert, hexec, hdeployed, hcarries, husable, hexpiry⟩ :=
      exec_initializeCerts_due hpki hdue caKey servingKey
    rw [hexec]
    exact ⟨secret, bundle, cert, hcarries, husable, hdeployed, .inl hexpiry⟩
  · -- the Secret that is kept is one that a manager has made
    obtain ⟨inputs, made, hmade, hcarries⟩ := hreach.stored secret hsecret
    obtain ⟨cert, husable, _⟩ := generateBundle_usable hpki hmade
    obtain rfl := Except.ok.inj (hread.symm.trans (husable.bundleFromSecret hcarries))
    obtain ⟨w', hexec, hdeployed⟩ := exec_initializeCerts_ok
      (exec_ensureSecret_kept ⟨now, .ok caKey, .ok servingKey⟩ hsecret hread hkeep) hsecret
      (bundleFromSecret_eq_ok_iff.mp hread).1 husable.keyPair
    rw [hexec]
    exact ⟨secret, made, cert, hcarries, husable, hdeployed, .inr hkeep⟩

theorem call_converges (ns secretName serviceName validating mutating : String)
    (hpki : pki.Lawful (newManager ns secretName serviceName validating mutating)) {w : World K P}
    (hreach : Reaches pki (newManager ns secretName serviceName validating mutating) w) (c : Call)
    (now : Time) (caKey servingKey : K) :
    let m := newManager ns secretName serviceName validating mutating
    Converged pki m now
      ((c.program pki m ⟨now, .ok caKey, .ok servingKey⟩).exec World.serve w).2 := by
  intro m
  obtain ⟨secret, bundle, cert, hcarries, husable, hdeployed, hlate⟩ :=
    exec_call_usable hpki hreach c now caKey servingKey
  apply Converged.of_deployed hdeployed (husable.bundleFromSecret hcarries)
  rcases hlate with hexpiry | hkeep
  · apply shouldRotate_eq_false_iff.mpr
    show _ ≤ cert.leaf.notAfter.nanos
    rw [hexpiry]
    exact late_expiry ns secretName serviceName validating mutating now
  · exact hkeep

/-- After every history of calls that may fail or crash, a call in which no request fails
converges, and another call at that time writes nothing. -/
theorem rotation_converges (pki : Pki K P)
    (ns secretName serviceName validating mutating : String)
    (hpki : pki.Lawful (newManager ns secretName serviceName validating mutating)) (w : World K P)
    (hreach : Reaches pki (newManager ns secretName serviceName validating mutating) w) (c : Call)
    (now : Time) (caKey servingKey : K) :
    let m := newManager ns secretName serviceName validating mutating
    let after := ((c.program pki m ⟨now, .ok caKey, .ok servingKey⟩).exec World.serve w).2
    Converged pki m now after ∧ ∀ (again : Call) (inputs : Inputs K), inputs.now = now →
      ∀ request ∈ (again.program pki m inputs).sent World.serve after,
        request.writes = false := by
  intro m after
  have hconverged : Converged pki m now after :=
    call_converges ns secretName serviceName validating mutating hpki hreach c now caKey servingKey
  exact ⟨hconverged, fun again inputs hnow => (hconverged.noop again inputs hnow).2⟩

end Histories

/-- The process has created the Secret, the answer was lost and it has crashed: the next
tick without a failure converges. -/
theorem rotation_converges_after_crash :
    ∃ w : World UInt8 UInt8, Reaches samplePki sampleManager w ∧ w.secret ≠ none ∧
      Converged samplePki sampleManager ⟨5⟩
        ((Call.atTick.program samplePki sampleManager ⟨⟨5⟩, .ok 3, .ok 4⟩).exec
          World.serve w).2 := by
  have hstart : Reaches samplePki sampleManager (sampleWorld none) :=
    .start fun secret hsecret => nomatch hsecret
  have hcrash := hstart.crash .atStart ⟨⟨0⟩, .ok 1, .ok 2⟩ _
    (.call (.answers _ _) (.call (.lost _ _ "timeout" _ rfl) (.refl _ _)))
  exact ⟨_, hcrash, by simp [World.serve, sampleWorld, World.putSecret],
    (rotation_converges samplePki "system" "webhook-cert" "webhook" "validate" "mutate"
      (samplePki_lawful _) _ hcrash .atTick ⟨5⟩ 3 4).1⟩

end SyntheticsOperator.Proofs.CertRotation
