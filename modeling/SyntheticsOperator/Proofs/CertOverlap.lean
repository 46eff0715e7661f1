import SyntheticsOperator.Proofs.CertRotation

/-!
# Certificate managers that overlap

During a rollout two processes manage one Secret, and nothing orders their requests.  The
Secret is a usable bundle all along, since each write replaces all of it and is refused when
another write came first.  The configurations have no such guard: the CA of a bundle that was
replaced meanwhile can be injected last.  The next call that runs alone repairs that.
-/

namespace SyntheticsOperator.Proofs.CertOverlap

open SyntheticsOperator.Support
open SyntheticsOperator.WebhookCerts
open SyntheticsOperator.Proofs.CertRotation
open SyntheticsOperator.Proofs.WebhookCerts

section Fleet

variable {K P : Type} [DecidableEq P] (pki : Pki K P) (m : Manager)

/-- The world and the calls under way, of any number of processes.  A call that is not
answered any more is one of a process that has crashed.  Each process serves a certificate of
its own, which no call reads: `currentCert` is that of the process that loaded one last. -/
abbrev Fleet (K P : Type) : Type := Pool (World K P) (Call × Inputs K) (Request K P) Answer Unit

def Starts (tag : Call × Inputs K) (p : CertProgram K P Unit) : Prop :=
  p = tag.1.program pki m tag.2

/-- A call starts or has its next request answered, or others change the configurations,
delete the Secret or replace the served certificate. -/
inductive Step : Fleet K P → Fleet K P → Prop
  | call {fleet fleet' : Fleet K P} (h : Pool.Step World.Serves (Starts pki m) fleet fleet') :
      Step fleet fleet'
  | outside (w w' : World K P) (calls : List ((Call × Inputs K) × CertProgram K P Unit))
      (hsecret : w'.secret = w.secret ∨ w'.secret = none) : Step ⟨w, calls⟩ ⟨w', calls⟩

abbrev Run : Fleet K P → Fleet K P → Prop := Relation.ReflTransGen (Step pki m)

variable {pki m}

/-- What is stored was made by a manager, and whatever the calls under way still write was
too. -/
def Sound (pki : Pki K P) (m : Manager) (fleet : Fleet K P) : Prop :=
  Pool.AllSafe World.Serves (Stored pki m) (fun _ _ => True) (fun _ _ _ => True) fleet

theorem safe_starts (tag : Call × Inputs K) (p : CertProgram K P Unit) (hp : Starts pki m tag p)
    (w : World K P) :
    Program.Safe World.Serves (Stored pki m) (fun _ _ => True) (fun _ _ => True) p w := by
  have hensures : (tag.1.program pki m tag.2).Ensures (fun _ _ => True) (WritesGenerated pki m)
      fun _ => True := Call.writesGenerated tag.1 tag.2
  have hkept : ∀ w request answer w', WritesGenerated pki m request → Stored pki m w →
      World.Serves w request answer w' → Stored pki m w' := fun _ _ _ _ => Stored.serves
  rw [hp]
  exact hensures.safe hkept w

theorem Sound.step {fleet fleet' : Fleet K P} (h : Sound pki m fleet)
    (hstep : Step pki m fleet fleet') : Sound pki m fleet' := by
  cases hstep with
  | call hcall =>
      exact (hcall.allSafe (fun _ => trivial) (fun _ _ _ _ _ => trivial)
        (fun _ _ _ _ _ _ => trivial) (fun tag p hp w _ => safe_starts tag p hp w) h).2
  | outside w w' calls hsecret =>
      refine ⟨fun secret hsome => ?_, fun call hmem => ?_⟩
      · rcases hsecret with hsame | hnone
        · exact h.state secret (hsame ▸ hsome)
        · rw [hnone] at hsome
          cases hsome
      · exact (h.calls call hmem).grow (fun _ _ _ _ _ => trivial) (fun _ _ _ _ _ => trivial)
          trivial

theorem Sound.run {fleet fleet' : Fleet K P} (h : Sound pki m fleet)
    (hrun : Run pki m fleet fleet') : Sound pki m fleet' := by
  induction hrun with
  | refl => exact h
  | tail _ hstep ih => exact ih.step hstep

/-- For any number of processes and every interleaving of their requests, each of which may
fail or stay without an answer: the Secret is absent or a usable bundle, and a call that runs
alone from there without a failure converges. -/
theorem overlap_converges (pki : Pki K P)
    (ns secretName serviceName validating mutating : String)
    (hpki : pki.Lawful (newManager ns secretName serviceName validating mutating)) (w : World K P)
    (hw : Stored pki (newManager ns secretName serviceName validating mutating) w)
    (fleet : Fleet K P)
    (hrun : Run pki (newManager ns secretName serviceName validating mutating) ⟨w, []⟩ fleet) :
    let m := newManager ns secretName serviceName validating mutating
    (∀ secret, fleet.state.secret = some secret →
      ∃ bundle cert, Carries secret bundle ∧ Usable pki bundle cert) ∧
    ∀ (c : Call) (now : Time) (caKey servingKey : K), Converged pki m now
      ((c.program pki m ⟨now, .ok caKey, .ok servingKey⟩).exec World.serve fleet.state).2 := by
  intro m
  have hstored : Stored pki m fleet.state :=
    (Sound.run (⟨hw, fun _ hmem => nomatch hmem⟩ : Sound pki m ⟨w, []⟩) hrun).state
  constructor
  · intro secret hsecret
    obtain ⟨inputs, bundle, hbundle, hcarries⟩ := hstored secret hsecret
    obtain ⟨cert, husable, -⟩ := generateBundle_usable hpki hbundle
    exact ⟨bundle, cert, hcarries, husable⟩
  · intro c now caKey servingKey
    exact call_converges ns secretName serviceName validating mutating hpki (.start hstored) c
      now caKey servingKey

end Fleet

def returned (call : (Call × Inputs UInt8) × CertProgram UInt8 UInt8 Unit) : Bool :=
  match call.2 with
  | .done _ => true
  | .call _ _ => false

def callAt (c : Call) (seconds : Int) (caKey servingKey : UInt8) :
    (Call × Inputs UInt8) × CertProgram UInt8 UInt8 Unit :=
  let inputs : Inputs UInt8 := ⟨⟨seconds * 1000000000⟩, .ok caKey, .ok servingKey⟩
  ((c, inputs), c.program samplePki sampleManager inputs)

/-- `Initialize`, and 72 days later a tick just before the certificate is due and one of
another process just after. -/
def rolloutCalls : List ((Call × Inputs UInt8) × CertProgram UInt8 UInt8 Unit) :=
  [callAt .atStart 0 1 2, callAt .atTick 6220800 3 4, callAt .atTick 6220801 5 6]

/-- The first tick reads the Secret, the other one rotates it, then the first one goes on. -/
def rollout : Fleet UInt8 UInt8 :=
  [0, 0, 0, 0, 0, 0, 1, 2, 2, 2, 2, 2, 2, 1, 1, 1, 1].foldl (Pool.advance World.serve)
    ⟨sampleWorld none, rolloutCalls⟩

theorem rollout_run : Run samplePki sampleManager ⟨sampleWorld none, []⟩ rollout := by
  have hstarts : ∀ call ∈ rolloutCalls, Starts samplePki sampleManager call.1 call.2 := by
    simp [rolloutCalls, callAt, Starts]
  have hrun : Pool.Run World.Serves (Starts samplePki sampleManager) ⟨sampleWorld none, []⟩
      rollout :=
    (Pool.run_start _ [] _ hstarts).trans (Pool.run_foldl_advance World.Serves.answers _ _)
  exact Relation.ReflTransGen.mono (fun _ _ hstep => Step.call hstep) _ _ hrun

/-- All three calls have returned without a failure.  The Secret has the CA of the second
tick, the webhook that of the first one.  The next tick repairs it. -/
theorem overlap_converges_rollout :
    rollout.calls.map returned = [true, true, true] ∧
      rollout.state.secret.map (·.get defaultCAName) ≠
        (rollout.state.configuration .validating).bind
          (fun configuration => configuration.webhooks.head?.map Webhook.caBundle) ∧
      Converged samplePki sampleManager ⟨6220860 * 1000000000⟩
        ((Call.atTick.program samplePki sampleManager
          ⟨⟨6220860 * 1000000000⟩, .ok 7, .ok 8⟩).exec World.serve rollout.state).2 := by
  refine ⟨by decide +kernel, by decide +kernel, ?_⟩
  have hstored : Stored samplePki sampleManager (sampleWorld none) :=
    fun secret hsecret => nomatch hsecret
  exact (overlap_converges samplePki "system" "webhook-cert" "webhook" "validate" "mutate"
    (samplePki_lawful _) (sampleWorld none) hstored rollout rollout_run).2 .atTick
    ⟨6220860 * 1000000000⟩ 7 8

end SyntheticsOperator.Proofs.CertOverlap
