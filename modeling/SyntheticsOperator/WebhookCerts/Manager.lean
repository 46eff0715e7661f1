import SyntheticsOperator.Api.Depends
import SyntheticsOperator.Support.Requests
import SyntheticsOperator.WebhookCerts.Certificates

/-!
# The certificate manager

`Initialize` and the tick of `Start`: three steps, each a few requests to the API server,
with the certificate that is served in between.  The world of the last section answers
them; a call can also fail there, with or without its effect.
-/

namespace SyntheticsOperator.WebhookCerts

open SyntheticsOperator.Api (GetError)
open SyntheticsOperator.Support

/-! ## Requests -/

structure Webhook where
  name : String
  caBundle : GoString
deriving DecidableEq

structure WebhookConfiguration where
  webhooks : List Webhook
  resourceVersion : Nat
deriving DecidableEq

inductive ConfigurationKind where
  | validating
  | mutating
deriving DecidableEq

/-- The requests about the Secret and about the two configurations of the manager, and the
store of the certificate that is served, which is no call to the API server. -/
inductive Request (K P : Type) where
  | getSecret
  | createSecret (data : Finmap fun _ : String => GoString)
  | updateSecret (secret : Secret)
  | getConfiguration (kind : ConfigurationKind)
  | updateConfiguration (kind : ConfigurationKind) (configuration : WebhookConfiguration)
  | store (cert : TLSCertificate K P)

/-- `.error` carries the text of the error. -/
def Answer {K P : Type} : Request K P → Type
  | .getSecret => Except GetError Secret
  | .createSecret _ => Except String Unit
  | .updateSecret _ => Except String Unit
  | .getConfiguration _ => Except GetError WebhookConfiguration
  | .updateConfiguration _ _ => Except String Unit
  | .store _ => Unit

abbrev CertProgram (K P α : Type) : Type := Program (Request K P) Answer α

def Request.writes {K P : Type} : Request K P → Bool
  | .createSecret _ | .updateSecret _ | .updateConfiguration _ _ => true
  | _ => false

/-! ## The manager -/

section Programs

variable {K P : Type} (pki : Pki K P) (m : Manager)

def createCertSecret (inputs : Inputs K) : CertProgram K P (Except String CertBundle) :=
  match generateBundle pki m inputs with
  | .error err => .done (.error err)
  | .ok bundle =>
      .call (.createSecret (bundle.write ∅)) fun (created : Except String Unit) =>
        match created with
        | .error err => .done (.error err)
        | .ok () => .done (.ok bundle)

def rotateCertSecret (inputs : Inputs K) (secret : Secret) :
    CertProgram K P (Except String CertBundle) :=
  match generateBundle pki m inputs with
  | .error err => .done (.error err)
  | .ok bundle =>
      .call (.updateSecret { secret with data := bundle.write secret.data })
        fun (updated : Except String Unit) =>
          match updated with
          | .error err => .done (.error err)
          | .ok () => .done (.ok bundle)

def ensureSecret (inputs : Inputs K) : CertProgram K P (Except String CertBundle) :=
  .call .getSecret fun (answer : Except GetError Secret) =>
    match answer with
    | .error .notFound => createCertSecret pki m inputs
    | .error (.failed err) => .done (.error err)
    | .ok secret =>
        match bundleFromSecret pki m secret with
        | .error _ => rotateCertSecret pki m inputs secret
        | .ok bundle =>
            if shouldRotate bundle inputs.now m.rotateBefore then
              rotateCertSecret pki m inputs secret
            else .done (.ok bundle)

def loadBundle [DecidableEq P] (bundle : CertBundle) : CertProgram K P (Except String Unit) :=
  match pki.x509KeyPair bundle.servingCertPEM bundle.servingKeyPEM with
  | .error err => .done (.error err)
  | .ok cert => .call (.store cert) fun (_ : Unit) => .done (.ok ())

/-- The loop over the entries: the new entries, and whether one has changed. -/
def setCABundle (caBundle : GoString) : List Webhook → List Webhook × Bool
  | [] => ([], false)
  | hook :: hooks =>
      let (hooks, changed) := setCABundle caBundle hooks
      if hook.caBundle ≠ caBundle then ({ hook with caBundle := caBundle } :: hooks, true)
      else (hook :: hooks, changed)

def patchWebhookCABundle (kind : ConfigurationKind) (caBundle : GoString) :
    CertProgram K P (Except String Unit) :=
  .call (.getConfiguration kind) fun (answer : Except GetError WebhookConfiguration) =>
    match answer with
    | .error .notFound => .done (.ok ())
    | .error (.failed err) => .done (.error err)
    | .ok configuration =>
        let (webhooks, changed) := setCABundle caBundle configuration.webhooks
        if changed then
          .call (.updateConfiguration kind { configuration with webhooks := webhooks })
            fun (updated : Except String Unit) => .done updated
        else .done (.ok ())

def patchValidatingWebhookConfiguration (caBundle : GoString) :
    CertProgram K P (Except String Unit) :=
  patchWebhookCABundle .validating caBundle

def patchMutatingWebhookConfiguration (caBundle : GoString) :
    CertProgram K P (Except String Unit) :=
  patchWebhookCABundle .mutating caBundle

def injectCABundle (caBundle : GoString) : CertProgram K P (Except String Unit) :=
  let mutating : CertProgram K P (Except String Unit) :=
    if m.mutatingWebhookConfiguration ≠ "" then patchMutatingWebhookConfiguration caBundle
    else .done (.ok ())
  if m.validatingWebhookConfiguration ≠ "" then
    (patchValidatingWebhookConfiguration caBundle).bind fun
      | .error err => .done (.error err)
      | .ok () => mutating
  else mutating

variable [DecidableEq P]

def initializeCerts (inputs : Inputs K) : CertProgram K P (Except String Unit) :=
  (ensureSecret pki m inputs).bind fun
    | .error err => .done (.error err)
    | .ok bundle =>
        (loadBundle pki bundle).bind fun
          | .error err => .done (.error err)
          | .ok () => injectCABundle m bundle.caCertPEM

/-- One tick of `Start`, with what it logs. -/
def tick (inputs : Inputs K) : CertProgram K P (Option (String × String)) :=
  (ensureSecret pki m inputs).bind fun
    | .error err => .done (some (err, "reconciling webhook certificates"))
    | .ok bundle =>
        (loadBundle pki bundle).bind fun
          | .error err => .done (some (err, "loading rotated webhook certificate"))
          | .ok () =>
              (injectCABundle m bundle.caCertPEM).bind fun
                | .error err => .done (some (err, "injecting webhook ca bundle"))
                | .ok () => .done none

end Programs

/-! ## The API server and the process -/

/-- The objects of the manager, the revision of the store, and the certificate that the
process serves. -/
structure World (K P : Type) where
  secret : Option Secret
  configuration : ConfigurationKind → Option WebhookConfiguration
  revision : Nat
  currentCert : Option (TLSCertificate K P)

namespace World

variable {K P : Type}

def putSecret (w : World K P) (data : Finmap fun _ : String => GoString) : World K P :=
  { w with secret := some ⟨data, w.revision + 1⟩, revision := w.revision + 1 }

def putConfiguration (w : World K P) (kind : ConfigurationKind) (webhooks : List Webhook) :
    World K P :=
  { w with
    configuration := Function.update w.configuration kind (some ⟨webhooks, w.revision + 1⟩)
    revision := w.revision + 1 }

/-- The answer to a request.  An update must carry the version that is stored. -/
def serve (w : World K P) : (request : Request K P) → Answer request × World K P
  | .getSecret =>
      match w.secret with
      | none => (.error .notFound, w)
      | some secret => (.ok secret, w)
  | .createSecret data =>
      match w.secret with
      | none => (.ok (), w.putSecret data)
      | some _ => (.error "already exists", w)
  | .updateSecret secret =>
      match w.secret with
      | none => (.error "not found", w)
      | some stored =>
          if stored.resourceVersion = secret.resourceVersion then (.ok (), w.putSecret secret.data)
          else (.error "the object has been modified", w)
  | .getConfiguration kind =>
      match w.configuration kind with
      | none => (.error .notFound, w)
      | some configuration => (.ok configuration, w)
  | .updateConfiguration kind configuration =>
      match w.configuration kind with
      | none => (.error "not found", w)
      | some stored =>
          if stored.resourceVersion = configuration.resourceVersion then
            (.ok (), w.putConfiguration kind configuration.webhooks)
          else (.error "the object has been modified", w)
  | .store cert => ((), { w with currentCert := some cert })

def failure (err : String) : (request : Request K P) → Option (Answer request)
  | .getSecret => some (.error (.failed err))
  | .createSecret _ => some (.error err)
  | .updateSecret _ => some (.error err)
  | .getConfiguration _ => some (.error (.failed err))
  | .updateConfiguration _ _ => some (.error err)
  | .store _ => none

/-- A request is answered, or it fails: then it may have had its effect or not. -/
inductive Serves : World K P → (request : Request K P) → Answer request → World K P → Prop
  | answers (w : World K P) (request : Request K P) :
      Serves w request (w.serve request).1 (w.serve request).2
  | fails (w : World K P) (request : Request K P) (err : String) (answer : Answer request)
      (h : failure err request = some answer) : Serves w request answer w
  | lost (w : World K P) (request : Request K P) (err : String) (answer : Answer request)
      (h : failure err request = some answer) : Serves w request answer (w.serve request).2

end World

end SyntheticsOperator.WebhookCerts
