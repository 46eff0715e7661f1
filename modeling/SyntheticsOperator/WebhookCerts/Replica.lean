import SyntheticsOperator.WebhookCerts.Manager

/-!
# Webhook-only replicas

Replicas that serve the webhook with the certificate that the controller has put into the
Secret.  They wait for the Secret when they start and follow it through an informer.
-/

namespace SyntheticsOperator.WebhookCerts

open SyntheticsOperator.Api (GetError)
open SyntheticsOperator.Support

section Replica

variable {K P : Type} [DecidableEq P] (pki : Pki K P) (m : Manager)

def loadSecret (secret : Secret) : Except String (TLSCertificate K P) :=
  match bundleFromSecret pki m secret with
  | .error err => .error err
  | .ok bundle => pki.x509KeyPair bundle.servingCertPEM bundle.servingKeyPEM

/-- One turn of the loop of `InitializeReadOnly`: the clock at its head, what the read answers,
and the error of a context that ends while it waits. -/
structure Turn where
  now : Time
  answer : Except GetError Secret
  cancelled : Option String

def readOnlyWait : Duration := 30000000000

/-- The turns up to now; `none` while the replica waits. -/
def awaitSecret (deadline : Time) : List Turn → Option (Except String (TLSCertificate K P))
  | [] => none
  | turn :: turns =>
      if turn.now.nanos < deadline.nanos then
        match turn.answer with
        | .ok secret => some (loadSecret pki m secret)
        | .error .notFound =>
            match turn.cancelled with
            | some err => some (.error err)
            | none => awaitSecret deadline turns
        | .error (.failed err) => some (.error err)
      else
        some (.error ("timed out waiting for webhook certificate secret " ++ m.ns ++ "/" ++
          m.secretName))

def initializeReadOnly (start : Time) (turns : List Turn) :
    Option (Except String (TLSCertificate K P)) :=
  awaitSecret pki m (start.add readOnlyWait) turns

inductive Watched where
  | secret (ns name : String) (secret : Secret)
  /-- no `*corev1.Secret` -/
  | other

def Watched.ours : Watched → Option Secret
  | .secret ns name found => if name ≠ m.secretName ∨ ns ≠ m.ns then none else some found
  | .other => none

def reloadCertFromSecret (current : Option (TLSCertificate K P)) (obj : Watched) :
    Option (TLSCertificate K P) :=
  match obj.ours m with
  | none => current
  | some secret =>
      match loadSecret pki m secret with
      -- only logged
      | .error _ => current
      | .ok cert => some cert

def getCertificate (current : Option (TLSCertificate K P)) : Except String (TLSCertificate K P) :=
  match current with
  | none => .error "webhook serving certificate is not loaded"
  | some cert => .ok cert

def follow (current : Option (TLSCertificate K P)) (watched : List Watched) :
    Option (TLSCertificate K P) :=
  watched.foldl (reloadCertFromSecret pki m) current

end Replica

end SyntheticsOperator.WebhookCerts
