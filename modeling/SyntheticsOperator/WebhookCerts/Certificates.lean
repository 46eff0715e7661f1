import Mathlib.Data.Finmap
import SyntheticsOperator.Support.GoStrings
import SyntheticsOperator.Support.GoTime

/-!
# Certificates of the webhook server

The bundle of a CA and a serving certificate: how it is made, read from its Secret and
found due for rotation.  The cryptography is a parameter; `Pki.Lawful` says what is
assumed of it.
-/

namespace SyntheticsOperator.WebhookCerts

open SyntheticsOperator.Support

/-! ## The libraries -/

/-- The part of `x509.Certificate` that is read. -/
structure Certificate (P : Type) where
  raw : GoString
  publicKey : P
  notAfter : Time
deriving DecidableEq

inductive KeyUsage where
  | digitalSignature
  | keyEncipherment
  | certSign
  | crlSign
deriving DecidableEq

structure Template where
  serialNumber : Int
  commonName : String
  organization : List String := []
  dnsNames : List String := []
  notBefore : Time
  notAfter : Time
  keyUsage : List KeyUsage
  serverAuth : Bool := false
  basicConstraintsValid : Bool := false
  isCA : Bool := false
deriving DecidableEq

inductive BlockType where
  | certificate
  | rsaPrivateKey
deriving DecidableEq

structure TLSCertificate (K P : Type) where
  leaf : Certificate P
  privateKey : K
deriving DecidableEq

/-- The functions of the crypto packages, over private keys `K` and public keys `P`. -/
structure Pki (K P : Type) where
  publicKey : K → P
  /-- `x509.CreateCertificate`: the template, the parent, the public key and the signer -/
  createCertificate : Template → Template → P → K → Except String GoString
  marshalPrivateKey : K → GoString
  encode : BlockType → GoString → GoString
  /-- `pem.Decode`, the bytes of the first block -/
  decode : GoString → Option GoString
  parseCertificate : GoString → Except String (Certificate P)
  /-- the private key that `tls.X509KeyPair` finds in a PEM text -/
  parsePrivateKey : GoString → Except String K
  /-- whether a certificate verifies under the roots of a PEM text -/
  verify : GoString → Certificate P → Bool

namespace Pki

variable {K P : Type} (pki : Pki K P)

def readCertificate (certPEM : GoString) : Except String (Certificate P) :=
  match pki.decode certPEM with
  | none => .error "failed to decode serving certificate"
  | some block => pki.parseCertificate block

def x509KeyPair [DecidableEq P] (certPEM keyPEM : GoString) :
    Except String (TLSCertificate K P) :=
  match pki.decode certPEM with
  | none => .error "tls: failed to find any PEM data in certificate input"
  | some block =>
      match pki.parseCertificate block with
      | .error err => .error err
      | .ok leaf =>
          match pki.parsePrivateKey keyPEM with
          | .error err => .error err
          | .ok key =>
              if leaf.publicKey = pki.publicKey key then .ok ⟨leaf, key⟩
              else .error "tls: private key does not match public key"

variable {pki}

theorem x509KeyPair_eq_ok_iff [DecidableEq P] {certPEM keyPEM : GoString}
    {cert : TLSCertificate K P} :
    pki.x509KeyPair certPEM keyPEM = .ok cert ↔
      pki.readCertificate certPEM = .ok cert.leaf ∧
        pki.parsePrivateKey keyPEM = .ok cert.privateKey ∧
        cert.leaf.publicKey = pki.publicKey cert.privateKey := by
  obtain ⟨leaf', key'⟩ := cert
  unfold x509KeyPair readCertificate
  cases pki.decode certPEM with
  | none => simp
  | some block =>
      cases hleaf : pki.parseCertificate block with
      | error err => simp [hleaf]
      | ok leaf =>
          cases hkey : pki.parsePrivateKey keyPEM with
          | error err => simp [hleaf]
          | ok key =>
              simp only [hleaf, Except.ok.injEq]
              by_cases hmatch : leaf.publicKey = pki.publicKey key
              · simp only [if_pos hmatch, Except.ok.injEq, TLSCertificate.mk.injEq]
                constructor
                · rintro ⟨rfl, rfl⟩
                  exact ⟨rfl, rfl, hmatch⟩
                · rintro ⟨rfl, rfl, _⟩
                  exact ⟨rfl, rfl⟩
              · simp only [if_neg hmatch, reduceCtorEq, false_iff]
                rintro ⟨rfl, rfl, hmatch'⟩
                exact hmatch hmatch'

end Pki

/-! ## Bundles -/

structure Secret where
  data : Finmap fun _ : String => GoString
  resourceVersion : Nat
deriving DecidableEq

/-- `Data[name]`: an entry that is absent is empty. -/
def Secret.get (secret : Secret) (name : String) : GoString := (secret.data.lookup name).getD []

def defaultCertName : String := "tls.crt"

def defaultKeyName : String := "tls.key"

def defaultCAName : String := "ca.crt"

def defaultCAKey : String := "ca.key"

structure CertBundle where
  caCertPEM : GoString
  caKeyPEM : GoString
  servingCertPEM : GoString
  servingKeyPEM : GoString
  notAfter : Time
deriving DecidableEq

def CertBundle.write (bundle : CertBundle) (data : Finmap fun _ : String => GoString) :
    Finmap fun _ : String => GoString :=
  (((data.insert defaultCAName bundle.caCertPEM).insert defaultCAKey bundle.caKeyPEM).insert
    defaultCertName bundle.servingCertPEM).insert defaultKeyName bundle.servingKeyPEM

/-- What a call reads from outside the API server: the clock, which stands still during the
call, and the keys that `rsa.GenerateKey` returns. -/
structure Inputs (K : Type) where
  now : Time
  caKey : Except String K
  servingKey : Except String K

structure Manager where
  ns : String
  secretName : String
  serviceName : String
  validatingWebhookConfiguration : String
  mutatingWebhookConfiguration : String
  certTTL : Duration
  rotateBefore : Duration
deriving DecidableEq

def newManager (ns secretName serviceName validatingWebhookConfiguration
    mutatingWebhookConfiguration : String) : Manager where
  ns := ns
  secretName := secretName
  serviceName := serviceName
  validatingWebhookConfiguration := validatingWebhookConfiguration
  mutatingWebhookConfiguration := mutatingWebhookConfiguration
  -- 90 and 18 days
  certTTL := 90 * 24 * 3600 * 1000000000
  rotateBefore := 18 * 24 * 3600 * 1000000000

section Bundles

variable {K P : Type} (pki : Pki K P) (m : Manager)

def caTemplate (now : Time) : Template where
  serialNumber := now.nanos
  commonName := "synthetics-operator-webhook-ca"
  organization := ["synthetics-operator"]
  notBefore := now.add (-3600000000000)
  notAfter := now.add m.certTTL
  keyUsage := [.certSign, .crlSign]
  basicConstraintsValid := true
  isCA := true

def servingTemplate (now : Time) : Template where
  serialNumber := now.nanos + 1
  commonName := m.serviceName ++ "." ++ m.ns ++ ".svc"
  dnsNames :=
    [m.serviceName, m.serviceName ++ "." ++ m.ns, m.serviceName ++ "." ++ m.ns ++ ".svc"]
  notBefore := now.add (-3600000000000)
  notAfter := now.add m.certTTL
  keyUsage := [.digitalSignature, .keyEncipherment]
  serverAuth := true

/-- `x509.CreateCertificate` for the CA of a bundle, which signs itself. -/
def createCA (now : Time) (caKey : K) : Except String GoString :=
  pki.createCertificate (caTemplate m now) (caTemplate m now) (pki.publicKey caKey) caKey

def createServing (now : Time) (caKey servingKey : K) : Except String GoString :=
  pki.createCertificate (servingTemplate m now) (caTemplate m now) (pki.publicKey servingKey)
    caKey

/-- What is assumed of the libraries, for the two certificates of a bundle: they are made,
the serving certificate and the keys are read back as they were made, a certificate keeps
whole seconds, and the serving certificate verifies under its CA. -/
structure Pki.Lawful : Prop where
  createsCA : ∀ now caKey, ∃ der, createCA pki m now caKey = .ok der
  createsServing : ∀ now caKey servingKey, ∃ der,
    createServing pki m now caKey servingKey = .ok der
  encodes : ∀ type bytes,
    pki.encode type bytes ≠ [] ∧ pki.decode (pki.encode type bytes) = some bytes
  parses : ∀ now caKey servingKey der, createServing pki m now caKey servingKey = .ok der →
    pki.parseCertificate der =
      .ok ⟨der, pki.publicKey servingKey, ⟨(now.add m.certTTL).unix * 1000000000⟩⟩
  parsesKey : ∀ key,
    pki.parsePrivateKey (pki.encode .rsaPrivateKey (pki.marshalPrivateKey key)) = .ok key
  verifies : ∀ now caKey servingKey caDER der cert, createCA pki m now caKey = .ok caDER →
    createServing pki m now caKey servingKey = .ok der → pki.parseCertificate der = .ok cert →
      pki.verify (pki.encode .certificate caDER) cert = true

def generateBundle (inputs : Inputs K) : Except String CertBundle :=
  match inputs.caKey with
  | .error err => .error err
  | .ok caKey =>
      match createCA pki m inputs.now caKey with
      | .error err => .error err
      | .ok caDER =>
          match inputs.servingKey with
          | .error err => .error err
          | .ok servingKey =>
              match createServing pki m inputs.now caKey servingKey with
              | .error err => .error err
              | .ok servingDER =>
                  .ok
                    { caCertPEM := pki.encode .certificate caDER
                      caKeyPEM := pki.encode .rsaPrivateKey (pki.marshalPrivateKey caKey)
                      servingCertPEM := pki.encode .certificate servingDER
                      servingKeyPEM :=
                        pki.encode .rsaPrivateKey (pki.marshalPrivateKey servingKey)
                      notAfter := (servingTemplate m inputs.now).notAfter }

def bundleFromSecret (secret : Secret) : Except String CertBundle :=
  let caCertPEM := secret.get defaultCAName
  let caKeyPEM := secret.get defaultCAKey
  let servingCertPEM := secret.get defaultCertName
  let servingKeyPEM := secret.get defaultKeyName
  if caCertPEM = [] ∨ caKeyPEM = [] ∨ servingCertPEM = [] ∨ servingKeyPEM = [] then
    .error ("secret " ++ m.ns ++ "/" ++ m.secretName ++ " is missing certificate data")
  else
    match pki.readCertificate servingCertPEM with
    | .error err => .error err
    | .ok cert => .ok ⟨caCertPEM, caKeyPEM, servingCertPEM, servingKeyPEM, cert.notAfter⟩

end Bundles

def shouldRotate (bundle : CertBundle) (now : Time) (rotateBefore : Duration) : Bool :=
  decide (bundle.notAfter.nanos < (now.add rotateBefore).nanos)

end SyntheticsOperator.WebhookCerts
