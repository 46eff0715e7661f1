import SyntheticsOperator.Controllers.HeartbeatController

/-!
# What the Heartbeat controller talks to

The API server, the message bus, the clock and the random source are not part of this
repository.  They are a parameter, and `Lawful` is what is assumed of them when nobody else
writes: reads are current, messages are taken, and what a write that succeeds has written is
there afterwards.  Any write may fail.
-/

namespace SyntheticsOperator.Controllers

open SyntheticsOperator.Api
open SyntheticsOperator.Heartbeat (tokenEntropyBytes)
open SyntheticsOperator.Results (SpecUpdate)
open SyntheticsOperator.Support

namespace HeartbeatRequest

def writesSecret : HeartbeatRequest → Bool
  | .createSecret _ _ | .updateSecret _ _ | .patchSecret _ _ => true
  | _ => false

/-- The requests that change what the server stores. -/
def writes : HeartbeatRequest → Bool
  | .createSecret _ _ | .updateSecret _ _ | .patchSecret _ _ | .patchStatus _ _ => true
  | _ => false

/-- The message that a request publishes. -/
def message : HeartbeatRequest → Option SpecUpdate
  | .publishSpec msg => some msg
  | _ => none

end HeartbeatRequest

/-- The answers depend on the state `σ` and on the moment `μ` of a call. -/
structure HeartbeatServer (σ μ : Type) where
  beats : σ → NamespacedName → Option Heartbeat
  secrets : σ → NamespacedName → Option Secret
  serve : μ → σ → (request : HeartbeatRequest) → HeartbeatAnswer request × σ

def found {α : Type} : Option α → Except GetError α
  | some a => .ok a
  | none => .error .notFound

/-- The conditions differ in their times at most: `metav1.Time` is stored in whole seconds. -/
structure SameStatus (status stored : HeartbeatStatus) : Prop where
  observedGeneration : stored.observedGeneration = status.observedGeneration
  conditions : List.Forall₂ (fun c c' : Condition =>
    c' = { c with lastTransitionTime := c'.lastTransitionTime }) status.conditions stored.conditions
  url : stored.url = status.url
  tokenSecretName : stored.tokenSecretName = status.tokenSecretName
  lastPingTime : stored.lastPingTime = status.lastPingTime
  lastResult : stored.lastResult = status.lastResult

theorem SameStatus.refl (status : HeartbeatStatus) : SameStatus status status :=
  ⟨rfl, List.forall₂_same.mpr fun _ _ => rfl, rfl, rfl, rfl, rfl⟩

namespace HeartbeatServer

variable {σ μ : Type} (server : HeartbeatServer σ μ)

/-- The Secret was written, under whatever version, and no Heartbeat. -/
structure Wrote (s s' : σ) (key : NamespacedName) (secret : Secret) : Prop where
  beats : server.beats s' = server.beats s
  secret : ∃ version, server.secrets s' key = some { secret with resourceVersion := version }

structure Lawful : Prop where
  keyed : ∀ s key beat, server.beats s key = some beat → ⟨beat.ns, beat.name⟩ = key
  now : ∀ m s, (server.serve m s .now).2 = s
  randRead : ∀ m s, ∃ buf, server.serve m s .randRead = (.ok buf, s)
  getHeartbeat : ∀ m s key,
    server.serve m s (.getHeartbeat key) = (found (server.beats s key), s)
  getSecret : ∀ m s key, server.serve m s (.getSecret key) = (found (server.secrets s key), s)
  publishSpec : ∀ m s msg, server.serve m s (.publishSpec msg) = (.ok (), s)
  createSecret : ∀ m s s' key secret, server.serve m s (.createSecret key secret) = (.ok (), s') →
    server.Wrote s s' key secret
  updateSecret : ∀ m s s' key secret, server.serve m s (.updateSecret key secret) = (.ok (), s') →
    server.Wrote s s' key secret
  patchSecret : ∀ m s s' key url, server.serve m s (.patchSecret key url) = (.ok (), s') →
    ∀ secret, server.secrets s key = some secret →
      server.Wrote s s' key (secret.set urlSecretKey url)
  patchStatus : ∀ m s s' key status, server.serve m s (.patchStatus key status) = (.ok (), s') →
    ∀ beat, server.beats s key = some beat →
      server.secrets s' = server.secrets s ∧
      ∃ stored, SameStatus status stored ∧
        server.beats s' key = some { beat with status := stored }

end HeartbeatServer

/-! ## A server for running the model -/

/-- The stored Heartbeats, each under its own name, and the stored Secrets. -/
structure HeartbeatCluster where
  beats : Finmap fun _ : NamespacedName => Heartbeat
  secrets : Finmap fun _ : NamespacedName => Secret
  keyed : ∀ key beat, beats.lookup key = some beat → ⟨beat.ns, beat.name⟩ = key

namespace HeartbeatCluster

/-- A write numbers the Secret anew. -/
def putSecret (c : HeartbeatCluster) (key : NamespacedName) (secret : Secret) (version : Nat) :
    HeartbeatCluster :=
  { c with secrets := c.secrets.insert key { secret with resourceVersion := version } }

def putStatus (c : HeartbeatCluster) (key : NamespacedName) (beat : Heartbeat)
    (status : HeartbeatStatus) (h : c.beats.lookup key = some beat) : HeartbeatCluster where
  beats := c.beats.insert key { beat with status := status }
  secrets := c.secrets
  keyed := by
    intro key' beat' h'
    by_cases hkey : key' = key
    · subst hkey
      rw [Finmap.lookup_insert] at h'
      cases h'
      exact c.keyed key' beat h
    · rw [Finmap.lookup_insert_of_ne _ hkey] at h'
      exact c.keyed key' beat' h'

/-- The clock, the random source and what a list returns. -/
structure Moment where
  now : Time
  random : Vector UInt8 tokenEntropyBytes
  listed : List Heartbeat

def serve (moment : Moment) (c : HeartbeatCluster) :
    (request : HeartbeatRequest) → HeartbeatAnswer request × HeartbeatCluster
  | .getHeartbeat key => (found (c.beats.lookup key), c)
  | .listHeartbeats => (.ok moment.listed, c)
  | .now => (moment.now, c)
  | .randRead => (.ok moment.random, c)
  | .getSecret key => (found (c.secrets.lookup key), c)
  | .createSecret key secret =>
      match c.secrets.lookup key with
      | none => (.ok (), c.putSecret key secret 1)
      | some _ => (.error "already exists", c)
  | .updateSecret key secret =>
      match c.secrets.lookup key with
      | none => (.error "not found", c)
      | some stored =>
          if secret.resourceVersion = stored.resourceVersion then
            (.ok (), c.putSecret key secret (stored.resourceVersion + 1))
          else (.error "the object has been modified", c)
  | .patchSecret key url =>
      match c.secrets.lookup key with
      | none => (.error "not found", c)
      | some stored =>
          (.ok (), c.putSecret key (stored.set urlSecretKey url) (stored.resourceVersion + 1))
  | .publishSpec _ => (.ok (), c)
  | .patchStatus key status =>
      match h : c.beats.lookup key with
      | none => (.error "not found", c)
      | some beat => (.ok (), c.putStatus key beat status h)

def server : HeartbeatServer HeartbeatCluster Moment where
  beats c key := c.beats.lookup key
  secrets c key := c.secrets.lookup key
  serve := serve

theorem wrote_putSecret (c : HeartbeatCluster) (key : NamespacedName) (secret : Secret)
    (version : Nat) : server.Wrote c (c.putSecret key secret version) key secret :=
  ⟨rfl, version, Finmap.lookup_insert _⟩

theorem server_lawful : server.Lawful where
  keyed c := c.keyed
  now _ _ := rfl
  randRead m _ := ⟨m.random, rfl⟩
  getHeartbeat _ _ _ := rfl
  getSecret _ _ _ := rfl
  publishSpec _ _ _ := rfl
  createSecret m c c' key secret h := by
    simp only [server, serve] at h
    split at h
    · cases h
      exact wrote_putSecret c key secret 1
    · cases h
  updateSecret m c c' key secret h := by
    simp only [server, serve] at h
    split at h
    · cases h
    · split at h
      · cases h
        exact wrote_putSecret c key secret _
      · cases h
  patchSecret m c c' key url h secret hsecret := by
    have hlookup : c.secrets.lookup key = some secret := hsecret
    simp only [server, serve, hlookup] at h
    cases h
    exact wrote_putSecret c key _ _
  patchStatus m c c' key status h beat hbeat := by
    simp only [server, serve] at h
    split at h
    · cases h
    · rename_i stored hstored
      cases h
      obtain rfl : stored = beat := Option.some.inj (hstored.symm.trans hbeat)
      exact ⟨rfl, status, .refl status, Finmap.lookup_insert _⟩

end HeartbeatCluster

end SyntheticsOperator.Controllers
