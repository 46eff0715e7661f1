import SyntheticsOperator.Controllers.Specs
import SyntheticsOperator.Controllers.Status
import SyntheticsOperator.Heartbeat.Token
import SyntheticsOperator.Support.Requests
import SyntheticsOperator.Support.Urls

/-!
# The Heartbeat controller

`HeartbeatReconciler` provisions the token of each Heartbeat and publishes its spec.
Its functions are programs: each call of the API server, of the publisher, of the
clock and of the random source is a request, and the rest of the function goes on with
the answer.
-/

namespace SyntheticsOperator.Controllers

open SyntheticsOperator.Api
open SyntheticsOperator.Heartbeat (acceptableToken newToken tokenEntropyBytes)
open SyntheticsOperator.Results (SpecUpdate)
open SyntheticsOperator.Support

def tokenSecretKey : String := "token"

def urlSecretKey : String := "url"

def conditionTokenReady : String := "TokenReady"

def reasonTokenProvisioned : String := "TokenProvisioned"

def reasonTokenMissing : String := "TokenMissing"

def reasonTokenInvalid : String := "TokenInvalid"

/-- `corev1.Secret`: its version, its data and its controller.  A missing `Data` map reads
like an empty one. -/
structure Secret where
  resourceVersion : Nat
  data : Finmap fun _ : String => GoString
  controller : Option OwnerReference
deriving DecidableEq

/-- `string(secret.Data[key])`. -/
def Secret.get (secret : Secret) (key : String) : GoString := (secret.data.lookup key).getD []

def Secret.set (secret : Secret) (key : String) (value : GoString) : Secret :=
  { secret with data := secret.data.insert key value }

def Secret.token (secret : Secret) : GoString := GoString.trimSpace (secret.get tokenSecretKey)

/-! ## Requests -/

/-- What the controller asks its environment for.  `patchSecret` is the merge patch
of `syncSecretURL`: it sets the one key that differs. -/
inductive HeartbeatRequest where
  | getHeartbeat (key : NamespacedName)
  | listHeartbeats
  | now
  | randRead
  | getSecret (key : NamespacedName)
  | createSecret (key : NamespacedName) (secret : Secret)
  | updateSecret (key : NamespacedName) (secret : Secret)
  | patchSecret (key : NamespacedName) (url : GoString)
  | publishSpec (msg : SpecUpdate)
  | patchStatus (key : NamespacedName) (status : HeartbeatStatus)

/-- `.error` carries the text of the error. -/
abbrev HeartbeatAnswer : HeartbeatRequest → Type
  | .getHeartbeat _ => Except GetError Heartbeat
  | .listHeartbeats => Except String (List Heartbeat)
  | .now => Time
  | .randRead => Except String (Vector UInt8 tokenEntropyBytes)
  | .getSecret _ => Except GetError Secret
  | .createSecret _ _ => Except String Unit
  | .updateSecret _ _ => Except String Unit
  | .patchSecret _ _ => Except String Unit
  | .publishSpec _ => Except String Unit
  | .patchStatus _ _ => Except String Unit

abbrev HeartbeatProgram (α : Type) : Type := Program HeartbeatRequest HeartbeatAnswer α

def publishSpec (msg : SpecUpdate) : HeartbeatProgram (Except String Unit) :=
  .call (.publishSpec msg) fun answer => .done answer

/-! ## Conditions -/

def setTokenCondition (kube : Kube) (conditions : List Condition) (generation : Int) (now : Time)
    (ready : Bool) (reason message : String) : List Condition :=
  kube.setStatusCondition conditions
    ⟨conditionTokenReady, ready, generation, now, reason, message⟩

/-- The two fields of the ping writer are not compared. -/
def heartbeatStatusChanged (before after : HeartbeatStatus) : Bool :=
  if before.url ≠ after.url || before.tokenSecretName ≠ after.tokenSecretName then true
  else
    probeStatusChanged before.observedGeneration after.observedGeneration before.conditions
      after.conditions

/-! ## The token -/

structure TokenError where
  reason : String
  message : String
deriving DecidableEq

def generatedSecretName (name : String) : String := name ++ "-heartbeat"

def Secret.setControllerReference (kube : Kube) (owner : OwnerReference) (secret : Secret) :
    Except String Secret :=
  match kube.setControllerReference owner secret.controller with
  | .error err => .error err
  | .ok controller => .ok { secret with controller := some controller }

/-- Read, mutate, and create or update what has changed. -/
def readModifyWrite (key : NamespacedName) (fresh : Secret)
    (mutate : Secret → Except String (Secret × GoString)) :
    HeartbeatProgram (Except String GoString) :=
  .call (.getSecret key) fun
    | .error .notFound =>
        match mutate fresh with
        | .error err => .done (.error err)
        | .ok (secret, value) =>
            .call (.createSecret key secret) fun
              | .error err => .done (.error err)
              | .ok () => .done (.ok value)
    | .error (.failed err) => .done (.error err)
    | .ok existing =>
        match mutate existing with
        | .error err => .done (.error err)
        | .ok (secret, value) =>
            if secret = existing then .done (.ok value)
            else
              .call (.updateSecret key secret) fun
                | .error err => .done (.error err)
                | .ok () => .done (.ok value)

/-- `createOrUpdate` is `controllerutil.CreateOrUpdate` of a Secret; its `mutate` also returns
what it left in the variable of its caller. -/
structure HeartbeatReconciler where
  baseURL : GoString
  kube : Kube
  createOrUpdate : NamespacedName → Secret → (Secret → Except String (Secret × GoString)) →
    HeartbeatProgram (Except String GoString)

namespace HeartbeatReconciler

/-- What is assumed of `CreateOrUpdate`. -/
def ReadsModifiesWrites (r : HeartbeatReconciler) : Prop := r.createOrUpdate = readModifyWrite

/-- Empty when no base URL is configured. -/
def pingURL (r : HeartbeatReconciler) (token : GoString) : GoString :=
  let base := GoString.trimSuffix 0x2F (GoString.trimSpace r.baseURL)
  if base = [] then [] else base ++ 0x2F :: Urls.pathEscape token

section Resolve

-- `%q` of the first rune, which ends up in a message only
variable (quoteRune : GoString → String)

/-- `adoptToken` once it has read the Secret `secretName`. -/
def adoptedToken (secretName key : String) (secret : Secret) : Except TokenError GoString :=
  let token := GoString.trimSpace (secret.get key)
  if token = [] then
    .error ⟨reasonTokenMissing,
      "Secret " ++ quoted secretName ++ " has no non-empty key " ++ quoted key⟩
  else
    match acceptableToken token with
    | some err =>
        .error ⟨reasonTokenInvalid,
          "token in Secret " ++ quoted secretName ++ " is unusable: " ++ err.text quoteRune⟩
    | none => .ok token

def adoptToken (ns : String) (ref : TokenSecretRef) :
    HeartbeatProgram (Except TokenError GoString) :=
  let key := if ref.key = "" then tokenSecretKey else ref.key
  .call (.getSecret ⟨ns, ref.name⟩) fun
    | .error .notFound =>
        .done (.error ⟨reasonTokenMissing, "Secret " ++ quoted ref.name ++ " not found"⟩)
    | .error (.failed err) =>
        .done (.error ⟨reasonTokenMissing, "reading Secret " ++ quoted ref.name ++ ": " ++ err⟩)
    | .ok secret => .done (adoptedToken quoteRune ref.name key secret)

def owner (beat : Heartbeat) : OwnerReference := ⟨.heartbeat, beat.name, beat.uid⟩

/-- The mutate function of `resolveToken`: a token that is there wins over the
candidate. -/
def mutateToken (r : HeartbeatReconciler) (beat : Heartbeat) (candidate : GoString)
    (secret : Secret) : Except String (Secret × GoString) :=
  let existing := secret.token
  let (secret, token) :=
    if existing ≠ [] then (secret, existing)
    else (secret.set tokenSecretKey candidate, candidate)
  let secret := secret.set urlSecretKey (r.pingURL token)
  match secret.setControllerReference r.kube (owner beat) with
  | .error err => .error err
  | .ok secret => .ok (secret, token)

/-- The token that was there, or else the candidate, is in the Secret with its URL. -/
theorem mutateToken_cases {r : HeartbeatReconciler} {beat : Heartbeat} {candidate token : GoString}
    {secret secret' : Secret} (h : mutateToken r beat candidate secret = .ok (secret', token)) :
    (secret.token ≠ [] ∧ token = secret.token ∧
      (secret.set urlSecretKey (r.pingURL token)).setControllerReference r.kube (owner beat) =
        .ok secret') ∨
    (¬ secret.token ≠ [] ∧ token = candidate ∧
      ((secret.set tokenSecretKey candidate).set urlSecretKey
        (r.pingURL token)).setControllerReference r.kube (owner beat) = .ok secret') := by
  unfold mutateToken at h
  by_cases hexisting : secret.token ≠ []
  · simp only [if_pos hexisting] at h
    split at h
    · cases h
    · rename_i howned
      cases h
      exact .inl ⟨hexisting, rfl, howned⟩
  · simp only [if_neg hexisting] at h
    split at h
    · cases h
    · rename_i howned
      cases h
      exact .inr ⟨hexisting, rfl, howned⟩

/-- `resolveToken` from the call of `NewToken` on. -/
def mintToken (r : HeartbeatReconciler) (beat : Heartbeat) :
    HeartbeatProgram (Except TokenError (GoString × String)) :=
  let secretName := generatedSecretName beat.name
  .call .randRead fun
    | .error err =>
        .done (.error ⟨reasonTokenMissing, "generating heartbeat token: " ++ err⟩)
    | .ok buf =>
        (r.createOrUpdate ⟨beat.ns, secretName⟩ ⟨0, ∅, none⟩
            (mutateToken r beat (newToken buf))).bind fun
          | .error err =>
              .done (.error ⟨reasonTokenMissing,
                "writing Secret " ++ quoted secretName ++ ": " ++ err⟩)
          | .ok token => .done (.ok (token, secretName))

def resolveToken (r : HeartbeatReconciler) (beat : Heartbeat) :
    HeartbeatProgram (Except TokenError (GoString × String)) :=
  match beat.spec.tokenSecretRef with
  | some ref =>
      (adoptToken quoteRune beat.ns ref).bind fun
        | .error err => .done (.error err)
        | .ok token => .done (.ok (token, ref.name))
  | none =>
      let secretName := generatedSecretName beat.name
      .call (.getSecret ⟨beat.ns, secretName⟩) fun
        | .ok secret =>
            if secret.token ≠ [] then .done (.ok (secret.token, secretName))
            -- someone took the token key away: mint a replacement
            else mintToken r beat
        | .error .notFound => mintToken r beat
        | .error (.failed err) =>
            .done (.error ⟨reasonTokenMissing,
              "reading Secret " ++ quoted secretName ++ ": " ++ err⟩)

def syncSecretURL (beat : Heartbeat) (secretName : String) (pingURL : GoString) :
    HeartbeatProgram (Except String Unit) :=
  if beat.spec.tokenSecretRef ≠ none ∨ pingURL = [] then .done (.ok ())
  else
    .call (.getSecret ⟨beat.ns, secretName⟩) fun
      | .error .notFound => .done (.ok ())
      | .error (.failed err) => .done (.error err)
      | .ok secret =>
          if secret.get urlSecretKey = pingURL then .done (.ok ())
          else .call (.patchSecret ⟨beat.ns, secretName⟩ pingURL) fun answer => .done answer

def patchStatus (original : Heartbeat) (status : HeartbeatStatus) :
    HeartbeatProgram (Except String Unit) :=
  if heartbeatStatusChanged original.status status then
    .call (.patchStatus ⟨original.ns, original.name⟩ status) fun answer => .done answer
  else .done (.ok ())

def failedStatus (kube : Kube) (beat : Heartbeat) (now : Time) (err : TokenError) :
    HeartbeatStatus :=
  { beat.status with
    conditions := setTokenCondition kube beat.status.conditions beat.generation now false
      err.reason err.message
    observedGeneration := beat.generation
    url := []
    tokenSecretName := "" }

def readyStatus (kube : Kube) (beat : Heartbeat) (now : Time) (pingURL : GoString)
    (secretName : String) : HeartbeatStatus :=
  { beat.status with
    observedGeneration := beat.generation
    url := pingURL
    tokenSecretName := secretName
    conditions := setTokenCondition kube
      (setSuspendedCondition kube beat.status.conditions beat.generation beat.spec.suspend now)
      beat.generation now true reasonTokenProvisioned
      ("token available in Secret " ++ quoted secretName) }

/-- `Reconcile` of a Heartbeat that is not being deleted; the result is `RequeueAfter`. -/
def reconcileBeat (r : HeartbeatReconciler) (beat : Heartbeat) :
    HeartbeatProgram (Except String Duration) :=
  .call .now fun now =>
    (resolveToken quoteRune r beat).bind fun
      | .error err =>
          -- a token nobody can verify stops being accepted
          (publishSpec (tombstone .heartbeat beat.ns beat.name)).bind fun
            | .error err => .done (.error err)
            | .ok () =>
                (patchStatus beat (failedStatus r.kube beat now err)).bind fun
                  | .error err => .done (.error err)
                  | .ok () => .done (.ok 30000000000)
      | .ok (token, secretName) =>
          (syncSecretURL beat secretName (r.pingURL token)).bind fun
            | .error err => .done (.error err)
            | .ok () =>
                (publishSpec (heartbeatSpecUpdate beat token)).bind fun
                  | .error err => .done (.error err)
                  | .ok () =>
                      (patchStatus beat
                          (readyStatus r.kube beat now (r.pingURL token) secretName)).bind fun
                        | .error err => .done (.error err)
                        | .ok () => .done (.ok 0)

def reconcileGone (key : NamespacedName) : HeartbeatProgram (Except String Duration) :=
  (publishSpec (tombstone .heartbeat key.ns key.name)).bind fun
    | .error err => .done (.error err)
    | .ok () => .done (.ok 0)

def reconcile (r : HeartbeatReconciler) (key : NamespacedName) :
    HeartbeatProgram (Except String Duration) :=
  .call (.getHeartbeat key) fun
    | .error .notFound => reconcileGone key
    | .error (.failed err) => .done (.error err)
    | .ok beat =>
        if beat.deleting then reconcileGone ⟨beat.ns, beat.name⟩
        else reconcileBeat quoteRune r beat

/-- `none` is `ok = false`. -/
def token (r : HeartbeatReconciler) (beat : Heartbeat) : HeartbeatProgram (Option GoString) :=
  (resolveToken quoteRune r beat).bind fun
    | .error _ => .done none
    | .ok (token, _) => .done (some token)

/-- One turn of the loop of `resyncHeartbeats`; a failed publish is logged. -/
def resyncHeartbeat (r : HeartbeatReconciler) (beat : Heartbeat) : HeartbeatProgram Unit :=
  if beat.deleting then .done ()
  else
    (token quoteRune r beat).bind fun
      | none => .done ()
      | some token => (publishSpec (heartbeatSpecUpdate beat token)).bind fun _ => .done ()

def resyncAll (r : HeartbeatReconciler) : List Heartbeat → HeartbeatProgram Unit
  | [] => .done ()
  | beat :: beats => (resyncHeartbeat quoteRune r beat).bind fun () => resyncAll r beats

/-- `SpecResyncer.resyncHeartbeats` with this reconciler as its `TokenReader`. -/
def resyncHeartbeats (r : HeartbeatReconciler) : HeartbeatProgram Unit :=
  .call .listHeartbeats fun
    | .error _ => .done ()
    | .ok beats => resyncAll quoteRune r beats

end Resolve

end HeartbeatReconciler

end SyntheticsOperator.Controllers
