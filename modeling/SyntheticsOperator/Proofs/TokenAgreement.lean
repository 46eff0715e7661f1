import Mathlib.Logic.Function.Basic
import SyntheticsOperator.Controllers.HeartbeatController
import SyntheticsOperator.Support.MapLookup

/-!
# Concurrent calls agree on the generated token

Any number of `resolveToken` calls, interleaved request by request.  Each mints its
own candidate, but a candidate is stored only where the version it was computed from is
still the current one and holds no token.  So the versions of a Secret form a chain in
which a token, once there, stays, and every call that succeeds returns the token of one
of them.
-/

namespace SyntheticsOperator.Proofs.TokenAgreement

open SyntheticsOperator.Api
open SyntheticsOperator.Controllers
open SyntheticsOperator.Controllers.HeartbeatReconciler
open SyntheticsOperator.Heartbeat (acceptableToken newToken acceptableToken_newToken
  acceptableToken_eq_none_iff unreserved_plain)
open SyntheticsOperator.Support

/-! ## The API server -/

/-- The committed versions of every Secret, the current one last. -/
abbrev Secrets := NamespacedName → List Secret

/-- A write appends a version and numbers it. -/
def commit (s : Secrets) (key : NamespacedName) (secret : Secret) : Secrets :=
  Function.update s key (s key ++ [{ secret with resourceVersion := (s key).length + 1 }])

/-- What the server may do with a request.  A read returns any committed version, or
none, as it was before the first one.  A create needs that there is no Secret and an
update that its version is the current one.  Any request may fail, and a write that
reports an error may have been committed all the same. -/
def Serves (s : Secrets) : (request : HeartbeatRequest) → HeartbeatAnswer request → Secrets → Prop
  | .getSecret key, answer, s' => s' = s ∧ ∀ secret, answer = .ok secret → secret ∈ s key
  | .createSecret key secret, answer, s' =>
      (s key = [] ∧ s' = commit s key secret) ∨ (s' = s ∧ answer ≠ .ok ())
  | .updateSecret key secret, answer, s' =>
      (s key ≠ [] ∧ secret.resourceVersion = (s key).length ∧ s' = commit s key secret) ∨
        (s' = s ∧ answer ≠ .ok ())
  | .patchSecret key url, answer, s' =>
      (∃ current, (s key).getLast? = some current ∧
        s' = commit s key (current.set urlSecretKey url)) ∨ (s' = s ∧ answer ≠ .ok ())
  | _, _, s' => s' = s

/-- `resolveToken` as `Reconcile` goes on with it: the URL is written next. -/
def provision (quoteRune : GoString → String) (r : HeartbeatReconciler) (beat : Heartbeat) :
    HeartbeatProgram (Except TokenError (GoString × String)) :=
  (resolveToken quoteRune r beat).bind fun
    | .error err => .done (.error err)
    | .ok (token, secretName) =>
        (syncSecretURL beat secretName (r.pingURL token)).bind fun _ =>
          .done (.ok (token, secretName))

/-- The calls that run side by side, under any configuration and with any
`SetControllerReference`: those of `Token` and those of `Reconcile`. -/
def Starts (quoteRune : GoString → String) (beat : Heartbeat)
    (p : HeartbeatProgram (Except TokenError (GoString × String))) : Prop :=
  ∃ r : HeartbeatReconciler, r.ReadsModifiesWrites ∧
    (p = resolveToken quoteRune r beat ∨ p = provision quoteRune r beat)

/-- No Secret, or one version of it, with a token or without. -/
def Started (versions : List Secret) : Prop :=
  versions = [] ∨ ∃ secret, versions = [secret] ∧ secret.resourceVersion = 1

/-! ## The chain of versions -/

/-- The versions are numbered, and a token that is there stays as it is. -/
structure Kept (versions : List Secret) : Prop where
  numbered : ∀ i secret, versions[i]? = some secret → secret.resourceVersion = i + 1
  stable : versions.Pairwise fun earlier later =>
    earlier.token ≠ [] → later.get tokenSecretKey = earlier.get tokenSecretKey

def Inv (s : Secrets) : Prop := ∀ key, Kept (s key)

def Grows (s s' : Secrets) : Prop := ∀ key, s key <+: s' key

theorem grows_refl (s : Secrets) : Grows s s := fun _ => List.prefix_refl _

theorem grows_trans (a b c : Secrets) (hab : Grows a b) (hbc : Grows b c) : Grows a c :=
  fun key => (hab key).trans (hbc key)

theorem kept_of_started {versions : List Secret} (h : Started versions) : Kept versions := by
  rcases h with rfl | ⟨secret, rfl, hversion⟩
  · exact ⟨by simp, .nil⟩
  · refine ⟨?_, List.pairwise_singleton _ _⟩
    intro i secret' h
    rcases i with _ | i
    · cases h
      exact hversion
    · cases h

theorem token_congr {a b : Secret} (h : a.get tokenSecretKey = b.get tokenSecretKey) :
    a.token = b.token := by
  rw [Secret.token, Secret.token, h]

theorem exists_current {versions : List Secret} {secret : Secret} (h : secret ∈ versions) :
    ∃ current, versions.getLast? = some current :=
  ⟨_, List.getLast?_eq_some_getLast (List.ne_nil_of_mem h)⟩

/-- The current version has every token an earlier one had. -/
theorem get_last_of_mem {versions : List Secret} (h : Kept versions) {secret current : Secret}
    (hsecret : secret ∈ versions) (hcurrent : versions.getLast? = some current)
    (htoken : secret.token ≠ []) :
    current.get tokenSecretKey = secret.get tokenSecretKey := by
  obtain ⟨before, rfl⟩ := List.getLast?_eq_some_iff.mp hcurrent
  rcases List.mem_append.mp hsecret with hmem | hmem
  · exact (List.pairwise_append.mp h.stable).2.2 secret hmem current (.head _) htoken
  · rw [List.mem_singleton.mp hmem]

/-- A version that keeps the token of the current one extends the chain. -/
theorem kept_snoc {versions : List Secret} (h : Kept versions) (secret : Secret)
    (hkeeps : ∀ current, versions.getLast? = some current → current.token ≠ [] →
      secret.get tokenSecretKey = current.get tokenSecretKey) :
    Kept (versions ++ [{ secret with resourceVersion := versions.length + 1 }]) := by
  constructor
  · intro i secret' hget
    by_cases hi : i < versions.length
    · rw [List.getElem?_append_left hi] at hget
      exact h.numbered i secret' hget
    · rw [List.getElem?_append_right (by omega)] at hget
      obtain ⟨hlt, rfl⟩ := List.getElem?_eq_some_iff.mp hget
      have hlen : i - versions.length < 1 := hlt
      have hi' : i = versions.length := by omega
      simp [hi']
  · rw [List.pairwise_append]
    refine ⟨h.stable, List.pairwise_singleton _ _, ?_⟩
    intro earlier hearlier later hlater htoken
    obtain rfl := List.mem_singleton.mp hlater
    obtain ⟨current, hcurrent⟩ := exists_current hearlier
    have hsame := get_last_of_mem h hearlier hcurrent htoken
    have hcurrentToken : current.token ≠ [] := by
      rw [token_congr hsame]
      exact htoken
    exact (hkeeps current hcurrent hcurrentToken).trans hsame

theorem commit_grows (s : Secrets) (key : NamespacedName) (secret : Secret) :
    Grows s (commit s key secret) := by
  intro key'
  unfold commit
  by_cases hkey : key' = key
  · subst hkey
    rw [Function.update_self]
    exact List.prefix_append _ _
  · rw [Function.update_of_ne hkey]

theorem commit_inv {s : Secrets} (h : Inv s) (key : NamespacedName) (secret : Secret)
    (hkeeps : ∀ current, (s key).getLast? = some current → current.token ≠ [] →
      secret.get tokenSecretKey = current.get tokenSecretKey) :
    Inv (commit s key secret) := by
  intro key'
  unfold commit
  by_cases hkey : key' = key
  · subst hkey
    rw [Function.update_self]
    exact kept_snoc (h key') secret hkeeps
  · rw [Function.update_of_ne hkey]
    exact h key'

/-- What was committed is among the versions; the number does not matter for the
token. -/
theorem mem_commit (s : Secrets) (key : NamespacedName) (secret : Secret) :
    ∃ stored ∈ commit s key secret key, stored.token = secret.token := by
  refine ⟨{ secret with resourceVersion := (s key).length + 1 }, ?_, rfl⟩
  rw [commit, Function.update_self]
  exact List.mem_append_right _ (List.mem_singleton_self _)

/-- Two versions with a token have the same. -/
theorem token_eq_of_mem {versions : List Secret} (h : Kept versions) {a b : Secret}
    (ha : a ∈ versions) (hb : b ∈ versions) (hatoken : a.token ≠ []) (hbtoken : b.token ≠ []) :
    a.token = b.token := by
  obtain ⟨current, hcurrent⟩ := exists_current ha
  have hcurrentA := get_last_of_mem h ha hcurrent hatoken
  have hcurrentB := get_last_of_mem h hb hcurrent hbtoken
  exact token_congr (hcurrentA.symm.trans hcurrentB)

/-! ## The requests of one call -/

/-- What a successful call owes: its token is in the Secret. -/
def Holds (key : NamespacedName) (token : GoString) (s : Secrets) : Prop :=
  token ≠ [] ∧ ∃ secret ∈ s key, secret.token = token

theorem holds_grows {key : NamespacedName} {token : GoString} {a b : Secrets}
    (hgrows : Grows a b) (h : Holds key token a) : Holds key token b := by
  obtain ⟨hne, secret, hmem, htoken⟩ := h
  exact ⟨hne, secret, (hgrows key).subset hmem, htoken⟩

section Safe

variable {α : Type} {post : α → Secrets → Prop}

abbrev SafeCall (post : α → Secrets → Prop) (p : HeartbeatProgram α) (s : Secrets) : Prop :=
  Program.Safe Serves Inv Grows post p s

theorem safe_getSecret {key : NamespacedName}
    {next : Except GetError Secret → HeartbeatProgram α} {s : Secrets}
    (h : ∀ answer s', Grows s s' → Inv s' → (∀ secret, answer = .ok secret → secret ∈ s' key) →
      SafeCall post (next answer) s') :
    SafeCall post (.call (.getSecret key) next) s := by
  rintro s₁ hs₁ hinv answer s₂ ⟨rfl, hread⟩
  exact ⟨hinv, grows_refl _, h answer s₂ hs₁ hinv hread⟩

theorem safe_randRead
    {next : Except String (Vector UInt8 Heartbeat.tokenEntropyBytes) → HeartbeatProgram α}
    {s : Secrets}
    (h : ∀ answer s', Inv s' → SafeCall post (next answer) s') :
    SafeCall post (.call .randRead next) s := by
  rintro s₁ - hinv answer s₂ rfl
  exact ⟨hinv, grows_refl _, h answer s₂ hinv⟩

/-- A write was committed, with whatever answer, or it was refused. -/
theorem safe_of_write {key : NamespacedName} {secret : Secret}
    {next : Except String Unit → HeartbeatProgram α} {s s' : Secrets} {answer : Except String Unit}
    (hinv : Inv s)
    (hwrite : (s' = commit s key secret ∧
      ∀ current, (s key).getLast? = some current → current.token ≠ [] →
        secret.get tokenSecretKey = current.get tokenSecretKey) ∨ (s' = s ∧ answer ≠ .ok ()))
    (hok : ∀ s', Inv s' → (∃ stored ∈ s' key, stored.token = secret.token) →
      SafeCall post (next (.ok ())) s')
    (herror : ∀ err s', Inv s' → SafeCall post (next (.error err)) s') :
    Inv s' ∧ Grows s s' ∧ SafeCall post (next answer) s' := by
  rcases hwrite with ⟨rfl, hkeeps⟩ | ⟨rfl, hanswer⟩
  · have hinv' := commit_inv hinv key secret hkeeps
    refine ⟨hinv', commit_grows s key secret, ?_⟩
    cases answer with
    | ok _ => exact hok _ hinv' (mem_commit s key secret)
    | error err => exact herror err _ hinv'
  · refine ⟨hinv, grows_refl _, ?_⟩
    cases answer with
    | ok _ => exact absurd rfl hanswer
    | error err => exact herror err _ hinv

theorem safe_createSecret {key : NamespacedName} {secret : Secret}
    {next : Except String Unit → HeartbeatProgram α} {s : Secrets}
    (hok : ∀ s', Inv s' → (∃ stored ∈ s' key, stored.token = secret.token) →
      SafeCall post (next (.ok ())) s')
    (herror : ∀ err s', Inv s' → SafeCall post (next (.error err)) s') :
    SafeCall post (.call (.createSecret key secret) next) s := by
  intro s₁ _ hinv answer s₂ hserves
  refine safe_of_write hinv (hserves.imp_left ?_) hok herror
  rintro ⟨hempty, rfl⟩
  refine ⟨rfl, ?_⟩
  intro current hcurrent
  rw [hempty] at hcurrent
  cases hcurrent

/-- An update was computed from a version that was read: where it is admitted, that
version is the current one. -/
theorem safe_updateSecret {key : NamespacedName} {secret existing : Secret}
    {next : Except String Unit → HeartbeatProgram α} {s : Secrets} (hexisting : existing ∈ s key)
    (hversion : secret.resourceVersion = existing.resourceVersion)
    (hkeeps : existing.token ≠ [] →
      secret.get tokenSecretKey = existing.get tokenSecretKey)
    (hok : ∀ s', Inv s' → (∃ stored ∈ s' key, stored.token = secret.token) →
      SafeCall post (next (.ok ())) s')
    (herror : ∀ err s', Inv s' → SafeCall post (next (.error err)) s') :
    SafeCall post (.call (.updateSecret key secret) next) s := by
  intro s₁ hgrows hinv answer s₂ hserves
  refine safe_of_write hinv (hserves.imp_left ?_) hok herror
  rintro ⟨-, hcurrentVersion, rfl⟩
  refine ⟨rfl, ?_⟩
  intro current hcurrent htoken
  obtain ⟨i, hi⟩ := List.mem_iff_getElem?.mp ((hgrows key).subset hexisting)
  have hnumber := (hinv key).numbered i existing hi
  have hlast : i = (s₁ key).length - 1 := by omega
  rw [List.getLast?_eq_getElem?, ← hlast, hi] at hcurrent
  obtain rfl : existing = current := Option.some.inj hcurrent
  exact hkeeps htoken

theorem safe_patchSecret {key : NamespacedName} {url : GoString}
    {next : Except String Unit → HeartbeatProgram α} {s : Secrets}
    (h : ∀ answer s', Inv s' → Grows s s' → SafeCall post (next answer) s') :
    SafeCall post (.call (.patchSecret key url) next) s := by
  intro s₁ hgrows hinv answer s₂ hserves
  rcases hserves with ⟨current, hcurrent, rfl⟩ | ⟨rfl, -⟩
  · have hinv₂ : Inv (commit s₁ key (current.set urlSecretKey url)) := by
      refine commit_inv hinv key _ ?_
      intro current' hcurrent' _
      obtain rfl : current = current' := Option.some.inj (hcurrent.symm.trans hcurrent')
      rw [Secret.get, Secret.get, Secret.set, Finmap.lookup_insert_of_ne _ (by decide)]
    have hgrows₂ := commit_grows s₁ key (current.set urlSecretKey url)
    exact ⟨hinv₂, hgrows₂, h answer _ hinv₂ (grows_trans _ _ _ hgrows hgrows₂)⟩
  · exact ⟨hinv, grows_refl _, h answer _ hinv hgrows⟩

end Safe

/-! ## `resolveToken` -/

theorem get_set_of_ne (secret : Secret) {key key' : String} (value : GoString)
    (h : key' ≠ key) : (secret.set key value).get key' = secret.get key' := by
  rw [Secret.get, Secret.set, Finmap.lookup_insert_of_ne _ h, Secret.get]

theorem get_set_self (secret : Secret) (key : String) (value : GoString) :
    (secret.set key value).get key = value := by
  rw [Secret.get, Secret.set, Finmap.lookup_insert]
  rfl

/-- Nothing but the owner reference is set. -/
theorem setControllerReference_spec {kube : Kube} {owner : OwnerReference}
    {secret secret' : Secret} (h : secret.setControllerReference kube owner = .ok secret') :
    secret'.resourceVersion = secret.resourceVersion ∧ secret'.data = secret.data := by
  unfold Secret.setControllerReference at h
  split at h
  · cases h
  · cases h
    exact ⟨rfl, rfl⟩

/-- The mutate function keeps the version, and a token that is there; it returns the
token that is in the Secret afterwards. -/
theorem mutateToken_spec {r : HeartbeatReconciler} {beat : Heartbeat} {candidate : GoString}
    (htrim : GoString.trimSpace candidate = candidate) (hcandidate : candidate ≠ [])
    {secret secret' : Secret} {token : GoString}
    (h : mutateToken r beat candidate secret = .ok (secret', token)) :
    secret'.resourceVersion = secret.resourceVersion ∧
    (secret.token ≠ [] → secret'.get tokenSecretKey = secret.get tokenSecretKey) ∧
    secret'.token = token ∧ token ≠ [] := by
  have hkeys : tokenSecretKey ≠ urlSecretKey := by decide
  rcases mutateToken_cases h with ⟨hexisting, rfl, howned⟩ | ⟨hempty, rfl, howned⟩
  · obtain ⟨hversion, hdata⟩ := setControllerReference_spec howned
    have hget : secret'.get tokenSecretKey = secret.get tokenSecretKey :=
      calc secret'.get tokenSecretKey
          = (secret.set urlSecretKey (r.pingURL secret.token)).get tokenSecretKey := by
            rw [Secret.get, hdata, Secret.get]
        _ = secret.get tokenSecretKey := get_set_of_ne _ _ hkeys
    exact ⟨hversion, fun _ => hget, token_congr hget, hexisting⟩
  · obtain ⟨hversion, hdata⟩ := setControllerReference_spec howned
    have hget : secret'.get tokenSecretKey = token :=
      calc secret'.get tokenSecretKey
          = ((secret.set tokenSecretKey token).set urlSecretKey
              (r.pingURL token)).get tokenSecretKey := by
            rw [Secret.get, hdata, Secret.get]
        _ = (secret.set tokenSecretKey token).get tokenSecretKey := get_set_of_ne _ _ hkeys
        _ = token := get_set_self _ _ _
    refine ⟨hversion, fun hne => absurd hne hempty, ?_, hcandidate⟩
    rw [Secret.token, hget, htrim]

theorem newToken_trim (buf : Vector UInt8 Heartbeat.tokenEntropyBytes) :
    GoString.trimSpace (newToken buf) = newToken buf ∧ newToken buf ≠ [] := by
  obtain ⟨hlength, hall⟩ :=
    (acceptableToken_eq_none_iff (newToken buf)).mp (acceptableToken_newToken buf)
  refine ⟨GoString.trimSpace_eq_self (unreserved_plain hall), ?_⟩
  intro hnil
  rw [hnil] at hlength
  cases hlength

theorem safe_readModifyWrite {r : HeartbeatReconciler} {beat : Heartbeat} {candidate : GoString}
    (htrim : GoString.trimSpace candidate = candidate) (hcandidate : candidate ≠ [])
    (key : NamespacedName) (s : Secrets) :
    SafeCall (fun result s' => ∀ token, result = .ok token → Holds key token s')
      (readModifyWrite key ⟨0, ∅, none⟩ (mutateToken r beat candidate)) s := by
  have herror (err : String) (s' : Secrets) :
      ∀ token, (.error err : Except String GoString) = .ok token → Holds key token s' := by
    intro token htoken
    cases htoken
  have hwritten {secret : Secret} {token : GoString} (hsecret : secret.token = token)
      (hne : token ≠ []) {s' : Secrets} (hstored : ∃ stored ∈ s' key, stored.token = secret.token) :
      ∀ token', (.ok token : Except String GoString) = .ok token' → Holds key token' s' := by
    obtain ⟨stored, hmem, hsame⟩ := hstored
    intro token' htoken
    cases htoken
    exact ⟨hne, stored, hmem, hsame.trans hsecret⟩
  unfold readModifyWrite
  refine safe_getSecret ?_
  intro answer s' _ hinv hread
  match answer with
  | .error .notFound =>
      cases hmutate : mutateToken r beat candidate ⟨0, ∅, none⟩ with
      | error err => exact herror err s'
      | ok result =>
          obtain ⟨secret, token⟩ := result
          obtain ⟨-, -, hsecret, hne⟩ := mutateToken_spec htrim hcandidate hmutate
          exact safe_createSecret (fun _ _ => hwritten hsecret hne) fun err s'' _ => herror err s''
  | .error (.failed err) => exact herror err s'
  | .ok existing =>
      have hexisting := hread existing rfl
      simp only
      cases hmutate : mutateToken r beat candidate existing with
      | error err => exact herror err s'
      | ok result =>
          obtain ⟨secret, token⟩ := result
          obtain ⟨hversion, hkeeps, hsecret, hne⟩ := mutateToken_spec htrim hcandidate hmutate
          simp only
          split
          · -- nothing to write: the version that was read has the token
            rename_i hsame
            exact hwritten hsecret hne ⟨existing, hexisting, congrArg Secret.token hsame.symm⟩
          · exact safe_updateSecret hexisting hversion hkeeps (fun _ _ => hwritten hsecret hne)
              fun err s'' _ => herror err s''

/-- The Secret the operator generates for a Heartbeat. -/
def tokenKey (beat : Heartbeat) : NamespacedName := ⟨beat.ns, generatedSecretName beat.name⟩

/-- A successful call for a Heartbeat without `tokenSecretRef` returns a token that is
in its generated Secret. -/
def Resolved (beat : Heartbeat) (result : Except TokenError (GoString × String)) (s : Secrets) :
    Prop :=
  ∀ token secretName, result = .ok (token, secretName) → beat.spec.tokenSecretRef = none →
    Holds (tokenKey beat) token s

theorem resolved_grows (beat : Heartbeat) (result : Except TokenError (GoString × String))
    (a b : Secrets) (hgrows : Grows a b) (h : Resolved beat result a) : Resolved beat result b :=
  fun token secretName hresult href => holds_grows hgrows (h token secretName hresult href)

theorem resolved_error (beat : Heartbeat) (err : TokenError) (s : Secrets) :
    Resolved beat (.error err) s := by
  intro token secretName hresult
  cases hresult

theorem safe_mintToken {r : HeartbeatReconciler} (hr : r.ReadsModifiesWrites) (beat : Heartbeat)
    (s : Secrets) : SafeCall (Resolved beat) (mintToken r beat) s := by
  rw [ReadsModifiesWrites] at hr
  simp only [mintToken, hr]
  refine safe_randRead ?_
  intro answer s' hinv
  cases answer with
  | error err => exact resolved_error beat _ s'
  | ok buf =>
      obtain ⟨htrim, hne⟩ := newToken_trim buf
      refine Program.Safe.bind (safe_readModifyWrite htrim hne (tokenKey beat) s') hinv ?_
      intro result s'' _ hresult
      cases result with
      | error err => exact resolved_error beat _ s''
      | ok token =>
          intro token' secretName heq _
          cases heq
          exact hresult token rfl

/-- A Secret the user brought is only read. -/
theorem safe_adoptToken (quoteRune : GoString → String) (ns : String) (ref : TokenSecretRef)
    (s : Secrets) : SafeCall (fun _ _ => True) (adoptToken quoteRune ns ref) s := by
  unfold adoptToken
  refine safe_getSecret ?_
  intro answer s' _ _ _
  match answer with
  | .error .notFound => trivial
  | .error (.failed err) => trivial
  | .ok secret => trivial

theorem safe_resolveToken (quoteRune : GoString → String) {r : HeartbeatReconciler}
    (hr : r.ReadsModifiesWrites) (beat : Heartbeat) (s : Secrets) (hs : Inv s) :
    SafeCall (Resolved beat) (resolveToken quoteRune r beat) s := by
  unfold resolveToken
  cases href : beat.spec.tokenSecretRef with
  | some ref =>
      have hany (result : Except TokenError (GoString × String)) (s' : Secrets) :
          Resolved beat result s' := by
        intro token secretName _ hnone
        rw [href] at hnone
        cases hnone
      refine Program.Safe.bind (safe_adoptToken quoteRune beat.ns ref s) hs ?_
      intro result s' _ _
      cases result with
      | error err => exact hany _ s'
      | ok token => exact hany _ s'
  | none =>
      refine safe_getSecret ?_
      intro answer s' _ hinv hread
      match answer with
      | .ok secret =>
          simp only
          split
          · rename_i hne
            intro token secretName heq _
            cases heq
            exact ⟨hne, secret, hread secret rfl, rfl⟩
          · exact safe_mintToken hr beat s'
      | .error .notFound => exact safe_mintToken hr beat s'
      | .error (.failed err) => exact resolved_error beat _ s'

theorem safe_syncSecretURL (beat : Heartbeat) (secretName : String) (url : GoString)
    {post : Secrets → Prop} (hpost : ∀ a b, Grows a b → post a → post b) (s : Secrets)
    (hs : post s) :
    SafeCall (fun _ s' => post s') (syncSecretURL beat secretName url) s := by
  unfold syncSecretURL
  split
  · exact hs
  · refine safe_getSecret ?_
    intro answer s' hgrows hinv _
    have hs' := hpost s s' hgrows hs
    match answer with
    | .error .notFound => exact hs'
    | .error (.failed err) => exact hs'
    | .ok secret =>
        simp only
        split
        · exact hs'
        · refine safe_patchSecret ?_
          intro answer' s'' _ hgrows'
          exact hpost s' s'' hgrows' hs'

theorem safe_starts (quoteRune : GoString → String) (beat : Heartbeat)
    (p : HeartbeatProgram (Except TokenError (GoString × String)))
    (hp : Starts quoteRune beat p) (s : Secrets) (hs : Inv s) : SafeCall (Resolved beat) p s := by
  obtain ⟨r, hr, rfl | rfl⟩ := hp
  · exact safe_resolveToken quoteRune hr beat s hs
  · refine Program.Safe.bind (safe_resolveToken quoteRune hr beat s hs) hs ?_
    intro result s' hinv hresult
    cases result with
    | error err => exact resolved_error beat err s'
    | ok value =>
        obtain ⟨token, secretName⟩ := value
        refine Program.Safe.bind (safe_syncSecretURL beat secretName _
          (resolved_grows beat (.ok (token, secretName))) s' hresult) hinv ?_
        intro _ s'' _ hresult'
        exact hresult'

/-! ## Agreement -/

/-- For every interleaving of any number of calls, from no Secret or a first version of
each: the calls that succeed for one Heartbeat without `tokenSecretRef` return the same
token, and a token that is stored stays stored as it is. -/
theorem generated_token_agreement (quoteRune : GoString → String) (secrets : Secrets)
    (hstarted : ∀ key, Started (secrets key))
    (pool : Pool Secrets Heartbeat HeartbeatRequest HeartbeatAnswer
      (Except TokenError (GoString × String)))
    (hrun : Pool.Run Serves (Starts quoteRune) ⟨secrets, []⟩ pool) :
    (∀ beat beat' token token' secretName secretName',
      (beat, .done (.ok (token, secretName))) ∈ pool.calls →
      (beat', .done (.ok (token', secretName'))) ∈ pool.calls →
      beat.spec.tokenSecretRef = none → beat'.spec.tokenSecretRef = none →
      beat.ns = beat'.ns → beat.name = beat'.name → token = token') ∧
    ∀ pool', Pool.Run Serves (Starts quoteRune) pool pool' →
      ∀ key current, (pool.state key).getLast? = some current → current.token ≠ [] →
        ∃ later, (pool'.state key).getLast? = some later ∧
          later.get tokenSecretKey = current.get tokenSecretKey := by
  have hsafe : Pool.AllSafe Serves Inv Grows Resolved pool :=
    (Pool.run_safe grows_refl grows_trans resolved_grows (safe_starts quoteRune) hrun
      ⟨fun key => kept_of_started (hstarted key), by simp⟩).2
  constructor
  · intro beat beat' token token' secretName secretName' hcall hcall' href href' hns hname
    have hkeys : tokenKey beat = tokenKey beat' := by
      rw [tokenKey, tokenKey, hns, hname]
    obtain ⟨hne, secret, hmem, htoken⟩ := hsafe.calls _ hcall token secretName rfl href
    obtain ⟨hne', secret', hmem', htoken'⟩ := hsafe.calls _ hcall' token' secretName' rfl href'
    rw [hkeys] at hmem
    rw [← htoken, ← htoken']
    exact token_eq_of_mem (hsafe.state _) hmem hmem' (htoken ▸ hne) (htoken' ▸ hne')
  · intro pool' hrun' key current hcurrent htoken
    obtain ⟨hgrows, hsafe'⟩ := Pool.run_safe grows_refl grows_trans resolved_grows
      (safe_starts quoteRune) hrun' hsafe
    have hmem : current ∈ pool'.state key :=
      (hgrows key).subset (List.mem_of_getLast? hcurrent)
    obtain ⟨later, hlater⟩ := exists_current hmem
    exact ⟨later, hlater, get_last_of_mem (hsafe'.state key) hmem hlater htoken⟩

/-- A Heartbeat without a Secret of its own. -/
def report : Heartbeat where
  name := "report"
  ns := "default"
  uid := "report-uid"
  generation := 1
  deletionTimestamp := none
  spec := ⟨60000000000, 0, false, none, [], ∅⟩
  status := { lastPingTime := none, lastResult := "" }

/-- The Secret that the faster of two calls creates. -/
def reportSecret : Secret :=
  ⟨1, ((∅ : Finmap _).insert tokenSecretKey (newToken (.replicate _ 7))).insert urlSecretKey [],
    some (owner report)⟩

/-- The configuration of both calls. -/
def plain : HeartbeatReconciler := ⟨[], .sample, readModifyWrite⟩

section Race

variable (quoteRune : GoString → String)

/-- Two calls for the Heartbeat are under way. -/
def race (s : Secrets) (first second : HeartbeatProgram (Except TokenError (GoString × String))) :
    Pool Secrets Heartbeat HeartbeatRequest HeartbeatAnswer
      (Except TokenError (GoString × String)) :=
  ⟨s, [(report, first), (report, second)]⟩

variable {s s' : Secrets} {other : HeartbeatProgram (Except TokenError (GoString × String))}

theorem race_first (request : HeartbeatRequest)
    (next : HeartbeatAnswer request → HeartbeatProgram (Except TokenError (GoString × String)))
    (answer : HeartbeatAnswer request) (h : Serves s request answer s') :
    Pool.Step Serves (Starts quoteRune) (race s (.call request next) other)
      (race s' (next answer) other) :=
  .answer s s' [] [(report, other)] report request next answer h

theorem race_second (request : HeartbeatRequest)
    (next : HeartbeatAnswer request → HeartbeatProgram (Except TokenError (GoString × String)))
    (answer : HeartbeatAnswer request) (h : Serves s request answer s') :
    Pool.Step Serves (Starts quoteRune) (race s other (.call request next))
      (race s' other (next answer)) :=
  .answer s s' [(report, other)] [] report request next answer h

/-- Two calls start before there is a Secret.  The first one creates it; the second one
reads it then. -/
theorem race_run :
    Pool.Run Serves (Starts quoteRune) ⟨fun _ => [], []⟩
      (race (commit (fun _ => []) (tokenKey report) reportSecret)
        (.done (.ok (newToken (.replicate _ 7), generatedSecretName report.name)))
        (.done (.ok (reportSecret.token, generatedSecretName report.name)))) := by
  have hstarts : Starts quoteRune report (resolveToken quoteRune plain report) :=
    ⟨plain, rfl, .inl rfl⟩
  have hread : reportSecret ∈ commit (fun _ => []) (tokenKey report) reportSecret
      (tokenKey report) := by
    rw [commit, Function.update_self]
    exact List.mem_append_right _ (List.mem_singleton_self _)
  refine .head (.start _ [] report _ hstarts) ?_
  refine .head (.start _ _ report _ hstarts) ?_
  refine .head (race_first quoteRune (.getSecret (tokenKey report)) _ (.error .notFound)
    ⟨rfl, fun secret h => by cases h⟩) ?_
  refine .head (race_first quoteRune .randRead _ (.ok (.replicate _ 7)) rfl) ?_
  refine .head (race_first quoteRune (.getSecret (tokenKey report)) _ (.error .notFound)
    ⟨rfl, fun secret h => by cases h⟩) ?_
  refine .head (race_first quoteRune (.createSecret (tokenKey report) { reportSecret with
    resourceVersion := 0 }) _ (.ok ()) (.inl ⟨rfl, rfl⟩)) ?_
  refine .head (race_second quoteRune (.getSecret (tokenKey report)) _ (.ok reportSecret)
    ⟨rfl, fun secret h => by cases h; exact hread⟩) ?_
  have htoken : reportSecret.token ≠ [] := by
    decide +kernel
  simp only [if_pos htoken]
  exact .refl

end Race

/-- The call that came second returns the token the first one minted. -/
theorem generated_token_agreement_race :
    newToken (.replicate _ 7) = reportSecret.token :=
  (generated_token_agreement (fun _ => "") (fun _ => []) (fun _ => .inl rfl) _
    (race_run fun _ => "")).1 report report _ _ _ _ (.head _) (.tail _ (.head _)) rfl rfl rfl rfl

end SyntheticsOperator.Proofs.TokenAgreement
