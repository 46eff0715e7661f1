import SyntheticsOperator.Controllers.HeartbeatServer
import SyntheticsOperator.Proofs.TokenAgreement

/-!
# A second reconcile changes nothing

The controller is called again for every Secret that it writes.  So a `Reconcile` that
always wrote would never come to rest.  After one call that has succeeded, where nobody else
writes, every further call finds the token, the URL and the status as it would write them:
it only reads, publishes the same message and returns the same.  The exception is a generated
Secret that the API server refuses to write: each call tries again, and returns a delay.
-/

namespace SyntheticsOperator.Proofs.Quiescence

open SyntheticsOperator.Api
open SyntheticsOperator.Controllers
open SyntheticsOperator.Controllers.HeartbeatReconciler
open SyntheticsOperator.Heartbeat (newToken)
open SyntheticsOperator.Results (SpecUpdate)
open SyntheticsOperator.Support

/-! ## Programs that only read -/

section Runs

variable {α β σ : Type} {serve : σ → (request : HeartbeatRequest) → HeartbeatAnswer request × σ}

/-- The program returns `v`, leaves `s'` behind and publishes the messages. -/
structure Runs (serve : σ → (request : HeartbeatRequest) → HeartbeatAnswer request × σ)
    (p : HeartbeatProgram α) (s : σ) (v : α) (s' : σ) (messages : List SpecUpdate) : Prop where
  exec : p.exec serve s = (v, s')
  published : (p.sent serve s).filterMap HeartbeatRequest.message = messages

/-- It sends no request that writes either. -/
structure Reads (serve : σ → (request : HeartbeatRequest) → HeartbeatAnswer request × σ)
    (p : HeartbeatProgram α) (s : σ) (v : α) (messages : List SpecUpdate) : Prop
    extends Runs serve p s v s messages where
  silent : ∀ request ∈ p.sent serve s, request.writes = false

variable {s s' s'' : σ} {v : α} {w : β} {messages messages' : List SpecUpdate}

theorem Runs.done (v : α) : Runs serve (.done v) s v s [] := ⟨rfl, rfl⟩

theorem Reads.done (v : α) : Reads serve (.done v) s v [] := ⟨.done v, by simp⟩

theorem Runs.call {request : HeartbeatRequest}
    {next : HeartbeatAnswer request → HeartbeatProgram α} {answer : HeartbeatAnswer request}
    (hserve : serve s request = (answer, s')) (hmessage : request.message = none)
    (h : Runs serve (next answer) s' v s'' messages) :
    Runs serve (.call request next) s v s'' messages := by
  refine ⟨?_, ?_⟩
  · simp only [Program.exec, hserve]
    exact h.exec
  · simp only [Program.sent, hserve, List.filterMap_cons, hmessage]
    exact h.published

theorem Reads.call {request : HeartbeatRequest}
    {next : HeartbeatAnswer request → HeartbeatProgram α} {answer : HeartbeatAnswer request}
    (hserve : serve s request = (answer, s)) (hmessage : request.message = none)
    (hwrites : request.writes = false) (h : Reads serve (next answer) s v messages) :
    Reads serve (.call request next) s v messages := by
  refine ⟨Runs.call hserve hmessage h.toRuns, ?_⟩
  intro request' hmem
  simp only [Program.sent, hserve, List.mem_cons] at hmem
  rcases hmem with rfl | hmem
  · exact hwrites
  · exact h.silent request' hmem

theorem Runs.bind {p : HeartbeatProgram α} {rest : α → HeartbeatProgram β}
    (h : Runs serve p s v s' messages) (hrest : Runs serve (rest v) s' w s'' messages') :
    Runs serve (p.bind rest) s w s'' (messages ++ messages') := by
  refine ⟨?_, ?_⟩
  · rw [Program.exec_bind, h.exec]
    exact hrest.exec
  · rw [Program.sent_bind, h.exec, List.filterMap_append, h.published, hrest.published]

theorem Reads.bind {p : HeartbeatProgram α} {rest : α → HeartbeatProgram β}
    (h : Reads serve p s v messages) (hrest : Reads serve (rest v) s w messages') :
    Reads serve (p.bind rest) s w (messages ++ messages') := by
  refine ⟨h.toRuns.bind hrest.toRuns, ?_⟩
  intro request hmem
  rw [Program.sent_bind, h.exec] at hmem
  rcases List.mem_append.mp hmem with hmem | hmem
  · exact h.silent request hmem
  · exact hrest.silent request hmem

/-- The program returns an error, and it has asked for a write of a Secret. -/
structure Failed {ε : Type} (serve : σ → (request : HeartbeatRequest) → HeartbeatAnswer request × σ)
    (p : HeartbeatProgram (Except ε α)) (s : σ) : Prop where
  exec : ∃ err s', p.exec serve s = (.error err, s')
  tried : ∃ request ∈ p.sent serve s, request.writesSecret = true

theorem Failed.call {ε : Type} {request : HeartbeatRequest}
    {next : HeartbeatAnswer request → HeartbeatProgram (Except ε α)}
    {answer : HeartbeatAnswer request} (hserve : serve s request = (answer, s'))
    (h : Failed serve (next answer) s') : Failed serve (.call request next) s := by
  obtain ⟨tried, hmem, hwrites⟩ := h.tried
  refine ⟨?_, tried, ?_, hwrites⟩
  · simp only [Program.exec, hserve]
    exact h.exec
  · simp only [Program.sent, hserve]
    exact .tail _ hmem

theorem Failed.write {ε : Type} {request : HeartbeatRequest}
    {next : HeartbeatAnswer request → HeartbeatProgram (Except ε α)}
    {answer : HeartbeatAnswer request} {err : ε} (hwrites : request.writesSecret = true)
    (hserve : serve s request = (answer, s')) (hnext : next answer = .done (.error err)) :
    Failed serve (.call request next) s := by
  refine ⟨⟨err, s', ?_⟩, request, .head _, hwrites⟩
  simp only [Program.exec, hserve, hnext]

theorem Failed.bind {ε ε' : Type} {p : HeartbeatProgram (Except ε α)}
    {rest : Except ε α → HeartbeatProgram (Except ε' β)} (h : Failed serve p s)
    (hrest : ∀ err, ∃ err', rest (.error err) = .done (.error err')) :
    Failed serve (p.bind rest) s := by
  obtain ⟨err, s', hexec⟩ := h.exec
  obtain ⟨err', hrest⟩ := hrest err
  obtain ⟨tried, hmem, hwrites⟩ := h.tried
  refine ⟨⟨err', s', ?_⟩, tried, ?_, hwrites⟩
  · rw [Program.exec_bind, hexec, hrest]
    rfl
  · rw [Program.sent_bind]
    exact List.mem_append_left _ hmem

end Runs

/-! ## Conditions -/

section Conditions

variable {kube : Kube} {c : Condition}

theorem hasCondition_set (hkube : kube.SetsConditions) (conditions : List Condition)
    (c : Condition) (since : Time) :
    HasCondition (kube.setStatusCondition conditions c) { c with lastTransitionTime := since } :=
  hkube.has conditions c

/-- Times do not matter for whether a condition is there. -/
theorem hasCondition_of_stored {conditions stored : List Condition}
    (hstored : List.Forall₂ (fun c c' : Condition =>
      c' = { c with lastTransitionTime := c'.lastTransitionTime }) conditions stored)
    (h : HasCondition conditions c) : HasCondition stored c := by
  induction hstored with
  | nil => exact h
  | @cons old old' _ _ hold _ ih =>
      have htype : old'.type = old.type := by rw [hold]
      by_cases hfirst : old.type = c.type
      · obtain ⟨since, hfound⟩ := h
        rw [List.find?_cons_of_pos (by simpa using hfirst)] at hfound
        refine ⟨old'.lastTransitionTime, ?_⟩
        rw [List.find?_cons_of_pos (by simpa [htype] using hfirst), hold, Option.some.inj hfound]
      · have hfirst' : old'.type ≠ c.type := by rwa [htype]
        exact (Kube.hasCondition_cons_of_ne _ hfirst').mpr
          (ih ((Kube.hasCondition_cons_of_ne _ hfirst).mp h))

/-- The status that was stored is the one that is asked for again. -/
theorem failedStatus_unchanged (hkube : kube.SetsConditions) (beat : Heartbeat) (now now' : Time)
    (err : TokenError) {stored : HeartbeatStatus}
    (h : SameStatus (failedStatus kube beat now err) stored) :
    heartbeatStatusChanged stored
      (failedStatus kube { beat with status := stored } now' err) = false := by
  have hset : kube.setStatusCondition stored.conditions
      ⟨conditionTokenReady, false, beat.generation, now', err.reason, err.message⟩ =
      stored.conditions :=
    hkube.unchanged _ _ (hasCondition_of_stored h.conditions (hasCondition_set hkube _ _ now'))
  simp [heartbeatStatusChanged, probeStatusChanged, failedStatus, setTokenCondition, hset, h.url,
    h.tokenSecretName, h.observedGeneration]

@[inherit_doc failedStatus_unchanged]
theorem readyStatus_unchanged (hkube : kube.SetsConditions) (beat : Heartbeat) (now now' : Time)
    (url : GoString) (secretName : String) {stored : HeartbeatStatus}
    (h : SameStatus (readyStatus kube beat now url secretName) stored) :
    heartbeatStatusChanged stored
      (readyStatus kube { beat with status := stored } now' url secretName) = false := by
  have htoken : kube.setStatusCondition stored.conditions
      ⟨conditionTokenReady, true, beat.generation, now', reasonTokenProvisioned,
        "token available in Secret " ++ quoted secretName⟩ = stored.conditions :=
    hkube.unchanged _ _ (hasCondition_of_stored h.conditions (hasCondition_set hkube _ _ now'))
  have hsuspended : setSuspendedCondition kube stored.conditions beat.generation
      beat.spec.suspend now' = stored.conditions := by
    refine hkube.unchanged _ _ (hasCondition_of_stored h.conditions ?_)
    -- the condition of the token is set beside it
    refine hkube.keeps _ _ _ ?_ ?_
    · cases beat.spec.suspend <;> exact hasCondition_set hkube _ _ now'
    · cases beat.spec.suspend <;> simp [conditionTokenReady]
  simp [heartbeatStatusChanged, probeStatusChanged, readyStatus, setTokenCondition, hsuspended,
    htoken, h.url, h.tokenSecretName, h.observedGeneration]

end Conditions

section Server

variable {σ μ : Type} {server : HeartbeatServer σ μ} (hserver : server.Lawful)
  {quoteRune : GoString → String} {r : HeartbeatReconciler} {beat : Heartbeat} {m : μ} {s : σ}

include hserver

/-! ## Answers of the server -/

theorem serve_getSecret {key : NamespacedName} {secret : Secret}
    (h : server.secrets s key = some secret) :
    server.serve m s (.getSecret key) = (.ok secret, s) := by
  rw [hserver.getSecret, h]
  rfl

theorem serve_getSecret_none {key : NamespacedName} (h : server.secrets s key = none) :
    server.serve m s (.getSecret key) = (.error .notFound, s) := by
  rw [hserver.getSecret, h]
  rfl

theorem serve_now (m : μ) (s : σ) :
    server.serve m s .now = ((server.serve m s .now).1, s) :=
  Prod.ext rfl (hserver.now m s)

theorem reads_publishSpec (m : μ) (s : σ) (msg : SpecUpdate) :
    Reads (server.serve m) (publishSpec msg) s (.ok ()) [msg] := by
  have hserve := hserver.publishSpec m s msg
  refine ⟨⟨?_, rfl⟩, ?_⟩
  · simp only [publishSpec, Program.exec, hserve]
  · intro request hmem
    rw [List.mem_singleton.mp hmem]
    rfl

omit hserver

/-! ## The token -/

/-- The Secret that the operator generates for a Heartbeat. -/
def generatedKey (beat : Heartbeat) : NamespacedName := ⟨beat.ns, generatedSecretName beat.name⟩

/-- The Secret as `CreateOrUpdate` hands it to its callback. -/
def current (beat : Heartbeat) (secrets : NamespacedName → Option Secret) : Secret :=
  (secrets (generatedKey beat)).getD ⟨0, ∅, none⟩

/-- The generated Secret has no token, and the controller of the Heartbeat cannot be set. -/
structure Refused (kube : Kube) (owner : OwnerReference) (secret : Secret) (err : String) :
    Prop where
  empty : secret.token = []
  refused : kube.setControllerReference owner secret.controller = .error err

def writeError (beat : Heartbeat) (err : String) : TokenError :=
  ⟨reasonTokenMissing, "writing Secret " ++ quoted (generatedSecretName beat.name) ++ ": " ++ err⟩

/-- What `adoptToken` returns for the Secret that the user brought. -/
def adopted (quoteRune : GoString → String) (beat : Heartbeat)
    (secrets : NamespacedName → Option Secret) (ref : TokenSecretRef) :
    Except TokenError GoString :=
  match secrets ⟨beat.ns, ref.name⟩ with
  | none => .error ⟨reasonTokenMissing, "Secret " ++ quoted ref.name ++ " not found"⟩
  | some secret =>
      adoptedToken quoteRune ref.name (if ref.key = "" then tokenSecretKey else ref.key) secret

/-- The token of the Heartbeat is in the generated Secret. -/
def Provisioned (beat : Heartbeat) (secrets : NamespacedName → Option Secret)
    (token : GoString) : Prop :=
  ∃ secret, secrets (generatedKey beat) = some secret ∧ secret.token = token ∧ token ≠ []

/-- The Secrets answer for the token of the Heartbeat, without a write. -/
def Answers (quoteRune : GoString → String) (r : HeartbeatReconciler) (beat : Heartbeat)
    (secrets : NamespacedName → Option Secret)
    (result : Except TokenError (GoString × String)) : Prop :=
  match beat.spec.tokenSecretRef with
  | some ref => result = (adopted quoteRune beat secrets ref).map fun token => (token, ref.name)
  | none =>
      (∃ token, Provisioned beat secrets token ∧
        result = .ok (token, generatedSecretName beat.name)) ∨
      ∃ err, Refused r.kube (owner beat) (current beat secrets) err ∧
        result = .error (writeError beat err)

theorem mutateToken_refused {secret : Secret} {err : String}
    (h : Refused r.kube (owner beat) secret err) (candidate : GoString) :
    mutateToken r beat candidate secret = .error err := by
  have hrefused : ∀ url, ((secret.set tokenSecretKey candidate).set urlSecretKey
      url).setControllerReference r.kube (owner beat) = .error err := by
    intro url
    have hcontroller : ((secret.set tokenSecretKey candidate).set urlSecretKey url).controller =
        secret.controller := rfl
    rw [Secret.setControllerReference, hcontroller, h.refused]
  simp [mutateToken, h.empty, hrefused]

/-- A Secret without a token gets the candidate, unless it is refused. -/
theorem mutateToken_ok {secret : Secret} (hempty : secret.token = [])
    (h : ∀ err, ¬ Refused r.kube (owner beat) secret err) (candidate : GoString) :
    ∃ secret', mutateToken r beat candidate secret = .ok (secret', candidate) := by
  cases hset : r.kube.setControllerReference (owner beat) secret.controller with
  | error err => exact absurd ⟨hempty, hset⟩ (h err)
  | ok controller =>
      obtain ⟨secret', hok⟩ : ∃ secret', ((secret.set tokenSecretKey candidate).set urlSecretKey
          (r.pingURL candidate)).setControllerReference r.kube (owner beat) = .ok secret' := by
        have hcontroller : ((secret.set tokenSecretKey candidate).set urlSecretKey
            (r.pingURL candidate)).controller = secret.controller := rfl
        rw [Secret.setControllerReference, hcontroller, hset]
        exact ⟨_, rfl⟩
      exact ⟨secret', by simp [mutateToken, hempty, hok]⟩

theorem provisioned_of_wrote {s s' : σ} {secret : Secret} {token : GoString}
    (h : server.Wrote s s' (generatedKey beat) secret) (htoken : secret.token = token)
    (hne : token ≠ []) : Provisioned beat (server.secrets s') token := by
  obtain ⟨version, hsecret⟩ := h.secret
  exact ⟨_, hsecret, htoken, hne⟩

theorem answers_of_provisioned {secrets : NamespacedName → Option Secret} {token : GoString}
    (href : beat.spec.tokenSecretRef = none) (h : Provisioned beat secrets token) :
    Answers quoteRune r beat secrets (.ok (token, generatedSecretName beat.name)) := by
  rw [Answers, href]
  exact .inl ⟨token, h, rfl⟩

include hserver

theorem reads_adoptToken (ref : TokenSecretRef) :
    Reads (server.serve m) (adoptToken quoteRune beat.ns ref) s
      (adopted quoteRune beat (server.secrets s) ref) [] := by
  unfold adopted adoptToken
  cases hlookup : server.secrets s ⟨beat.ns, ref.name⟩ with
  | none => exact .call (serve_getSecret_none hserver hlookup) rfl rfl (.done _)
  | some secret => exact .call (serve_getSecret hserver hlookup) rfl rfl (.done _)

/-- The mint fails before it writes. -/
theorem reads_mintToken_refused (hr : r.ReadsModifiesWrites) {err : String}
    (h : Refused r.kube (owner beat) (current beat (server.secrets s)) err) :
    Reads (server.serve m) (mintToken r beat) s (.error (writeError beat err)) [] := by
  obtain ⟨buf, hrandom⟩ := hserver.randRead m s
  have hwrite : Reads (server.serve m)
      (readModifyWrite (generatedKey beat) ⟨0, ∅, none⟩ (mutateToken r beat (newToken buf))) s
      (.error err) [] := by
    unfold current at h
    cases hlookup : server.secrets s (generatedKey beat) with
    | none =>
        rw [hlookup] at h
        have hmutate := mutateToken_refused h (newToken buf)
        refine .call (serve_getSecret_none hserver hlookup) rfl rfl ?_
        simp only [Option.getD_none] at hmutate
        simp only [hmutate]
        exact .done _
    | some secret =>
        rw [hlookup] at h
        have hmutate := mutateToken_refused h (newToken buf)
        refine .call (serve_getSecret hserver hlookup) rfl rfl ?_
        simp only [Option.getD_some] at hmutate
        simp only [hmutate]
        exact .done _
  rw [ReadsModifiesWrites] at hr
  simp only [mintToken, hr]
  exact .call hrandom rfl rfl (hwrite.bind (.done _))

/-- What the Secrets answer is what `resolveToken` returns, and it writes nothing. -/
theorem reads_resolveToken (hr : r.ReadsModifiesWrites)
    {result : Except TokenError (GoString × String)}
    (h : Answers quoteRune r beat (server.secrets s) result) :
    Reads (server.serve m) (resolveToken quoteRune r beat) s result [] := by
  unfold Answers at h
  unfold resolveToken
  cases href : beat.spec.tokenSecretRef with
  | some ref =>
      simp only [href] at h ⊢
      rw [h]
      refine (reads_adoptToken hserver ref).bind ?_
      cases adopted quoteRune beat (server.secrets s) ref with
      | error err => exact .done _
      | ok token => exact .done _
  | none =>
      simp only [href] at h ⊢
      rcases h with ⟨token, ⟨secret, hlookup, rfl, hne⟩, rfl⟩ | ⟨err, hrefused, rfl⟩
      · refine .call (serve_getSecret hserver hlookup) rfl rfl ?_
        simp only [if_pos hne]
        exact .done _
      · have hmint := reads_mintToken_refused hserver (m := m) hr hrefused
        cases hlookup : server.secrets s (generatedKey beat) with
        | none => exact .call (serve_getSecret_none hserver hlookup) rfl rfl hmint
        | some secret =>
            refine .call (serve_getSecret hserver hlookup) rfl rfl ?_
            have hempty : ¬ secret.token ≠ [] := by
              have := hrefused.empty
              rw [current, hlookup] at this
              exact not_not.mpr this
            simp only [if_neg hempty]
            exact hmint

/-- A Secret without a token is written, unless the server does not take it. -/
theorem readModifyWrite_cases {candidate : GoString}
    (htrim : GoString.trimSpace candidate = candidate) (hne : candidate ≠ [])
    (hempty : (current beat (server.secrets s)).token = [])
    (hfree : ∀ err, ¬ Refused r.kube (owner beat) (current beat (server.secrets s)) err) :
    (∃ s', Runs (server.serve m) (readModifyWrite (generatedKey beat) ⟨0, ∅, none⟩
        (mutateToken r beat candidate)) s (.ok candidate) s' [] ∧
      server.beats s' = server.beats s ∧ Provisioned beat (server.secrets s') candidate) ∨
    Failed (server.serve m) (readModifyWrite (generatedKey beat) ⟨0, ∅, none⟩
      (mutateToken r beat candidate)) s := by
  obtain ⟨secret', hmutate⟩ := mutateToken_ok hempty hfree candidate
  obtain ⟨-, -, htoken, -⟩ := TokenAgreement.mutateToken_spec htrim hne hmutate
  cases hlookup : server.secrets s (generatedKey beat) with
  | none =>
      simp only [current, hlookup, Option.getD_none] at hmutate
      rcases hserve : server.serve m s (.createSecret (generatedKey beat) secret') with
        ⟨err | _, s'⟩
      · refine .inr (.call (serve_getSecret_none hserver hlookup) ?_)
        simp only [hmutate]
        exact .write rfl hserve rfl
      · have hwrote := hserver.createSecret m s s' _ _ hserve
        refine .inl ⟨s', .call (serve_getSecret_none hserver hlookup) rfl ?_, hwrote.beats,
          provisioned_of_wrote hwrote htoken hne⟩
        simp only [hmutate]
        exact .call hserve rfl (.done _)
  | some secret =>
      simp only [current, hlookup, Option.getD_some] at hmutate hempty
      have hchanged : secret' ≠ secret := by
        rintro rfl
        exact hne (htoken.symm.trans hempty)
      rcases hserve : server.serve m s (.updateSecret (generatedKey beat) secret') with
        ⟨err | _, s'⟩
      · refine .inr (.call (serve_getSecret hserver hlookup) ?_)
        simp only [hmutate, if_neg hchanged]
        exact .write rfl hserve rfl
      · have hwrote := hserver.updateSecret m s s' _ _ hserve
        refine .inl ⟨s', .call (serve_getSecret hserver hlookup) rfl ?_, hwrote.beats,
          provisioned_of_wrote hwrote htoken hne⟩
        simp only [hmutate, if_neg hchanged]
        exact .call hserve rfl (.done _)

theorem mintToken_cases (hr : r.ReadsModifiesWrites)
    (hempty : (current beat (server.secrets s)).token = [])
    (hfree : ∀ err, ¬ Refused r.kube (owner beat) (current beat (server.secrets s)) err) :
    (∃ token s', Runs (server.serve m) (mintToken r beat) s
        (.ok (token, generatedSecretName beat.name)) s' [] ∧
      server.beats s' = server.beats s ∧ Provisioned beat (server.secrets s') token) ∨
    Failed (server.serve m) (mintToken r beat) s := by
  obtain ⟨buf, hrandom⟩ := hserver.randRead m s
  obtain ⟨htrim, hne⟩ := TokenAgreement.newToken_trim buf
  rw [ReadsModifiesWrites] at hr
  simp only [mintToken, hr]
  rcases readModifyWrite_cases hserver (m := m) htrim hne hempty hfree with
    ⟨s', hruns, hrest⟩ | hfailed
  · exact .inl ⟨newToken buf, s', .call hrandom rfl (hruns.bind (.done _)), hrest⟩
  · exact .inr (.call hrandom (hfailed.bind fun err => ⟨_, rfl⟩))

/-- The Secrets have an answer, or one call gives them one, or a write of a Secret has
failed. -/
theorem resolveToken_cases (quoteRune : GoString → String) (hr : r.ReadsModifiesWrites)
    (beat : Heartbeat) (m : μ) (s : σ) :
    (∃ result, Answers quoteRune r beat (server.secrets s) result) ∨
    (∃ token secretName s',
      Runs (server.serve m) (resolveToken quoteRune r beat) s (.ok (token, secretName)) s' [] ∧
      server.beats s' = server.beats s ∧
      Answers quoteRune r beat (server.secrets s') (.ok (token, secretName))) ∨
    Failed (server.serve m) (resolveToken quoteRune r beat) s := by
  by_cases hanswers : ∃ result, Answers quoteRune r beat (server.secrets s) result
  · exact .inl hanswers
  · right
    -- the Heartbeat has no Secret of its own, and the generated one has no token
    have href : beat.spec.tokenSecretRef = none := by
      by_contra href
      obtain ⟨ref, href⟩ := Option.ne_none_iff_exists'.mp href
      refine hanswers ⟨(adopted quoteRune beat (server.secrets s) ref).map fun token =>
        (token, ref.name), ?_⟩
      rw [Answers, href]
    have htoken : ∀ secret, server.secrets s (generatedKey beat) = some secret →
        ¬ secret.token ≠ [] := fun secret hlookup hne =>
      hanswers ⟨_, answers_of_provisioned href ⟨secret, hlookup, rfl, hne⟩⟩
    have hempty : (current beat (server.secrets s)).token = [] := by
      unfold current
      cases hlookup : server.secrets s (generatedKey beat) with
      | none => rfl
      | some secret => exact not_not.mp (htoken secret hlookup)
    have hfree : ∀ err, ¬ Refused r.kube (owner beat) (current beat (server.secrets s)) err := by
      intro err hrefused
      refine hanswers ⟨.error (writeError beat err), ?_⟩
      rw [Answers, href]
      exact .inr ⟨err, hrefused, rfl⟩
    have hmint := mintToken_cases hserver (m := m) hr hempty hfree
    unfold resolveToken
    simp only [href]
    cases hlookup : server.secrets s (generatedKey beat) with
    | none =>
        have hget := serve_getSecret_none hserver (m := m) hlookup
        rcases hmint with ⟨token, s', hruns, hbeats, hprovisioned⟩ | hfailed
        · exact .inl ⟨token, _, s', .call hget rfl hruns, hbeats,
            answers_of_provisioned href hprovisioned⟩
        · exact .inr (.call hget hfailed)
    | some secret =>
        have hget := serve_getSecret hserver (m := m) hlookup
        rcases hmint with ⟨token, s', hruns, hbeats, hprovisioned⟩ | hfailed
        · refine .inl ⟨token, _, s', .call hget rfl ?_, hbeats,
            answers_of_provisioned href hprovisioned⟩
          simp only [if_neg (htoken secret hlookup)]
          exact hruns
        · refine .inr (.call hget ?_)
          simp only [if_neg (htoken secret hlookup)]
          exact hfailed

/-! ## The URL and the status -/

omit hserver

/-- The `url` key of a generated Secret is current. -/
def Synced (beat : Heartbeat) (secretName : String) (url : GoString)
    (secrets : NamespacedName → Option Secret) : Prop :=
  beat.spec.tokenSecretRef = none → url ≠ [] →
    ∃ secret, secrets ⟨beat.ns, secretName⟩ = some secret ∧ secret.get urlSecretKey = url

include hserver

theorem reads_syncSecretURL {secretName : String} {url : GoString}
    (h : Synced beat secretName url (server.secrets s)) :
    Reads (server.serve m) (syncSecretURL beat secretName url) s (.ok ()) [] := by
  unfold syncSecretURL
  split
  · exact .done _
  · rename_i hneeded
    simp only [not_or, not_not] at hneeded
    obtain ⟨secret, hlookup, hurl⟩ := h hneeded.1 hneeded.2
    refine .call (serve_getSecret hserver hlookup) rfl rfl ?_
    simp only [if_pos hurl]
    exact .done _

/-- The token stays where it is when its URL is written. -/
theorem syncSecretURL_cases (m : μ) (url : GoString) {token : GoString} {secretName : String}
    (h : Answers quoteRune r beat (server.secrets s) (.ok (token, secretName))) :
    (∃ s', Runs (server.serve m) (syncSecretURL beat secretName url) s (.ok ()) s' [] ∧
      server.beats s' = server.beats s ∧
      Answers quoteRune r beat (server.secrets s') (.ok (token, secretName)) ∧
      Synced beat secretName url (server.secrets s')) ∨
    ∃ err s', Runs (server.serve m) (syncSecretURL beat secretName url) s (.error err) s' [] := by
  by_cases hsynced : Synced beat secretName url (server.secrets s)
  · exact .inl ⟨s, (reads_syncSecretURL hserver hsynced).toRuns, rfl, h, hsynced⟩
  · simp only [Synced, not_forall] at hsynced
    obtain ⟨href, hurl, hstale⟩ := hsynced
    rw [Answers, href] at h
    rcases h with ⟨token', ⟨secret, hlookup, htoken, hne⟩, hresult⟩ | ⟨err, -, hresult⟩
    · cases hresult
      have hold : secret.get urlSecretKey ≠ url := fun heq => hstale ⟨secret, hlookup, heq⟩
      have hkept : (secret.set urlSecretKey url).token = secret.token :=
        TokenAgreement.token_congr (TokenAgreement.get_set_of_ne _ _ (by decide))
      have hneeded : ¬ (beat.spec.tokenSecretRef ≠ none ∨ url = []) := by simp [href, hurl]
      have hget := serve_getSecret hserver (m := m) hlookup
      rw [syncSecretURL, if_neg hneeded]
      rcases hserve : server.serve m s (.patchSecret (generatedKey beat) url) with ⟨err | _, s'⟩
      · refine .inr ⟨err, s', .call hget rfl ?_⟩
        simp only [if_neg hold]
        exact .call hserve rfl (.done _)
      · have hwrote := hserver.patchSecret m s s' _ _ hserve secret hlookup
        refine .inl ⟨s', .call hget rfl ?_, hwrote.beats, ?_, fun _ _ => ?_⟩
        · simp only [if_neg hold]
          exact .call hserve rfl (.done _)
        · exact answers_of_provisioned href
            (provisioned_of_wrote hwrote (hkept.trans htoken) hne)
        · obtain ⟨version, hsecret⟩ := hwrote.secret
          exact ⟨_, hsecret, TokenAgreement.get_set_self secret urlSecretKey url⟩
    · cases hresult

omit hserver

/-- What the controller compares, and the two fields that it does not write. -/
theorem status_eq_of_unchanged {status status' : HeartbeatStatus}
    (h : heartbeatStatusChanged status status' = false)
    (htime : status'.lastPingTime = status.lastPingTime)
    (hresult : status'.lastResult = status.lastResult) : status' = status := by
  obtain ⟨generation, conditions, url, secretName, time, result⟩ := status
  obtain ⟨generation', conditions', url', secretName', time', result'⟩ := status'
  simp only [heartbeatStatusChanged, probeStatusChanged] at h
  simp_all

theorem reads_patchStatus {status : HeartbeatStatus}
    (h : heartbeatStatusChanged beat.status status = false) :
    Reads (server.serve m) (patchStatus beat status) s (.ok ()) [] := by
  rw [patchStatus, if_neg (by simp [h])]
  exact .done _

include hserver

/-- After a patch that succeeds the status is the one that was asked for, whether there was
one or not. -/
theorem patchStatus_cases (m : μ) (status : HeartbeatStatus)
    (hlookup : server.beats s ⟨beat.ns, beat.name⟩ = some beat)
    (htime : status.lastPingTime = beat.status.lastPingTime)
    (hresult : status.lastResult = beat.status.lastResult) :
    (∃ s' stored, Runs (server.serve m) (patchStatus beat status) s (.ok ()) s' [] ∧
      server.secrets s' = server.secrets s ∧ SameStatus status stored ∧
      server.beats s' ⟨beat.ns, beat.name⟩ = some { beat with status := stored }) ∨
    ∃ err s', Runs (server.serve m) (patchStatus beat status) s (.error err) s' [] := by
  cases hchanged : heartbeatStatusChanged beat.status status with
  | true =>
      rw [patchStatus, if_pos hchanged]
      rcases hserve : server.serve m s (.patchStatus ⟨beat.ns, beat.name⟩ status) with
        ⟨err | _, s'⟩
      · exact .inr ⟨err, s', .call hserve rfl (.done _)⟩
      · obtain ⟨hsecrets, stored, hsame, hstored⟩ :=
          hserver.patchStatus m s s' _ _ hserve beat hlookup
        exact .inl ⟨s', stored, .call hserve rfl (.done _), hsecrets, hsame, hstored⟩
  | false =>
      have hsame := status_eq_of_unchanged hchanged htime hresult
      refine .inl ⟨s, beat.status, (reads_patchStatus hchanged).toRuns, rfl, ?_, hlookup⟩
      rw [hsame]
      exact .refl _

/-! ## Reconcile -/

theorem reads_reconcileGone (m : μ) (s : σ) (key : NamespacedName) :
    Reads (server.serve m) (reconcileGone key) s (.ok 0)
      [tombstone .heartbeat key.ns key.name] :=
  (reads_publishSpec hserver m s _).bind (.done _)

/-- What a settled call returns and publishes, and the status that it has left. -/
structure Settles (server : HeartbeatServer σ μ) (quoteRune : GoString → String)
    (r : HeartbeatReconciler) (beat : Heartbeat) (m : μ) (s s' : σ) (d : Duration)
    (msg : SpecUpdate) : Prop where
  first : Runs (server.serve m) (reconcileBeat quoteRune r beat) s (.ok d) s' [msg]
  second : ∃ stored,
    server.beats s' ⟨beat.ns, beat.name⟩ = some { beat with status := stored } ∧
    ∀ m', Reads (server.serve m') (reconcileBeat quoteRune r { beat with status := stored }) s'
      (.ok d) [msg]

variable (hr : r.ReadsModifiesWrites) (hkube : r.kube.SetsConditions)

include hr hkube

/-- Once a token was resolved, a call that succeeds leaves everything as the next one wants
it. -/
theorem settles_ready {token : GoString} {secretName : String} {s₁ s' : σ} {d : Duration}
    (hlookup : server.beats s ⟨beat.ns, beat.name⟩ = some beat)
    (hresolve : Runs (server.serve m) (resolveToken quoteRune r beat) s (.ok (token, secretName))
      s₁ [])
    (hbeats : server.beats s₁ = server.beats s)
    (hanswers : Answers quoteRune r beat (server.secrets s₁) (.ok (token, secretName)))
    (hfirst : (reconcileBeat quoteRune r beat).exec (server.serve m) s = (.ok d, s')) :
    ∃ msg, Settles server quoteRune r beat m s s' d msg := by
  have hnow := serve_now hserver m s
  have hpublish := fun s => reads_publishSpec hserver m s (heartbeatSpecUpdate beat token)
  simp only [reconcileBeat, Program.exec, hserver.now, Program.exec_bind, hresolve.exec] at hfirst
  rcases syncSecretURL_cases hserver m (r.pingURL token) hanswers with
    ⟨s₂, hsync, hbeats₂, hanswers₂, hsynced⟩ | ⟨err, s₂, hsync⟩
  · rw [hsync.exec] at hfirst
    simp only [Program.exec_bind, (hpublish s₂).exec] at hfirst
    have hlookup₂ : server.beats s₂ ⟨beat.ns, beat.name⟩ = some beat := by
      rw [hbeats₂, hbeats, hlookup]
    rcases patchStatus_cases hserver m (readyStatus r.kube beat (server.serve m s .now).1
        (r.pingURL token) secretName) hlookup₂ rfl rfl with
      ⟨s₃, stored, hpatch, hsecrets, hsame, hstored⟩ | ⟨err, s₃, hpatch⟩
    · rw [hpatch.exec] at hfirst
      cases hfirst
      refine ⟨heartbeatSpecUpdate beat token, ?_, stored, hstored, fun m' => ?_⟩
      · refine .call hnow rfl (hresolve.bind (hsync.bind ?_))
        exact (hpublish s₂).toRuns.bind (hpatch.bind (.done _))
      · have hanswers₃ : Answers quoteRune r { beat with status := stored } (server.secrets s₃)
            (.ok (token, secretName)) := by
          rw [hsecrets]
          exact hanswers₂
        have hsynced₃ : Synced { beat with status := stored } secretName (r.pingURL token)
            (server.secrets s₃) := by
          rw [hsecrets]
          exact hsynced
        have hmsg : heartbeatSpecUpdate { beat with status := stored } token =
            heartbeatSpecUpdate beat token := by
          simp only [heartbeatSpecUpdate, hsame.lastPingTime, hsame.lastResult]
          rfl
        refine .call (serve_now hserver m' s₃) rfl rfl
          ((reads_resolveToken hserver hr hanswers₃).bind ?_)
        refine (reads_syncSecretURL hserver hsynced₃).bind ?_
        rw [hmsg]
        refine (reads_publishSpec hserver m' s₃ _).bind ?_
        exact (reads_patchStatus (readyStatus_unchanged hkube beat _ _ _ _ hsame)).bind (.done _)
    · rw [hpatch.exec] at hfirst
      cases hfirst
  · rw [hsync.exec] at hfirst
    cases hfirst

@[inherit_doc settles_ready]
theorem settles_failed {err : TokenError} {s' : σ} {d : Duration}
    (hlookup : server.beats s ⟨beat.ns, beat.name⟩ = some beat)
    (hanswers : Answers quoteRune r beat (server.secrets s) (.error err))
    (hfirst : (reconcileBeat quoteRune r beat).exec (server.serve m) s = (.ok d, s')) :
    ∃ msg, Settles server quoteRune r beat m s s' d msg := by
  have hnow := serve_now hserver m s
  have hresolve := reads_resolveToken hserver (m := m) hr hanswers
  have hpublish := reads_publishSpec hserver m s (tombstone .heartbeat beat.ns beat.name)
  simp only [reconcileBeat, Program.exec, hserver.now, Program.exec_bind, hresolve.exec,
    hpublish.exec] at hfirst
  rcases patchStatus_cases hserver m (failedStatus r.kube beat (server.serve m s .now).1 err)
      hlookup rfl rfl with
    ⟨s₁, stored, hpatch, hsecrets, hsame, hstored⟩ | ⟨err, s₁, hpatch⟩
  · rw [hpatch.exec] at hfirst
    cases hfirst
    refine ⟨tombstone .heartbeat beat.ns beat.name, ?_, stored, hstored, fun m' => ?_⟩
    · refine .call hnow rfl (hresolve.toRuns.bind ?_)
      exact hpublish.toRuns.bind (hpatch.bind (.done _))
    · have hanswers₁ : Answers quoteRune r { beat with status := stored } (server.secrets s₁)
          (.error err) := by
        rw [hsecrets]
        exact hanswers
      refine .call (serve_now hserver m' s₁) rfl rfl
        ((reads_resolveToken hserver hr hanswers₁).bind ?_)
      refine (reads_publishSpec hserver m' s₁ _).bind ?_
      exact (reads_patchStatus (failedStatus_unchanged hkube beat _ _ _ hsame)).bind (.done _)
  · rw [hpatch.exec] at hfirst
    cases hfirst

/-- A call that succeeds settles the Heartbeat, unless it asked in vain for a write of the
Secret: that makes it return a delay. -/
theorem reconcileBeat_settles {s' : σ} {d : Duration}
    (hlookup : server.beats s ⟨beat.ns, beat.name⟩ = some beat)
    (hfirst : (reconcileBeat quoteRune r beat).exec (server.serve m) s = (.ok d, s'))
    (hwritten : d = 0 ∨ ∀ request ∈ (reconcileBeat quoteRune r beat).sent (server.serve m) s,
      request.writesSecret = false) :
    ∃ msg, Settles server quoteRune r beat m s s' d msg := by
  rcases resolveToken_cases hserver quoteRune hr beat m s with
    ⟨result, hanswers⟩ | ⟨token, secretName, s₁, hresolve, hbeats, hanswers⟩ | hfailed
  · cases result with
    | error err => exact settles_failed hserver hr hkube hlookup hanswers hfirst
    | ok value =>
        exact settles_ready hserver hr hkube hlookup
          (reads_resolveToken hserver hr hanswers).toRuns rfl hanswers hfirst
  · exact settles_ready hserver hr hkube hlookup hresolve hbeats hanswers hfirst
  · exfalso
    rcases hwritten with rfl | hsilent
    · obtain ⟨err, s₁, hexec⟩ := hfailed.exec
      have hpublish := reads_publishSpec hserver m s₁ (tombstone .heartbeat beat.ns beat.name)
      simp only [reconcileBeat, Program.exec, hserver.now, Program.exec_bind, hexec,
        hpublish.exec] at hfirst
      split at hfirst
      · cases hfirst
      · cases hfirst
    · obtain ⟨tried, hmem, hwrites⟩ := hfailed.tried
      have hsent : tried ∈ (reconcileBeat quoteRune r beat).sent (server.serve m) s := by
        simp only [reconcileBeat, Program.sent, hserver.now, Program.sent_bind]
        exact .tail _ (List.mem_append_left _ hmem)
      rw [hsilent tried hsent] at hwrites
      cases hwrites

end Server

/-- A `Reconcile` succeeds, and it returns no delay or has asked for no write of a Secret.
Then the next one, at any moment, returns the same, leaves everything as it is without a
single write and publishes the same message. -/
theorem second_reconcile_reads (quoteRune : GoString → String) (r : HeartbeatReconciler)
    (hr : r.ReadsModifiesWrites) (hkube : r.kube.SetsConditions) {σ μ : Type}
    (server : HeartbeatServer σ μ) (hserver : server.Lawful) (key : NamespacedName)
    (moment moment' : μ) (s s' : σ) (d : Duration)
    (hfirst : (reconcile quoteRune r key).exec (server.serve moment) s = (.ok d, s'))
    (hwritten : d = 0 ∨ ∀ request ∈ (reconcile quoteRune r key).sent (server.serve moment) s,
      request.writesSecret = false) :
    (reconcile quoteRune r key).exec (server.serve moment') s' = (.ok d, s') ∧
    (∃ msg, ((reconcile quoteRune r key).sent (server.serve moment) s).filterMap
        HeartbeatRequest.message = [msg] ∧
      ((reconcile quoteRune r key).sent (server.serve moment') s').filterMap
        HeartbeatRequest.message = [msg]) ∧
    ∀ request ∈ (reconcile quoteRune r key).sent (server.serve moment') s',
      request.writes = false := by
  suffices hsettled : ∃ msg, Runs (server.serve moment) (reconcile quoteRune r key) s (.ok d) s'
      [msg] ∧ Reads (server.serve moment') (reconcile quoteRune r key) s' (.ok d) [msg] by
    obtain ⟨msg, hruns, hreads⟩ := hsettled
    exact ⟨hreads.exec, ⟨msg, hruns.published, hreads.published⟩, hreads.silent⟩
  have hget (m : μ) (s : σ) := hserver.getHeartbeat m s key
  cases hlookup : server.beats s key with
  | none =>
      have hgone (m : μ) : Reads (server.serve m) (reconcile quoteRune r key) s (.ok 0)
          [tombstone .heartbeat key.ns key.name] := by
        refine .call ((hget m s).trans (by rw [hlookup])) rfl rfl ?_
        exact reads_reconcileGone hserver m s key
      cases (hgone moment).exec.symm.trans hfirst
      exact ⟨_, (hgone moment).toRuns, hgone moment'⟩
  | some beat =>
      obtain rfl := hserver.keyed s key beat hlookup
      have hread (m : μ) : server.serve m s (.getHeartbeat ⟨beat.ns, beat.name⟩) =
          (.ok beat, s) := by
        rw [hget m s, hlookup]
        rfl
      cases hdeleting : beat.deleting with
      | true =>
          have hgone (m : μ) : Reads (server.serve m)
              (reconcile quoteRune r ⟨beat.ns, beat.name⟩) s (.ok 0)
              [tombstone .heartbeat beat.ns beat.name] := by
            refine .call (hread m) rfl rfl ?_
            simp only [hdeleting, if_true]
            exact reads_reconcileGone hserver m s _
          cases (hgone moment).exec.symm.trans hfirst
          exact ⟨_, (hgone moment).toRuns, hgone moment'⟩
      | false =>
          simp only [reconcile, Program.exec, Program.sent, hread, hdeleting, Bool.false_eq_true,
            if_false] at hfirst hwritten
          obtain ⟨msg, hruns, stored, hstored, hreads⟩ := reconcileBeat_settles hserver hr hkube
            hlookup hfirst (hwritten.imp_right fun h request hmem => h request (.tail _ hmem))
          have hkept : ({ beat with status := stored } : Heartbeat).deleting = false := hdeleting
          refine ⟨msg, .call (hread moment) rfl ?_, .call ((hget moment' s').trans
            (by rw [hstored])) rfl rfl ?_⟩
          · simp only [hdeleting, Bool.false_eq_true, if_false]
            exact hruns
          · simp only [found, hkept, Bool.false_eq_true, if_false]
            exact hreads moment'

/-- A Heartbeat without a Secret, on a cluster with nothing else. -/
def fresh : HeartbeatCluster where
  beats := Finmap.singleton ⟨"default", "report"⟩ TokenAgreement.report
  secrets := ∅
  keyed key beat h := by
    by_cases hkey : key = ⟨"default", "report"⟩
    · subst hkey
      rw [Finmap.lookup_singleton_eq] at h
      cases h
      rfl
    · rw [Finmap.lookup_eq_none.mpr (by simpa using hkey)] at h
      cases h

/-- The first call mints a token, writes its Secret and the status; a minute later there is
nothing left to write. -/
theorem second_reconcile_reads_report :
    let serve (seconds : Int) :=
      HeartbeatCluster.server.serve ⟨⟨seconds * 1000000000⟩, .replicate _ 7, []⟩
    let program := reconcile (fun _ => "") TokenAgreement.plain ⟨"default", "report"⟩
    (program.sent (serve 0) fresh).countP HeartbeatRequest.writes = 2 ∧
      (program.sent (serve 60) (program.exec (serve 0) fresh).2).countP
        HeartbeatRequest.writes = 0 := by
  intro serve program
  have hfirst : (program.exec (serve 0) fresh).1 = .ok 0 := by decide +kernel
  have hsecond := second_reconcile_reads (fun _ => "") TokenAgreement.plain rfl
    Kube.sample_setsConditions HeartbeatCluster.server HeartbeatCluster.server_lawful
    ⟨"default", "report"⟩ ⟨⟨0 * 1000000000⟩, .replicate _ 7, []⟩
    ⟨⟨60 * 1000000000⟩, .replicate _ 7, []⟩ fresh _ 0 (Prod.ext hfirst rfl) (.inl rfl)
  refine ⟨by decide +kernel, List.countP_eq_zero.mpr fun request hmem => ?_⟩
  exact Bool.eq_false_iff.mp (hsecond.2.2 request hmem)

end SyntheticsOperator.Proofs.Quiescence
