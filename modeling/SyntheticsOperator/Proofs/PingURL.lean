import SyntheticsOperator.Controllers.HeartbeatController
import SyntheticsOperator.Proofs.Loading
import SyntheticsOperator.Proofs.PingPaths

/-!
# Published tokens and the URLs rendered for them

The receiver takes only acceptable tokens from a path.  Minting yields acceptable
tokens and `adoptToken` checks what it reads, but the token that is found in a
generated Secret is published as it stands.
-/

namespace SyntheticsOperator.Proofs.PingURL

open SyntheticsOperator.Api
open SyntheticsOperator.Controllers
open SyntheticsOperator.Controllers.HeartbeatReconciler
open SyntheticsOperator.Heartbeat
open SyntheticsOperator.Proofs.PingPaths (acceptable_of_parsePath parsePath_segment token_ne_nil)
open SyntheticsOperator.Results (SpecUpdate)
open SyntheticsOperator.Support
open SyntheticsOperator.Support.Program

/-! ## What is published -/

/-- The URL of a token leads back to the token. -/
def Leads (url token : GoString) : Prop :=
  (Urls.urlPath url).bind parsePath = some (token, ⟨false, 0⟩)

/-- A live spec is pingable at the URL of its token: a receiver that has processed it
records a request to that URL.  A URL in a status leads to some token. -/
def Pingable (r : HeartbeatReconciler) : HeartbeatRequest → Prop
  | .publishSpec msg => ∀ payload, msg.deleted = false → msg.heartbeat = some payload →
      Leads (r.pingURL payload.token) payload.token ∧
      ∀ path, Urls.urlPath (r.pingURL payload.token) = some path →
        ∀ (receiver : Receiver) (ready : Bool) (now : Time),
          (servePing (receiver.onSpec msg) ready now (fun _ => true)
            ⟨"GET", path, none⟩).response.status = 200
  | .patchStatus _ status => status.url ≠ [] → ∃ token, Leads status.url token
  | _ => True

section Origin

variable {r : HeartbeatReconciler}
  (horigin : Urls.IsOrigin (GoString.trimSuffix 0x2F (GoString.trimSpace r.baseURL)))

include horigin

theorem pingURL_path (token : GoString) :
    Urls.urlPath (r.pingURL token) = some (0x2F :: token) := by
  have hne : GoString.trimSuffix 0x2F (GoString.trimSpace r.baseURL) ≠ [] := by
    obtain ⟨scheme, authority, heq, -⟩ := horigin
    rw [heq]
    simp
  rw [pingURL]
  simp only [if_neg hne]
  exact Urls.urlPath_origin horigin token

theorem pingURL_ne_nil (token : GoString) : r.pingURL token ≠ [] := by
  intro hnil
  have hpath := pingURL_path horigin token
  rw [hnil] at hpath
  cases hpath

theorem leads_pingURL_iff (token : GoString) :
    Leads (r.pingURL token) token ↔ acceptableToken token = none := by
  rw [Leads, pingURL_path horigin token, Option.bind_some]
  exact ⟨acceptable_of_parsePath, parsePath_segment⟩

/-- A spec is pingable exactly when its token is acceptable. -/
theorem pingable_publishSpec_iff (beat : Heartbeat) (token : GoString) :
    Pingable r (.publishSpec (heartbeatSpecUpdate beat token)) ↔ acceptableToken token = none := by
  constructor
  · intro h
    exact (leads_pingURL_iff horigin token).mp (h _ rfl rfl).1
  · intro h payload _ hpayload
    cases hpayload
    refine ⟨(leads_pingURL_iff horigin token).mpr h, ?_⟩
    intro path hpath receiver ready now
    obtain rfl : 0x2F :: token = path :=
      Option.some.inj ((pingURL_path horigin token).symm.trans hpath)
    have hne := token_ne_nil h
    have hinstalled : installedToken (heartbeatSpecUpdate beat token) = some token := by
      simp [installedToken, heartbeatSpecUpdate, hne]
    have hlookup : (receiver.onSpec (heartbeatSpecUpdate beat token)).lookup token =
        some ⟨beat.ns, beat.name⟩ := by
      rw [Receiver.lookup, Tokens.onSpec_identities receiver rfl, if_pos hinstalled]
      rfl
    have hparsed : parsePath (0x2F :: token) = some (token, ⟨false, 0⟩) := parsePath_segment h
    rw [servePing_known (.inl rfl) hparsed hlookup]
    rfl

end Origin

/-! ## What the API server answers -/

/-- The Heartbeats that reads may return, and the answers that reads of each Secret may
give.  Everything else is answered freely. -/
def Allowed (beats : Set Heartbeat) (contents : NamespacedName → Set (Except GetError Secret)) :
    (request : HeartbeatRequest) → HeartbeatAnswer request → Prop
  | .getHeartbeat _, answer => ∀ beat, answer = .ok beat → beat ∈ beats
  | .listHeartbeats, answer => ∀ list, answer = .ok list → ∀ beat ∈ list, beat ∈ beats
  | .getSecret key, answer => answer ∈ contents key
  | _, _ => True

/-- The generated Secret of a Heartbeat. -/
def generatedSecret (beat : Heartbeat) : NamespacedName :=
  ⟨beat.ns, generatedSecretName beat.name⟩

/-- The generated Secret is not used, or what can be read from it is no token or an
acceptable one. -/
def Checked (contents : NamespacedName → Set (Except GetError Secret)) (beat : Heartbeat) : Prop :=
  beat.spec.tokenSecretRef = none → ∀ secret, .ok secret ∈ contents (generatedSecret beat) →
    secret.token = [] ∨ acceptableToken secret.token = none

/-! ## The token that is resolved -/

theorem acceptable_of_adoptedToken {quoteRune : GoString → String} {secretName key : String}
    {secret : Secret} {token : GoString}
    (h : adoptedToken quoteRune secretName key secret = .ok token) :
    acceptableToken token = none := by
  unfold adoptedToken at h
  simp only at h
  split at h
  · cases h
  · split at h
    · cases h
    · rename_i hacceptable
      cases h
      exact hacceptable

/-- The token is the one in the Secret, or else the candidate. -/
theorem mutateToken_token {r : HeartbeatReconciler} {beat : Heartbeat} {candidate : GoString}
    {secret secret' : Secret} {token : GoString}
    (h : mutateToken r beat candidate secret = .ok (secret', token)) :
    (secret.token ≠ [] ∧ token = secret.token) ∨ token = candidate := by
  rcases mutateToken_cases h with ⟨hexisting, htoken, -⟩ | ⟨-, htoken, -⟩
  · exact .inl ⟨hexisting, htoken⟩
  · exact .inr htoken

section Ensures

variable {beats : Set Heartbeat} {contents : NamespacedName → Set (Except GetError Secret)}
  {r : HeartbeatReconciler} {beat : Heartbeat}

/-- A successful result carries an acceptable token. -/
def Acceptable {ε β : Type} (result : Except ε (GoString × β)) : Prop :=
  ∀ token rest, result = .ok (token, rest) → acceptableToken token = none

theorem acceptable_error {ε β : Type} (err : ε) :
    Acceptable (.error err : Except ε (GoString × β)) := by
  intro token rest heq
  cases heq

theorem ensures_readModifyWrite {candidate : GoString}
    (hcandidate : acceptableToken candidate = none)
    (hchecked : ∀ secret, .ok secret ∈ contents (generatedSecret beat) →
      secret.token = [] ∨ acceptableToken secret.token = none) :
    Ensures (Allowed beats contents) (Pingable r)
      (fun result => ∀ token, result = .ok token → acceptableToken token = none)
      (readModifyWrite (generatedSecret beat) ⟨0, ∅, none⟩ (mutateToken r beat candidate)) := by
  have hmutated {secret secret' : Secret} {token : GoString}
      (hsecret : secret.token = [] ∨ acceptableToken secret.token = none)
      (h : mutateToken r beat candidate secret = .ok (secret', token)) :
      acceptableToken token = none := by
    rcases mutateToken_token h with ⟨hne, rfl⟩ | rfl
    · exact hsecret.resolve_left hne
    · exact hcandidate
  have herror (err : String) :
      ∀ token, (.error err : Except String GoString) = .ok token →
        acceptableToken token = none := by
    intro token heq
    cases heq
  have hwritten {token : GoString} (h : acceptableToken token = none) :
      ∀ token', (.ok token : Except String GoString) = .ok token' →
        acceptableToken token' = none := by
    rintro _ ⟨⟩
    exact h
  refine ⟨trivial, ?_⟩
  intro answer hanswer
  match answer with
  | .error .notFound =>
      cases hmutate : mutateToken r beat candidate ⟨0, ∅, none⟩ with
      | error err => exact herror err
      | ok result =>
          have htoken := hmutated (.inl (by decide +kernel)) hmutate
          refine ⟨trivial, ?_⟩
          intro answer' _
          cases answer' with
          | error err => exact herror err
          | ok _ => exact hwritten htoken
  | .error (.failed err) => exact herror err
  | .ok existing =>
      simp only
      cases hmutate : mutateToken r beat candidate existing with
      | error err => exact herror err
      | ok result =>
          have htoken := hmutated (hchecked existing hanswer) hmutate
          simp only
          split
          · exact hwritten htoken
          · refine ⟨trivial, ?_⟩
            intro answer' _
            cases answer' with
            | error err => exact herror err
            | ok _ => exact hwritten htoken

theorem ensures_mintToken (hr : r.ReadsModifiesWrites)
    (hchecked : ∀ secret, .ok secret ∈ contents (generatedSecret beat) →
      secret.token = [] ∨ acceptableToken secret.token = none) :
    Ensures (Allowed beats contents) (Pingable r) Acceptable (mintToken r beat) := by
  rw [ReadsModifiesWrites] at hr
  simp only [mintToken, hr]
  refine ⟨trivial, ?_⟩
  intro answer _
  cases answer with
  | error err => exact acceptable_error _
  | ok buf =>
      refine ensures_bind.mpr ((ensures_readModifyWrite (acceptableToken_newToken buf)
        hchecked).mono ?_)
      intro result hresult
      cases result with
      | error err => exact acceptable_error _
      | ok token =>
          rintro token' rest ⟨⟩
          exact hresult token rfl

theorem ensures_resolveToken (quoteRune : GoString → String) (hr : r.ReadsModifiesWrites)
    (hchecked : Checked contents beat) :
    Ensures (Allowed beats contents) (Pingable r) Acceptable (resolveToken quoteRune r beat) := by
  unfold resolveToken
  cases href : beat.spec.tokenSecretRef with
  | some ref =>
      refine ensures_bind.mpr ⟨trivial, ?_⟩
      intro answer _
      match answer with
      | .error .notFound => exact acceptable_error _
      | .error (.failed err) => exact acceptable_error _
      | .ok secret =>
          rw [ensures_done]
          split
          · exact acceptable_error _
          · rename_i token hadopted
            rintro token' rest ⟨⟩
            exact acceptable_of_adoptedToken hadopted
  | none =>
      refine ⟨trivial, ?_⟩
      intro answer hanswer
      match answer with
      | .ok secret =>
          simp only
          split
          · rename_i hne
            rintro token rest ⟨⟩
            exact (hchecked href secret hanswer).resolve_left hne
          · exact ensures_mintToken hr (hchecked href)
      | .error .notFound => exact ensures_mintToken hr (hchecked href)
      | .error (.failed err) => exact acceptable_error _

theorem ensures_syncSecretURL (secretName : String) (url : GoString) :
    Ensures (Allowed beats contents) (Pingable r) (fun _ => True)
      (syncSecretURL beat secretName url) := by
  unfold syncSecretURL
  split
  · trivial
  · refine ⟨trivial, ?_⟩
    intro answer _
    match answer with
    | .error .notFound => trivial
    | .error (.failed err) => trivial
    | .ok secret =>
        simp only
        split
        · trivial
        · exact ⟨trivial, fun _ _ => trivial⟩

theorem ensures_patchStatus {status : HeartbeatStatus}
    (hstatus : Pingable r (.patchStatus ⟨beat.ns, beat.name⟩ status)) :
    Ensures (Allowed beats contents) (Pingable r) (fun _ => True) (patchStatus beat status) := by
  unfold patchStatus
  split
  · exact ⟨hstatus, fun _ _ => trivial⟩
  · trivial

theorem pingable_tombstone (ns name : String) :
    Pingable r (.publishSpec (tombstone .heartbeat ns name)) := by
  intro payload hdeleted
  cases hdeleted

end Ensures

/-! ## The two publishers -/

section Publishers

variable {beats : Set Heartbeat} {contents : NamespacedName → Set (Except GetError Secret)}
  {r : HeartbeatReconciler} {beat : Heartbeat} (quoteRune : GoString → String)
  (horigin : Urls.IsOrigin (GoString.trimSuffix 0x2F (GoString.trimSpace r.baseURL)))

theorem ensures_reconcileGone (key : NamespacedName) :
    Ensures (Allowed beats contents) (Pingable r) (fun _ => True) (reconcileGone key) := by
  refine ⟨pingable_tombstone key.ns key.name, ?_⟩
  intro answer _
  cases answer <;> trivial

include horigin

theorem ensures_reconcileBeat (hr : r.ReadsModifiesWrites) (hchecked : Checked contents beat) :
    Ensures (Allowed beats contents) (Pingable r) (fun _ => True)
      (reconcileBeat quoteRune r beat) := by
  refine ⟨trivial, ?_⟩
  intro now _
  refine ensures_bind.mpr ((ensures_resolveToken quoteRune hr hchecked).mono ?_)
  intro result hresult
  match result with
  | .error err =>
      refine ⟨pingable_tombstone beat.ns beat.name, ?_⟩
      intro answer _
      cases answer with
      | error err => trivial
      | ok _ =>
          have hfailed : Pingable r (.patchStatus ⟨beat.ns, beat.name⟩
              (failedStatus r.kube beat now err)) := fun hne => absurd rfl hne
          refine (ensures_bind (p := patchStatus beat _)).mpr
            ((ensures_patchStatus hfailed).mono ?_)
          intro result' _
          cases result' <;> trivial
  | .ok (token, secretName) =>
      have htoken := hresult token secretName rfl
      refine ensures_bind.mpr ((ensures_syncSecretURL secretName _).mono ?_)
      intro synced _
      cases synced with
      | error err => trivial
      | ok _ =>
          refine ⟨(pingable_publishSpec_iff horigin beat token).mpr htoken, ?_⟩
          intro answer _
          cases answer with
          | error err => trivial
          | ok _ =>
              have hready : Pingable r (.patchStatus ⟨beat.ns, beat.name⟩
                  (readyStatus r.kube beat now (r.pingURL token) secretName)) :=
                fun _ => ⟨token, (leads_pingURL_iff horigin token).mpr htoken⟩
              refine (ensures_bind (p := patchStatus beat _)).mpr
                ((ensures_patchStatus hready).mono ?_)
              intro result' _
              cases result' <;> trivial

theorem ensures_reconcile (hr : r.ReadsModifiesWrites) (key : NamespacedName)
    (hchecked : ∀ beat ∈ beats, beat.deleting = false → Checked contents beat) :
    Ensures (Allowed beats contents) (Pingable r) (fun _ => True)
      (reconcile quoteRune r key) := by
  refine ⟨trivial, ?_⟩
  intro answer hanswer
  match answer with
  | .error .notFound => exact ensures_reconcileGone key
  | .error (.failed err) => trivial
  | .ok beat =>
      simp only
      split
      · exact ensures_reconcileGone _
      · rename_i hlive
        exact ensures_reconcileBeat quoteRune horigin hr
          (hchecked beat (hanswer beat rfl) (by simpa using hlive))

theorem ensures_resyncHeartbeat (hr : r.ReadsModifiesWrites)
    (hchecked : beat.deleting = false → Checked contents beat) :
    Ensures (Allowed beats contents) (Pingable r) (fun _ => True)
      (resyncHeartbeat quoteRune r beat) := by
  unfold resyncHeartbeat
  split
  · trivial
  · rename_i hlive
    refine ensures_bind.mpr (ensures_bind.mpr
      ((ensures_resolveToken quoteRune hr (hchecked (by simpa using hlive))).mono ?_))
    intro result hresult
    match result with
    | .error err => trivial
    | .ok (token, secretName) =>
        have htoken := hresult token secretName rfl
        exact ⟨(pingable_publishSpec_iff horigin beat token).mpr htoken, fun _ _ => trivial⟩

/-- The loop over the list. -/
theorem ensures_resyncAll (hr : r.ReadsModifiesWrites) (list : List Heartbeat)
    (hchecked : ∀ beat ∈ list, beat.deleting = false → Checked contents beat) :
    Ensures (Allowed beats contents) (Pingable r) (fun _ => True) (resyncAll quoteRune r list) := by
  induction list with
  | nil => trivial
  | cons beat list ih =>
      refine ensures_bind.mpr ((ensures_resyncHeartbeat quoteRune horigin hr
        (hchecked beat (.head _))).mono ?_)
      intro _ _
      exact ih fun other hother => hchecked other (.tail _ hother)

theorem ensures_resyncHeartbeats (hr : r.ReadsModifiesWrites)
    (hchecked : ∀ beat ∈ beats, beat.deleting = false → Checked contents beat) :
    Ensures (Allowed beats contents) (Pingable r) (fun _ => True)
      (resyncHeartbeats quoteRune r) := by
  refine ⟨trivial, ?_⟩
  intro answer hanswer
  cases answer with
  | error err => trivial
  | ok list =>
      exact ensures_resyncAll quoteRune horigin hr list
        fun beat hbeat => hchecked beat (hanswer list rfl beat hbeat)

/-- A token that is found in a generated Secret gets published by `Reconcile`. -/
theorem acceptable_of_ensures {secret : Secret} (href : beat.spec.tokenSecretRef = none)
    (hsecret : .ok secret ∈ contents (generatedSecret beat)) (hne : secret.token ≠ [])
    (h : Ensures (Allowed beats contents) (Pingable r) (fun _ => True)
      (reconcileBeat quoteRune r beat)) :
    acceptableToken secret.token = none := by
  have hresolved := ensures_bind.mp (h.2 ⟨0⟩ trivial)
  rw [resolveToken, href] at hresolved
  have hread := hresolved.2 (.ok secret) hsecret
  simp only [if_pos hne, ensures_done] at hread
  have hsync := ensures_bind.mp hread
  have hopen : ¬ (beat.spec.tokenSecretRef ≠ none ∨ r.pingURL secret.token = []) := by
    rintro (h' | h')
    · exact h' href
    · exact pingURL_ne_nil horigin _ h'
  rw [syncSecretURL, if_neg hopen] at hsync
  have hpublish := hsync.2 (.ok secret) hsecret
  simp only at hpublish
  split at hpublish
  · exact (pingable_publishSpec_iff horigin beat secret.token).mp hpublish.1
  · exact (pingable_publishSpec_iff horigin beat secret.token).mp (hpublish.2 (.ok ()) trivial).1

end Publishers

/-- For every base URL that is a bare origin, any `SetControllerReference`, all Heartbeats and
all contents of their Secrets: every live spec that `Reconcile` and the resyncer publish is
pingable, exactly when what can be read from each generated Secret in use is no token or an
acceptable one. -/
theorem published_pingable_iff (quoteRune : GoString → String) (r : HeartbeatReconciler)
    (hr : r.ReadsModifiesWrites)
    (horigin : Urls.IsOrigin (GoString.trimSuffix 0x2F (GoString.trimSpace r.baseURL)))
    (beats : Set Heartbeat) (contents : NamespacedName → Set (Except GetError Secret)) :
    ((∀ key, Ensures (Allowed beats contents) (Pingable r) (fun _ => True)
        (reconcile quoteRune r key)) ∧
      Ensures (Allowed beats contents) (Pingable r) (fun _ => True)
        (resyncHeartbeats quoteRune r)) ↔
    ∀ beat ∈ beats, beat.deleting = false → Checked contents beat := by
  constructor
  · rintro ⟨hreconcile, -⟩ beat hbeat hlive href secret hsecret
    by_cases hne : secret.token = []
    · exact .inl hne
    · right
      have hread := (hreconcile ⟨beat.ns, beat.name⟩).2 (.ok beat)
        (by rintro _ ⟨⟩; exact hbeat)
      simp only [hlive, Bool.false_eq_true, if_false] at hread
      exact acceptable_of_ensures quoteRune horigin href hsecret hne hread
  · intro hchecked
    exact ⟨fun key => ensures_reconcile quoteRune horigin hr key hchecked,
      ensures_resyncHeartbeats quoteRune horigin hr hchecked⟩

/-- The Heartbeat of the runs below. -/
def backup : Heartbeat where
  name := "backup"
  ns := "default"
  uid := "backup-uid"
  generation := 1
  deletionTimestamp := none
  spec := ⟨60000000000, 0, false, none, [], ∅⟩
  status := { lastPingTime := none, lastResult := "" }

/-- A reconciler with a base URL. -/
def operator : HeartbeatReconciler :=
  ⟨GoString.lit "https://hb.example.com/", .sample, readModifyWrite⟩

theorem operator_origin :
    Urls.IsOrigin (GoString.trimSuffix 0x2F (GoString.trimSpace operator.baseURL)) :=
  ⟨GoString.lit "https", GoString.lit "hb.example.com", by decide +kernel, by decide +kernel,
    by decide +kernel⟩

/-- A generated Secret with this token. -/
def secretWith (token : String) : Secret :=
  ⟨1, (∅ : Finmap _).insert tokenSecretKey (GoString.lit token), some (owner backup)⟩

/-- With a token of twenty letters everything published is pingable. -/
theorem published_pingable_backup :
    Ensures (Allowed {backup} fun _ => {.ok (secretWith "abcdefghijklmnopqrst")})
      (Pingable operator) (fun _ => True)
      (reconcile (fun _ => "") operator ⟨"default", "backup"⟩) := by
  refine ((published_pingable_iff (fun _ => "") operator rfl operator_origin {backup}
    fun _ => {.ok (secretWith "abcdefghijklmnopqrst")}).mpr ?_).1 _
  rintro beat - - - secret hsecret
  cases Set.mem_singleton_iff.mp hsecret
  exact .inr (by decide +kernel)

/-- A token of seven characters under the key of the generated Secret is published, and
the receiver refuses the URL rendered for it. -/
theorem shortToken_not_pingable :
    ¬ Ensures (Allowed {backup} fun _ => {.ok (secretWith "hunter2")}) (Pingable operator)
      (fun _ => True) (reconcile (fun _ => "") operator ⟨"default", "backup"⟩) ∧
    (Urls.urlPath (operator.pingURL (GoString.lit "hunter2"))).bind parsePath = none := by
  constructor
  · intro h
    have hread := h.2 (.ok backup) (by rintro _ ⟨⟩; rfl)
    have hacceptable : acceptableToken (secretWith "hunter2").token = none :=
      acceptable_of_ensures (fun _ => "") operator_origin rfl rfl (by decide +kernel) hread
    exact absurd hacceptable (by decide +kernel)
  · decide +kernel

end SyntheticsOperator.Proofs.PingURL
