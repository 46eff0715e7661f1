import SyntheticsOperator.Heartbeat.Receiver
import SyntheticsOperator.Support.MapLookup

/-!
# Tokens of the heartbeat receiver

The reverse index is exact: it holds the token of a Heartbeat's last processed
spec.  The forward index is sound, since an entry always points at a Heartbeat
that holds the token.  It is not complete: an eviction removes the forward entry
without asking who else holds the token, so availability needs that no token is
taken away from one Heartbeat while another one holds it.
-/

namespace SyntheticsOperator.Proofs.Tokens

open SyntheticsOperator.Api
open SyntheticsOperator.Heartbeat
open SyntheticsOperator.Results (SpecUpdate HeartbeatPing)
open SyntheticsOperator.Support
open SyntheticsOperator.Support.Histories

/-! ## One spec update -/

theorem evict_tokens (r : Receiver) (name other : NamespacedName) :
    (r.evict name).tokens.lookup other = if other = name then none else r.tokens.lookup other := by
  unfold Receiver.evict
  split
  · exact lookup_erase_ite ..
  · rename_i hnone
    split
    · rename_i heq
      rw [heq, hnone]
    · rfl

theorem evict_identities (r : Receiver) (name : NamespacedName) (token : GoString) :
    (r.evict name).identities.lookup token =
      if r.tokens.lookup name = some token then none else r.identities.lookup token := by
  unfold Receiver.evict
  split
  · rename_i previous hprevious
    simp only [hprevious, Option.some.injEq, eq_comm (a := previous)]
    exact lookup_erase_ite ..
  · rename_i hnone
    simp [hnone]

section OnSpec

variable (r : Receiver) {msg : SpecUpdate} {name : NamespacedName}
  (hkey : msg.key = ⟨.heartbeat, name⟩)
include hkey

theorem onSpec_eq :
    r.onSpec msg =
      match installedToken msg with
      | none => r.markWarm.evict name
      | some token => (r.markWarm.evict name).install name token := by
  obtain rfl : (⟨msg.ns, msg.name⟩ : NamespacedName) = name := congrArg CrKey.name hkey
  have hkind : msg.kind = .heartbeat := congrArg CrKey.kind hkey
  exact if_neg (by simp [hkind])

/-- The reverse index after a spec update of `name`. -/
theorem onSpec_tokens (other : NamespacedName) :
    (r.onSpec msg).tokens.lookup other =
      if other = name then installedToken msg else r.tokens.lookup other := by
  rw [onSpec_eq r hkey]
  rcases installedToken msg with _ | token
  · exact evict_tokens r.markWarm name other
  · simp only [Receiver.install, lookup_insert_ite, evict_tokens]
    split <;> rfl

/-- The forward index after a spec update of `name`. -/
theorem onSpec_identities (token : GoString) :
    (r.onSpec msg).identities.lookup token =
      if installedToken msg = some token then some name
      else if r.tokens.lookup name = some token then none
      else r.identities.lookup token := by
  rw [onSpec_eq r hkey]
  rcases installedToken msg with _ | new
  · simp only [reduceCtorEq, if_false]
    exact evict_identities r.markWarm name token
  · simp only [Receiver.install, lookup_insert_ite, evict_identities, Option.some.injEq,
      eq_comm (a := new)]
    rfl

theorem onSpec_warm : (r.onSpec msg).warm = true := by
  rw [onSpec_eq r hkey]
  have hevict : (r.markWarm.evict name).warm = true := by
    unfold Receiver.evict
    split <;> rfl
  rcases installedToken msg with _ | token <;> exact hevict

end OnSpec

/-! ## The two indexes along a run -/

theorem liveToken_snoc_spec {name : NamespacedName} {msg : SpecUpdate} (events : List Event)
    (hkey : msg.key = ⟨.heartbeat, name⟩) :
    liveToken name (events ++ [.spec msg]) = installedToken msg := by
  simp [liveToken, specOf, hkey]

theorem liveToken_snoc_other {name : NamespacedName} {event : Event} (events : List Event)
    (hnone : specOf name event = none) :
    liveToken name (events ++ [event]) = liveToken name events := by
  simp [liveToken, hnone]

theorem liveToken_snoc_spec_of_ne {name owner : NamespacedName} {msg : SpecUpdate}
    (events : List Event) (hkey : msg.key = ⟨.heartbeat, owner⟩) (hne : name ≠ owner) :
    liveToken name (events ++ [.spec msg]) = liveToken name events := by
  have hother : specOf name (.spec msg) = none :=
    if_neg fun h => hne (congrArg CrKey.name (h.symm.trans hkey))
  exact liveToken_snoc_other events hother

/-- An event that is no spec update of a Heartbeat leaves both indexes alone. -/
theorem handle_other (r : Receiver) {event : Event} (hnone : ∀ name, specOf name event = none) :
    (r.handle event).tokens = r.tokens ∧ (r.handle event).identities = r.identities := by
  cases event with
  | warmup => exact ⟨rfl, rfl⟩
  | spec msg =>
      have hkind : msg.kind ≠ .heartbeat := by
        intro hkind
        have hsome : specOf ⟨msg.ns, msg.name⟩ (.spec msg) = some msg := by
          simp [specOf, SpecUpdate.key, hkind]
        rw [hnone] at hsome
        cases hsome
      rw [Receiver.handle, Receiver.onSpec, if_pos hkind]
      exact ⟨rfl, rfl⟩

/-- An event is a spec update of one Heartbeat or of none. -/
theorem event_cases (event : Event) :
    (∃ msg name, event = .spec msg ∧ msg.key = ⟨.heartbeat, name⟩) ∨
      ∀ name, specOf name event = none := by
  cases event with
  | warmup => exact .inr fun _ => rfl
  | spec msg =>
      by_cases hkind : msg.kind = .heartbeat
      · exact .inl ⟨msg, ⟨msg.ns, msg.name⟩, rfl, by rw [SpecUpdate.key, hkind]⟩
      · refine .inr fun name => if_neg fun hkey => hkind (congrArg CrKey.kind hkey)

theorem tokens_run (events : List Event) (name : NamespacedName) :
    (Receiver.run events).tokens.lookup name = liveToken name events := by
  induction events using List.reverseRecOn with
  | nil => rfl
  | append_singleton events event ih =>
      rw [Receiver.run_snoc]
      rcases event_cases event with ⟨msg, owner, rfl, hkey⟩ | hnone
      · rw [Receiver.handle, onSpec_tokens _ hkey]
        split
        · rename_i heq
          rw [heq, liveToken_snoc_spec events hkey]
        · rename_i hne
          rw [liveToken_snoc_spec_of_ne events hkey hne, ih]
      · rw [(handle_other _ hnone).1, liveToken_snoc_other events (hnone name), ih]

/-- The forward index after a spec update of `owner`, along a run. -/
theorem identities_run_snoc_spec {owner : NamespacedName} {msg : SpecUpdate}
    (events : List Event) (hkey : msg.key = ⟨.heartbeat, owner⟩) (token : GoString) :
    (Receiver.run (events ++ [.spec msg])).identities.lookup token =
      if installedToken msg = some token then some owner
      else if liveToken owner events = some token then none
      else (Receiver.run events).identities.lookup token := by
  rw [Receiver.run_snoc, Receiver.handle, onSpec_identities _ hkey, tokens_run]

theorem identities_run_snoc_other {event : Event} (events : List Event)
    (hnone : ∀ name, specOf name event = none) :
    (Receiver.run (events ++ [event])).identities = (Receiver.run events).identities := by
  rw [Receiver.run_snoc, (handle_other _ hnone).2]

/-- A forward entry points at a Heartbeat that holds the token. -/
theorem identities_run_sound (events : List Event) {token : GoString} {name : NamespacedName}
    (h : (Receiver.run events).identities.lookup token = some name) :
    liveToken name events = some token := by
  induction events using List.reverseRecOn generalizing token name with
  | nil => cases h
  | append_singleton events event ih =>
      rcases event_cases event with ⟨msg, owner, rfl, hkey⟩ | hnone
      · rw [identities_run_snoc_spec events hkey] at h
        split at h
        · rename_i hinstalled
          cases h
          rwa [liveToken_snoc_spec events hkey]
        · split at h
          · cases h
          · -- an older entry: it is not one of the owner's, which were evicted
            rename_i hprevious
            have hlive := ih h
            have hne : name ≠ owner := by
              rintro rfl
              exact hprevious hlive
            rw [liveToken_snoc_spec_of_ne events hkey hne, hlive]
      · rw [identities_run_snoc_other events hnone] at h
        rw [liveToken_snoc_other events (hnone name)]
        exact ih h

/-! ## Availability -/

/-- A spec of the Heartbeat `name` of the namespace `default` with a token. -/
def tokenSpec (name token : String) : SpecUpdate :=
  { kind := .heartbeat, name := name, ns := "default"
    heartbeat := some ⟨GoString.lit token, 60000, 0, 0, ""⟩ }

/-- The tombstone of the Heartbeat `name`. -/
def tombstone (name : String) : SpecUpdate :=
  { kind := .heartbeat, name := name, ns := "default", deleted := true }

def getRequest (path : String) : Request := ⟨"GET", GoString.lit path, none⟩

/-- Every token a Heartbeat's last spec carries can be looked up. -/
def Available (events : List Event) : Prop :=
  ∀ name token, liveToken name events = some token →
    ((Receiver.run events).lookup token).isSome = true

/-- `event` takes no token away from a Heartbeat while another one holds it. -/
def TakesUnshared (events : List Event) (event : Event) : Prop :=
  ∀ name token, liveToken name events = some token →
    liveToken name (events ++ [event]) ≠ some token →
    ∀ other, other ≠ name → liveToken other events ≠ some token

/-- A spec update of `owner` makes a token unavailable exactly when it takes one
away that another Heartbeat holds. -/
theorem available_snoc_spec_iff {events : List Event} (h : Available events)
    {owner : NamespacedName} {msg : SpecUpdate} (hkey : msg.key = ⟨.heartbeat, owner⟩) :
    Available (events ++ [.spec msg]) ↔ TakesUnshared events (.spec msg) := by
  have hself : liveToken owner (events ++ [.spec msg]) = installedToken msg :=
    liveToken_snoc_spec events hkey
  constructor
  · intro havailable name token hlive htaken other hne hshared
    have hname : name = owner := by
      by_contra hne'
      exact htaken ((liveToken_snoc_spec_of_ne events hkey hne').trans hlive)
    subst hname
    have hsome := havailable other token
      ((liveToken_snoc_spec_of_ne events hkey hne).trans hshared)
    rw [Receiver.lookup, identities_run_snoc_spec events hkey, if_neg (hself ▸ htaken),
      if_pos hlive] at hsome
    cases hsome
  · intro htakes name token hlive
    rw [Receiver.lookup, identities_run_snoc_spec events hkey]
    split
    · rfl
    · rename_i hinstalled
      have hne : name ≠ owner := by
        rintro rfl
        exact hinstalled (hself.symm.trans hlive)
      rw [liveToken_snoc_spec_of_ne events hkey hne] at hlive
      split
      · rename_i hprevious
        exact absurd hlive (htakes owner token hprevious (hself ▸ hinstalled) name hne)
      · exact h name token hlive

theorem available_snoc_iff (events : List Event) (event : Event) (h : Available events) :
    Available (events ++ [event]) ↔ TakesUnshared events event := by
  rcases event_cases event with ⟨msg, owner, rfl, hkey⟩ | hnone
  · exact available_snoc_spec_iff h hkey
  · have hsame : ∀ name, liveToken name (events ++ [event]) = liveToken name events :=
      fun name => liveToken_snoc_other events (hnone name)
    refine iff_of_true (fun name token hlive => ?_) (fun name token hlive htaken => ?_)
    · rw [hsame] at hlive
      rw [Receiver.lookup, identities_run_snoc_other events hnone]
      exact h name token hlive
    · exact absurd ((hsame name).trans hlive) htaken

/-- For every list of processed events: the token of every Heartbeat whose last
spec is live can be looked up at every point, exactly when no step takes a token
away from one Heartbeat while another one holds it. -/
theorem available_iff (events : List Event) :
    (∀ p, p <+: events → Available p) ↔
      ∀ p event, p ++ [event] <+: events → TakesUnshared p event :=
  forall_prefix_iff (fun _ _ h => by cases h) available_snoc_iff events

/-- Two Heartbeats with one token, the first of which is deleted. -/
def sharedToken : List Event :=
  [.spec (tokenSpec "first" "shared-token-0001"), .spec (tokenSpec "second" "shared-token-0001"),
    .spec (tombstone "first")]

/-- `second` is live with the token, and a lookup of the token fails. -/
theorem sharedToken_unavailable :
    liveToken ⟨"default", "second"⟩ sharedToken = some (GoString.lit "shared-token-0001") ∧
      (Receiver.run sharedToken).lookup (GoString.lit "shared-token-0001") = none := by
  decide +kernel

end SyntheticsOperator.Proofs.Tokens
