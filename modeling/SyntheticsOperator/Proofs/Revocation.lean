import SyntheticsOperator.Proofs.Tokens

/-!
# Revoked tokens

A request holds the lock of the token index for its `lookup` only.  At that moment the
Heartbeat it finds holds the token (`sound_run`).  When the ping is published, some time later,
a spec may have taken the token away: that is the only way for a revoked token to publish a
ping.
-/

namespace SyntheticsOperator.Proofs.Revocation

open SyntheticsOperator.Api
open SyntheticsOperator.Heartbeat
open SyntheticsOperator.Proofs.Tokens
open SyntheticsOperator.Results (SpecUpdate HeartbeatPing)
open SyntheticsOperator.Support
open SyntheticsOperator.Support.Histories

/-! ## The two halves of a request -/

/-- The spec is live and carries the token in the path of the request. -/
def Carries (msg : SpecUpdate) (req : Request) : Prop :=
  ∃ payload outcome, msg.deleted = false ∧ msg.heartbeat = some payload ∧
    parsePath req.path = some (payload.token, outcome)

theorem carries_of_installedToken {msg : SpecUpdate} {req : Request} {token : GoString}
    {outcome : Outcome} (h : installedToken msg = some token)
    (hpath : parsePath req.path = some (token, outcome)) : Carries msg req := by
  unfold installedToken at h
  split at h
  · cases h
  · rename_i hlive
    split at h
    · cases h
    · rename_i payload hpayload
      split at h
      · cases h
      · cases h
        exact ⟨payload, outcome, by simpa using hlive, hpayload, hpath⟩

section Halves

variable {events : List Event} {req : Request}

theorem lookupPing_known {name : NamespacedName} {outcome : Outcome}
    (h : lookupPing (Receiver.run events) req = .ok (.known name outcome)) :
    ∃ msg, lastSome (specOf name) events = some msg ∧ Carries msg req := by
  unfold lookupPing at h
  split at h
  · cases h
  · split at h
    · cases h
    · rename_i token outcome' hpath
      split at h
      · cases h
      · rename_i name' hlookup
        cases h
        have hlive := identities_run_sound events hlookup
        obtain ⟨msg, hlast, hinstalled⟩ := Option.bind_eq_some_iff.mp hlive
        exact ⟨msg, hlast, carries_of_installedToken hinstalled hpath⟩

/-- An answer is 200 exactly when a ping was published. -/
def Honest (served : Served) : Prop :=
  (served.response.status = 200 ↔ ∃ ping, served.called = some (ping, true)) ∧
    (served.response.status ≠ 200 → served.published = none)

theorem lookupPing_refused {r : Receiver} {served : Served} (h : lookupPing r req = .error served) :
    served.called = none ∧ served.response.status ≠ 200 := by
  unfold lookupPing at h
  split at h
  · cases h
    exact ⟨rfl, by decide⟩
  · split at h
    · cases h
      exact ⟨rfl, by decide⟩
    · split at h
      · cases h
      · cases h

theorem honest_refused {served : Served} (hcalled : served.called = none)
    (hstatus : served.response.status ≠ 200) : Honest served := by
  refine ⟨iff_of_false hstatus ?_, fun _ => ?_⟩
  · rintro ⟨ping, hping⟩
    rw [hcalled] at hping
    cases hping
  · rw [Served.published, hcalled]

variable {ready : Bool} {now : Time} {sent : Bool}

theorem honest_finish (waiting : Waiting) :
    Honest (waiting.finish ready now (fun _ => sent) req) := by
  cases waiting with
  | unknown => cases ready <;> exact honest_refused rfl (by simp [Waiting.finish, notFound])
  | known name outcome =>
      cases sent with
      | true => exact ⟨iff_of_true rfl ⟨_, rfl⟩, fun h => absurd rfl h⟩
      | false => simp [Honest, Waiting.finish, record, Served.published]

theorem finish_published {waiting : Waiting} {ping : HeartbeatPing}
    (h : (waiting.finish ready now (fun _ => sent) req).published = some ping) :
    ∃ outcome, waiting = .known ⟨ping.ns, ping.name⟩ outcome := by
  cases waiting with
  | unknown => cases ready <;> cases h
  | known name outcome =>
      cases sent with
      | true =>
          cases h
          exact ⟨outcome, rfl⟩
      | false => cases h

end Halves

/-! ## Every interleaving -/

/-- What is known at the `lookup` of every request. -/
structure Sound (s : Serving) : Prop where
  earlier : ∀ h ∈ s.handling, h.looked <+: s.history
  known : ∀ h ∈ s.handling, ∀ name outcome, h.waiting = .known name outcome →
    ∃ msg, lastSome (specOf name) h.looked = some msg ∧ Carries msg h.req
  between : ∀ h ∈ s.handled, h.looked <+: h.answered
  published : ∀ h ∈ s.handled, ∀ ping, h.served.published = some ping →
    ∃ msg, lastSome (specOf ⟨ping.ns, ping.name⟩) h.looked = some msg ∧ Carries msg h.req
  honest : ∀ h ∈ s.handled, Honest h.served

theorem Sound.handled {s : Serving} (h : Sound s) {new : Handled}
    (hbetween : new.looked <+: new.answered)
    (hpublished : ∀ ping, new.served.published = some ping →
      ∃ msg, lastSome (specOf ⟨ping.ns, ping.name⟩) new.looked = some msg ∧ Carries msg new.req)
    (hhonest : Honest new.served) : Sound { s with handled := s.handled ++ [new] } where
  earlier := h.earlier
  known := h.known
  between := List.forall_mem_append.mpr ⟨h.between, List.forall_mem_singleton.mpr hbetween⟩
  published := List.forall_mem_append.mpr ⟨h.published, List.forall_mem_singleton.mpr hpublished⟩
  honest := List.forall_mem_append.mpr ⟨h.honest, List.forall_mem_singleton.mpr hhonest⟩

theorem sound_step {s : Serving} (h : Sound s) (a : Serving.Step) : Sound (s.step a) := by
  cases a with
  | event e =>
      exact { h with earlier := fun r hr => (h.earlier r hr).trans (List.prefix_append _ _) }
  | lookup req =>
      cases hlookup : lookupPing (Receiver.run s.history) req with
      | error served =>
          simp only [Serving.step, hlookup]
          obtain ⟨hcalled, hstatus⟩ := lookupPing_refused hlookup
          refine h.handled (List.prefix_refl _) (fun ping hping => ?_)
            (honest_refused hcalled hstatus)
          rw [Served.published, hcalled] at hping
          cases hping
      | ok waiting =>
          simp only [Serving.step, hlookup]
          refine { h with earlier := ?_, known := ?_ }
          · exact List.forall_mem_append.mpr
              ⟨h.earlier, List.forall_mem_singleton.mpr (List.prefix_refl _)⟩
          · refine List.forall_mem_append.mpr ⟨h.known, List.forall_mem_singleton.mpr ?_⟩
            rintro name outcome rfl
            exact lookupPing_known hlookup
  | finish i now sent =>
      cases hget : s.handling[i]? with
      | none =>
          simp only [Serving.step, hget]
          exact h
      | some r =>
          simp only [Serving.step, hget]
          have hmem : r ∈ s.handling := List.mem_of_getElem? hget
          have herase : Sound { s with handling := s.handling.eraseIdx i } :=
            { h with
              earlier := fun r hr => h.earlier r (List.mem_of_mem_eraseIdx hr)
              known := fun r hr => h.known r (List.mem_of_mem_eraseIdx hr) }
          refine herase.handled (h.earlier r hmem) (fun ping hping => ?_) (honest_finish _)
          obtain ⟨outcome, hknown⟩ := finish_published hping
          exact h.known r hmem _ outcome hknown

theorem sound_run (steps : List Serving.Step) : Sound (Serving.run steps) := by
  induction steps using List.reverseRecOn with
  | nil => constructor <;> exact List.forall_mem_nil _
  | append_singleton steps a ih =>
      rw [Serving.run_snoc]
      exact sound_step ih a

/-! ## Publications -/

/-- A ping is published only for a Heartbeat whose last spec before that carries the token. -/
def Safe (h : Handled) : Prop :=
  ∀ ping, h.served.published = some ping →
    ∃ msg, lastSome (specOf ⟨ping.ns, ping.name⟩) h.answered = some msg ∧ Carries msg h.req

/-- The events between the `lookup` of a request and its answer. -/
def meanwhile (h : Handled) : List Event := h.answered.drop h.looked.length

/-- No spec takes the token away from the Heartbeat of a ping between the `lookup` and the
publication, unless another one gives it back. -/
def NotTakenMeanwhile (h : Handled) : Prop :=
  ∀ ping, h.served.published = some ping →
    ∀ msg, lastSome (specOf ⟨ping.ns, ping.name⟩) (meanwhile h) = some msg → Carries msg h.req

theorem safe_iff {h : Handled} (hbetween : h.looked <+: h.answered)
    (hlooked : ∀ ping, h.served.published = some ping →
      ∃ msg, lastSome (specOf ⟨ping.ns, ping.name⟩) h.looked = some msg ∧ Carries msg h.req) :
    Safe h ↔ NotTakenMeanwhile h := by
  obtain ⟨later, hlater⟩ := hbetween
  have hmeanwhile : meanwhile h = later := by rw [meanwhile, ← hlater, List.drop_left]
  have hlast : ∀ name, lastSome (specOf name) h.answered =
      (lastSome (specOf name) later).or (lastSome (specOf name) h.looked) := by
    intro name
    rw [← hlater, lastSome_append]
  refine forall₂_congr fun ping hping => ?_
  rw [hlast, hmeanwhile]
  cases lastSome (specOf ⟨ping.ns, ping.name⟩) later with
  | none =>
      refine iff_of_true (hlooked ping hping) ?_
      intro msg hmsg
      cases hmsg
  | some msg => simp

/-- For every interleaving of spec updates, the warm-up timer and the two halves of any number
of requests: a ping is published only for a Heartbeat whose last processed spec carries the
token of the path, exactly when no spec takes the token away between the `lookup` and the
publication.  At its `lookup` every ping meets that condition, and an answer is 200 exactly
when a ping was published. -/
theorem revocation_safe_iff (steps : List Serving.Step) :
    ((∀ h ∈ (Serving.run steps).handled, Safe h) ↔
      ∀ h ∈ (Serving.run steps).handled, NotTakenMeanwhile h) ∧
    (∀ h ∈ (Serving.run steps).handled, ∀ ping, h.served.published = some ping →
      ∃ msg, lastSome (specOf ⟨ping.ns, ping.name⟩) h.looked = some msg ∧ Carries msg h.req) ∧
    ∀ h ∈ (Serving.run steps).handled, Honest h.served := by
  have hsound := sound_run steps
  refine ⟨?_, hsound.published, hsound.honest⟩
  exact forall₂_congr fun h hmem => safe_iff (hsound.between h hmem) (hsound.published h hmem)

/-- The Heartbeat is resynced with the same token while a ping is on its way. -/
def resyncedMeanwhile : List Serving.Step :=
  [.event (.spec (tokenSpec "backup" "hb_0123456789abc")),
    .lookup (getRequest "/hb_0123456789abc"),
    .event (.spec (tokenSpec "backup" "hb_0123456789abc")), .finish 0 ⟨0⟩ true]

/-- The Heartbeat is deleted meanwhile. -/
def deletedMeanwhile : List Serving.Step :=
  [.event (.spec (tokenSpec "backup" "hb_0123456789abc")),
    .lookup (getRequest "/hb_0123456789abc"), .event (.spec (tombstone "backup")),
    .finish 0 ⟨0⟩ true]

theorem resyncedMeanwhile_safe :
    ((Serving.run resyncedMeanwhile).handled.map fun h => h.served.published) =
        [some ⟨"backup", "default", ⟨0⟩, false, 0, []⟩] ∧
      ∀ h ∈ (Serving.run resyncedMeanwhile).handled, Safe h := by
  refine ⟨by decide +kernel, (revocation_safe_iff resyncedMeanwhile).1.mpr ?_⟩
  have hhandled : ∃ h, (Serving.run resyncedMeanwhile).handled = [h] ∧
      h.req = getRequest "/hb_0123456789abc" ∧
      meanwhile h = [.spec (tokenSpec "backup" "hb_0123456789abc")] :=
    ⟨_, rfl, rfl, rfl⟩
  obtain ⟨h, hhandled, hreq, hmeanwhile⟩ := hhandled
  rw [hhandled, List.forall_mem_singleton]
  intro ping _ msg hmsg
  rw [hmeanwhile] at hmsg
  obtain ⟨event, hevent, hof⟩ := exists_of_lastSome_eq_some hmsg
  rw [List.mem_singleton.mp hevent, specOf, Option.ite_none_right_eq_some] at hof
  obtain ⟨-, hof⟩ := hof
  cases hof
  rw [hreq]
  exact ⟨_, ⟨false, 0⟩, rfl, rfl, by decide +kernel⟩

theorem deletedMeanwhile_not_safe :
    ¬ ∀ h ∈ (Serving.run deletedMeanwhile).handled, Safe h := by
  have hhandled : ∃ h, (Serving.run deletedMeanwhile).handled = [h] ∧
      h.served.published = some ⟨"backup", "default", ⟨0⟩, false, 0, []⟩ ∧
      lastSome (specOf ⟨"default", "backup"⟩) h.answered = some (tombstone "backup") := by
    refine ⟨_, rfl, by decide +kernel, by decide +kernel⟩
  obtain ⟨h, hhandled, hpublished, hlast⟩ := hhandled
  intro hsafe
  rw [hhandled, List.forall_mem_singleton] at hsafe
  obtain ⟨msg, hmsg, _, _, hdeleted, -⟩ := hsafe _ hpublished
  cases hlast.symm.trans hmsg
  cases hdeleted

end SyntheticsOperator.Proofs.Revocation
