import SyntheticsOperator.Controllers.ProbeControllers
import SyntheticsOperator.Controllers.SpecStream
import SyntheticsOperator.Controllers.TestControllers
import SyntheticsOperator.Support.Histories

/-!
# Order on the stream of spec messages

A message is as old as the read it was built from.  The reads of one resource fit
together in the order they were made (`VersionedStore.Coherent`), so the stream is
in order whenever the messages of an identity are published in the order of their
reads.  Nothing in the controllers enforces that: an item of a list the resyncer is
still working on can be published after the tombstone for its deletion.

`reconcilers_publish` says that the messages of the stream are those of the controllers.
-/

namespace SyntheticsOperator.Proofs.SpecStream

open SyntheticsOperator.Api
open SyntheticsOperator.Controllers
open SyntheticsOperator.Probes (Scheduler)
open SyntheticsOperator.Results (SpecUpdate)
open SyntheticsOperator.Support
open SyntheticsOperator.Support.Histories

/-! ## The reconcilers -/

section Reconcilers

variable {P : Type}

/-- The `Get` of a reconciler has seen what the read has. -/
def Answers (wrap : P → Resource) (get : Except GetError P) (read : Read) : Prop :=
  (get = .error .notFound ∧ read.seen = none) ∨
    ∃ o p, get = .ok p ∧ read.seen = some o ∧ o.value = wrap p

/-- What a reconciler publishes after its `Get`, given what it publishes for an object that
is not being deleted. -/
def published (kind : Kind) (key : NamespacedName) (objectMeta : P → ObjectMeta)
    (live : P → Option SpecUpdate) : Except GetError P → Option SpecUpdate
  | .error .notFound => some (tombstone kind key.ns key.name)
  | .error (.failed _) => none
  | .ok p =>
      if (objectMeta p).deleting then some (tombstone kind (objectMeta p).ns (objectMeta p).name)
      else live p

theorem published_probe (r : ProbeReconciler P) (calls : ReconcileCalls P) (key : NamespacedName)
    (s : Scheduler) :
    (r.reconcile calls key s).published =
      published r.kind key r.objectMeta (fun p => (r.specUpdate calls.secret p).toOption)
        calls.get := by
  unfold ProbeReconciler.reconcile
  rcases calls.get with (_ | err) | p
  · rfl
  · rfl
  · simp only [published]
    split
    · rfl
    · unfold ProbeReconciler.reconcileProbe
      cases r.specUpdate calls.secret p with
      | error err => rfl
      | ok spec =>
          cases calls.publish with
          | error err => rfl
          | ok => exact (apply_ite Reconciled.published _ _ _).trans (ite_self _)

theorem published_test (r : TestReconciler P) (calls : TestCalls P) (key : NamespacedName)
    (jobs : CronJobs) :
    (r.reconcile calls key jobs).published =
      published r.kind key r.objectMeta (fun t => some (r.specUpdate t)) calls.get := by
  unfold TestReconciler.reconcile
  rcases calls.get with (_ | err) | t
  · rfl
  · rfl
  · simp only [published]
    split
    · rfl
    · unfold TestReconciler.reconcileTest
      cases calls.publish with
      | error err => rfl
      | ok =>
          rcases r.reconcileCronJob calls t jobs with ⟨jobs', err | _⟩
          · rfl
          · exact (apply_ite TestReconciled.published _ _ _).trans (ite_self _)

theorem published_eq_reconcile {wrap : P → Resource} {get : Except GetError P} {read : Read}
    {out : Outside} {kind : Kind} {key : NamespacedName} {objectMeta : P → ObjectMeta}
    {live : P → Option SpecUpdate} (h : Answers wrap get read) (hkey : read.key = ⟨kind, key⟩)
    (hwrap : ∀ p, (wrap p).kind = kind ∧ (wrap p).objectMeta = objectMeta p ∧
      reconcileLive out (wrap p) = live p) :
    published kind key objectMeta live get = reconcile out read := by
  rcases h with ⟨rfl, hseen⟩ | ⟨o, p, rfl, hseen, hvalue⟩
  · simp only [published, reconcile, hseen, hkey]
  · obtain ⟨hkind, hmeta, hlive⟩ := hwrap p
    simp only [published, reconcile, hseen, hvalue, hkind, hmeta, hlive]

/-- The reconcilers of the probes and the tests publish what `reconcile` gives for the
answer to their `Get`. -/
theorem reconcilers_publish (k6 : K6TestReconciler) (playwright : PlaywrightTestReconciler)
    (out : Outside) (read : Read) (key : NamespacedName) (s : Scheduler) (jobs : CronJobs) :
    (∀ calls, calls.secret = out.secret → Answers .httpProbe calls.get read →
      read.key = ⟨.httpProbe, key⟩ →
      (httpProbeReconciler.reconcile calls key s).published = reconcile out read) ∧
    (∀ calls, Answers .dnsProbe calls.get read → read.key = ⟨.dnsProbe, key⟩ →
      (dnsProbeReconciler.reconcile calls key s).published = reconcile out read) ∧
    (∀ calls, Answers .tcpProbe calls.get read → read.key = ⟨.tcpProbe, key⟩ →
      (tcpProbeReconciler.reconcile calls key s).published = reconcile out read) ∧
    (∀ calls, Answers .k6Test calls.get read → read.key = ⟨.k6Test, key⟩ →
      (k6.reconciler.reconcile calls key jobs).published = reconcile out read) ∧
    (∀ calls, Answers .playwrightTest calls.get read → read.key = ⟨.playwrightTest, key⟩ →
      (playwright.reconciler.reconcile calls key jobs).published = reconcile out read) := by
  refine ⟨fun calls hsecret h hkey => ?_, fun calls h hkey => ?_, fun calls h hkey => ?_,
    fun calls h hkey => ?_, fun calls h hkey => ?_⟩
  · rw [published_probe]
    refine published_eq_reconcile h hkey fun p => ⟨rfl, rfl, ?_⟩
    simp only [reconcileLive, resyncLive, httpProbeReconciler, hsecret]
    cases resolveRequestHeaders out.secret p.ns p.spec.request <;> rfl
  · rw [published_probe]
    exact published_eq_reconcile h hkey fun p => ⟨rfl, rfl, rfl⟩
  · rw [published_probe]
    exact published_eq_reconcile h hkey fun p => ⟨rfl, rfl, rfl⟩
  · rw [published_test]
    exact published_eq_reconcile h hkey fun t => ⟨rfl, rfl, rfl⟩
  · rw [published_test]
    exact published_eq_reconcile h hkey fun t => ⟨rfl, rfl, rfl⟩

end Reconcilers

/-! ## What a message tells about its read -/

/-- The message is about the resource that was read, and one that is not a
tombstone describes an object that was not being deleted. -/
structure Describes (read : Read) (msg : SpecUpdate) : Prop where
  key : msg.key = read.key
  live : msg.deleted = false → ∃ o, read.seen = some o ∧
    o.value.objectMeta.deleting = false ∧ msg.generation = o.value.objectMeta.generation

theorem resyncLive_spec {out : Outside} {r : Resource} {msg : SpecUpdate}
    (h : resyncLive out r = some msg) :
    msg.key = r.key ∧ msg.generation = r.objectMeta.generation := by
  cases r with
  | httpProbe p =>
      simp only [resyncLive] at h
      split at h
      · cases h
      · cases h
        exact ⟨rfl, rfl⟩
  | heartbeat b =>
      obtain ⟨token, -, rfl⟩ := Option.map_eq_some_iff.mp h
      exact ⟨rfl, rfl⟩
  | _ =>
      cases h
      exact ⟨rfl, rfl⟩

theorem reconcileLive_spec {out : Outside} {r : Resource} {msg : SpecUpdate}
    (h : reconcileLive out r = some msg) :
    msg.key = r.key ∧ (msg.deleted = false → msg.generation = r.objectMeta.generation) := by
  unfold reconcileLive at h
  split at h
  · split at h
    · cases h
      exact ⟨rfl, fun hdeleted => absurd hdeleted (by simp [tombstone])⟩
    · split at h
      · cases h
        exact ⟨rfl, fun _ => rfl⟩
      · cases h
  · obtain ⟨hkey, hgeneration⟩ := resyncLive_spec h
    exact ⟨hkey, fun _ => hgeneration⟩

theorem describes_reconcile {out : Outside} {read : Read} {msg : SpecUpdate}
    (h : reconcile out read = some msg) : Describes read msg := by
  unfold reconcile at h
  split at h
  · cases h
    exact ⟨rfl, fun hdeleted => absurd hdeleted (by simp [tombstone])⟩
  · rename_i o hseen
    simp only at h
    split at h
    · cases h
      exact ⟨read.keyed o hseen, fun hdeleted => absurd hdeleted (by simp [tombstone])⟩
    · rename_i hlive
      obtain ⟨hkey, hgeneration⟩ := reconcileLive_spec h
      exact ⟨hkey.trans (read.keyed o hseen), fun hdeleted =>
        ⟨o, hseen, Bool.eq_false_of_not_eq_true hlive, hgeneration hdeleted⟩⟩

theorem describes_resyncItem {out : Outside} {read : Read} {msg : SpecUpdate}
    (h : resyncItem out read = some msg) : Describes read msg := by
  obtain ⟨o, hseen, h⟩ := Option.bind_eq_some_iff.mp h
  split at h
  · cases h
  · rename_i hlive
    obtain ⟨hkey, hgeneration⟩ := resyncLive_spec h
    exact ⟨hkey.trans (read.keyed o hseen), fun _ =>
      ⟨o, hseen, Bool.eq_false_of_not_eq_true hlive, hgeneration⟩⟩

theorem describes (p : Publication) : Describes p.read p.msg := by
  obtain ⟨out, h | h⟩ := p.built
  · exact describes_reconcile h
  · exact describes_resyncItem h

/-! ## The reads behind a state -/

/-- The reads whose message is still to be published. -/
def waiting (s : State) : List Read := s.reconciles ++ s.items

/-- The reads a state still knows of. -/
def readings (s : State) : Set (Reading CrKey Resource) :=
  {r | ∃ x ∈ waiting s ++ s.log.map (·.read), x.toReading = r}

theorem mem_readings_of_mem_log {s : State} {p : Publication} (h : p ∈ s.log) :
    p.read.toReading ∈ readings s :=
  ⟨p.read, List.mem_append_right _ (List.mem_map_of_mem h), rfl⟩

/-- The message of a step is built from a read that was waiting for it. -/
theorem publication_spec {s : State} {a : Action} {p : Publication}
    (h : s.publication a = some p) : p.read ∈ waiting s ∧ p.time = s.api.clock := by
  unfold State.publication at h
  split at h
  · split at h
    · cases h
    · rename_i read hread
      split at h
      · cases h
      · split at h
        · cases h
          exact ⟨List.mem_append_left _ (List.mem_of_getElem? hread), rfl⟩
        · cases h
  · split at h
    · cases h
    · rename_i read rest hitems
      split at h
      · cases h
      · split at h
        · cases h
          exact ⟨by simp [waiting, hitems], rfl⟩
        · cases h
  · cases h

/-- A step writes to the API server, or it leaves the objects alone and may read
some of them. -/
inductive Effect (s s' : State) : Prop
  | write (api : VersionedStore.Advances s.api s'.api) (same : waiting s' = waiting s)
  | read (api : s'.api = s.api.tick)
      (new : ∀ x ∈ waiting s', x ∈ waiting s ∨ ∃ k, x = s.read k)

theorem effect_tick (s : State) : Effect s s.tick :=
  .read rfl fun _ hx => .inl hx

theorem effect_advance (s : State) (a : Action) : Effect s (s.advance a) := by
  cases a with
  | create r => exact .write (VersionedStore.advances_create ..) rfl
  | update r => exact .write (VersionedStore.advances_update ..) rfl
  | remove k => exact .write (VersionedStore.advances_remove ..) rfl
  | get k =>
      simp only [State.advance]
      split
      · refine .read rfl fun x hx => ?_
        simp only [waiting, List.mem_append, List.mem_singleton] at hx ⊢
        tauto
      · exact effect_tick s
  | reconcile i out =>
      refine .read rfl fun x hx => .inl ?_
      rcases List.mem_append.mp hx with hx | hx
      · exact List.mem_append_left _ (List.mem_of_mem_eraseIdx hx)
      · exact List.mem_append_right _ hx
  | resync =>
      simp only [State.advance]
      split
      · exact .read rfl fun _ hx => .inl hx
      · exact effect_tick s
  | list order =>
      simp only [State.advance]
      split
      · exact .read rfl fun _ hx => .inl hx
      · split
        · refine .read rfl fun x hx => ?_
          rcases List.mem_append.mp hx with hx | hx
          · exact .inl (List.mem_append_left _ hx)
          · obtain ⟨k, -, rfl⟩ := List.mem_map.mp hx
            exact .inr ⟨k, rfl⟩
        · exact effect_tick s
      · exact effect_tick s
  | resyncItem out =>
      refine .read rfl fun x hx => .inl ?_
      rcases List.mem_append.mp hx with hx | hx
      · exact List.mem_append_left _ hx
      · exact List.mem_append_right _ (List.mem_of_mem_tail hx)

theorem mem_readings_step {s : State} {a : Action} {r : Reading CrKey Resource}
    (h : r ∈ readings (s.step a)) :
    r ∈ readings s ∨ ∃ x ∈ waiting (s.advance a), x.toReading = r := by
  obtain ⟨x, hx, rfl⟩ := h
  rcases List.mem_append.mp hx with hx | hx
  · exact .inr ⟨x, hx, rfl⟩
  · obtain ⟨p, hp, rfl⟩ := List.mem_map.mp hx
    rcases List.mem_append.mp hp with hp | hp
    · exact .inl (mem_readings_of_mem_log hp)
    · obtain ⟨hread, -⟩ := publication_spec (Option.mem_toList.mp hp)
      exact .inl ⟨p.read, List.mem_append_left _ hread, rfl⟩

/-- The reads a state knows of fit together, and a message is sent after its
read. -/
structure Consistent (s : State) : Prop where
  coherent : s.api.Coherent (readings s)
  sent : ∀ p ∈ s.log, p.read.stamp < p.time

theorem consistent_empty : Consistent .empty where
  coherent := VersionedStore.coherent_empty.mono fun _ h => by
    obtain ⟨x, hx, -⟩ := h
    cases hx
  sent p hp := by cases hp

theorem consistent_step {s : State} (h : Consistent s) (a : Action) : Consistent (s.step a) where
  coherent := by
    rcases effect_advance s a with ⟨hapi, hsame⟩ | ⟨hapi, hnew⟩
    · refine (h.coherent.advance hapi).mono fun r hr => ?_
      rcases mem_readings_step hr with hr | ⟨x, hx, rfl⟩
      · exact hr
      · exact ⟨x, List.mem_append_left _ (hsame ▸ hx), rfl⟩
    · have hread := h.coherent.read
      rw [← hapi] at hread
      refine hread.mono fun r hr => ?_
      rcases mem_readings_step hr with hr | ⟨x, hx, rfl⟩
      · exact .inl hr
      · rcases hnew x hx with hx | ⟨k, rfl⟩
        · exact .inl ⟨x, List.mem_append_left _ hx, rfl⟩
        · exact .inr ⟨k, rfl⟩
  sent p hp := by
    rcases List.mem_append.mp hp with hp | hp
    · exact h.sent p hp
    · obtain ⟨hread, htime⟩ := publication_spec (Option.mem_toList.mp hp)
      rw [htime]
      exact h.coherent.stamp_lt _ ⟨p.read, List.mem_append_left _ hread, rfl⟩

theorem run_snoc (actions : List Action) (a : Action) :
    run (actions ++ [a]) = (run actions).step a := by
  simp [run]

theorem consistent_run (actions : List Action) : Consistent (run actions) := by
  induction actions using List.reverseRecOn with
  | nil => exact consistent_empty
  | append_singleton actions a ih =>
      rw [run_snoc]
      exact consistent_step ih a

/-! ## The order of the stream -/

/-- A tombstone published because the resource was gone, not because its token
could not be resolved. -/
def ForDeletion (p : Publication) : Prop := p.msg.deleted = true ∧ p.read.gone = true

instance (p : Publication) : Decidable (ForDeletion p) :=
  inferInstanceAs (Decidable (_ ∧ _))

/-- The object a message was built from, by the instant of its creation. -/
def incarnation (p : Publication) : Option Nat := p.read.seen.map (·.created)

/-- What a spec `q` has to satisfy with respect to a message `p` of the same
identity before it: after a tombstone for its deletion the resource was created
again, and the generation of one object does not fall. -/
def Follows (creations : List (CrKey × Nat)) (p q : Publication) : Prop :=
  p.msg.key = q.msg.key → q.msg.deleted = false →
    (ForDeletion p → ∃ c ∈ creations, c.1 = q.msg.key ∧ p.read.stamp < c.2 ∧ c.2 < q.time) ∧
      (p.msg.deleted = false → incarnation p = incarnation q →
        p.msg.generation ≤ q.msg.generation)

instance (creations : List (CrKey × Nat)) : DecidableRel (Follows creations) :=
  fun _ _ => inferInstanceAs (Decidable (_ → _))

/-- The messages published so far are in order. -/
def InOrder (s : State) : Prop := s.log.Pairwise (Follows s.api.creations)

instance (s : State) : Decidable (InOrder s) :=
  inferInstanceAs (Decidable (List.Pairwise _ _))

/-- If the step publishes a spec, it was read no earlier than what the identity's
messages so far were built from. -/
def InReadOrder (s : State) (a : Action) : Prop :=
  ∀ q ∈ s.publication a, q.msg.deleted = false →
    ∀ p ∈ s.log, p.msg.key = q.msg.key → p.read.stamp ≤ q.read.stamp

instance (s : State) (a : Action) : Decidable (InReadOrder s a) :=
  inferInstanceAs (Decidable (∀ q ∈ s.publication a, _))

/-- The same along the log. -/
def ReadOrder (p q : Publication) : Prop :=
  q.msg.deleted = false → p.msg.key = q.msg.key → p.read.stamp ≤ q.read.stamp

theorem follows_of_readOrder {s : State} (h : Consistent s) {p q : Publication}
    (hp : p ∈ s.log) (hq : q ∈ s.log) (horder : ReadOrder p q) :
    Follows s.api.creations p q := by
  intro hkey hlive
  obtain ⟨o, ho, hnot, hqgen⟩ := (describes q).live hlive
  have hsamekey : p.read.key = q.read.key :=
    (describes p).key.symm.trans (hkey.trans (describes q).key)
  obtain ⟨hborn, hmem⟩ := h.coherent.seen _ (mem_readings_of_mem_log hq) o ho
  have hcont := h.coherent.later _ (mem_readings_of_mem_log hp) _ (mem_readings_of_mem_log hq)
    hsamekey (horder hlive hkey) o ho
  rcases hcont with hlt | ⟨a, ha, hcreated, hle⟩
  · -- the object of `q` is newer than the read of `p`
    refine ⟨fun _ => ⟨_, hmem, (describes q).key.symm, hlt, hborn.trans (h.sent q hq)⟩,
      fun hplive hsame => ?_⟩
    obtain ⟨a, ha, -, -⟩ := (describes p).live hplive
    have hacreated := (h.coherent.seen _ (mem_readings_of_mem_log hp) a ha).1
    simp only [incarnation, ha, ho, Option.map_some, Option.some.injEq] at hsame
    omega
  · -- both messages are about the object `p` was built from
    refine ⟨fun hdeletion => ?_, fun hplive _ => ?_⟩
    · have hdeleting : a.value.objectMeta.deleting = true := by
        simpa [Read.gone, ha] using hdeletion.2
      rw [hle.2 hdeleting] at hnot
      cases hnot
    · obtain ⟨a', ha', -, hpgen⟩ := (describes p).live hplive
      cases ha.symm.trans ha'
      rw [hpgen, hqgen]
      exact hle.1

theorem readOrder_step {s : State} {a : Action} (h : s.log.Pairwise ReadOrder)
    (ha : InReadOrder s a) : (s.step a).log.Pairwise ReadOrder := by
  refine List.pairwise_append.mpr ⟨h, ?_, fun p hp q hq hlive hkey => ?_⟩
  · cases s.publication a <;> simp
  · exact ha q (Option.mem_toList.mp hq) hlive p hp hkey

theorem inOrder_of_inReadOrder (actions : List Action)
    (h : ∀ before a, before ++ [a] <+: actions → InReadOrder (run before) a) :
    ∀ before, before <+: actions → InOrder (run before) := by
  have horder : ∀ before, before <+: actions → (run before).log.Pairwise ReadOrder := by
    refine forall_prefix_of List.Pairwise.nil (fun before a hbefore ha => ?_) h
    rw [run_snoc]
    exact readOrder_step hbefore ha
  intro before hbefore
  exact (horder before hbefore).imp_of_mem fun hp hq =>
    follows_of_readOrder (consistent_run before) hp hq

/-! ## A Heartbeat that is deleted during a resync -/

def backup : Heartbeat where
  name := "backup"
  ns := "default"
  generation := 1
  deletionTimestamp := none
  spec := ⟨60000000000, 0, false, none, [], ∅⟩
  status := { lastPingTime := none, lastResult := "" }

def backupKey : CrKey := (Resource.heartbeat backup).key

/-- Every call succeeds, and the token is sixteen bytes `a`. -/
def allWell : Outside := ⟨fun _ => .ok ∅, some (List.replicate 16 97), true, true⟩

/-- The Heartbeat is reconciled, updated and resynced, deleted and reconciled, and then created
again and reconciled. -/
def updatedRecreated : List Action :=
  [.create (.heartbeat backup), .get backupKey, .reconcile 0 allWell,
    .update (.heartbeat { backup with generation := 2 }), .resync, .list (some []),
    .list (some []), .list (some []), .list (some []), .list (some [backupKey]),
    .resyncItem allWell, .remove backupKey, .get backupKey, .reconcile 0 allWell,
    .create (.heartbeat backup), .get backupKey, .reconcile 0 allWell]

theorem updatedRecreated_inOrder :
    ((run updatedRecreated).log.map fun p => (p.msg.key, p.msg.deleted, p.msg.generation)) =
        [(backupKey, false, 1), (backupKey, false, 2), (backupKey, true, 0),
          (backupKey, false, 1)] ∧
      InOrder (run updatedRecreated) :=
  ⟨by decide +kernel, inOrder_of_inReadOrder updatedRecreated
    (forall_step_of_take (by decide +kernel)) updatedRecreated (List.prefix_refl _)⟩

/-- The resyncer lists the Heartbeat, then it is deleted and its tombstone
published, then the resyncer goes on with its list. -/
def staleResync : List Action :=
  [.create (.heartbeat backup), .resync, .list (some []), .list (some []), .list (some []),
    .list (some []), .list (some [backupKey]), .remove backupKey, .get backupKey,
    .reconcile 0 allWell, .resyncItem allWell]

theorem staleResync_not_inOrder : ¬ InOrder (run staleResync) := by
  decide +kernel

end SyntheticsOperator.Proofs.SpecStream
