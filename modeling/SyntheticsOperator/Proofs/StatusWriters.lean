import SyntheticsOperator.Controllers.StatusWriters

/-!
# The two writers of a Heartbeat's status

The reconciler and the ping writer patch the status of one object, each from what its cache
has, and neither sends a version.  They do not lose each other's updates: no field is
written by both, and neither reads a field of the other.
-/

namespace SyntheticsOperator.Proofs.StatusWriters

open SyntheticsOperator.Api
open SyntheticsOperator.Controllers
open SyntheticsOperator.Controllers.HeartbeatReconciler
open SyntheticsOperator.Support
open SyntheticsOperator.Support.MergePatch
open SyntheticsOperator.Support.Program

/-! ## The patches of the reconciler -/

section Patches

variable (beat : Heartbeat)

/-- A patch of the status is sent for the Heartbeat that was read, and it is one that
`ReconcileOp` describes. -/
def PatchesStatus : HeartbeatRequest → Prop
  | .patchStatus key status => key = ⟨beat.ns, beat.name⟩ ∧
      ∃ op : ReconcileOp, op.act beat = some { beat with status := status }
  | _ => True

variable {beat}

theorem ensures_readModifyWrite (key : NamespacedName) (fresh : Secret)
    (mutate : Secret → Except String (Secret × GoString)) :
    Ensures (fun _ _ => True) (PatchesStatus beat) (fun _ => True)
      (readModifyWrite key fresh mutate) := by
  refine ⟨trivial, fun answer _ => ?_⟩
  match answer with
  | .error .notFound =>
      cases mutate fresh with
      | error err => trivial
      | ok result =>
          refine ⟨trivial, fun answer' _ => ?_⟩
          cases answer' <;> trivial
  | .error (.failed err) => trivial
  | .ok existing =>
      simp only
      cases mutate existing with
      | error err => trivial
      | ok result =>
          simp only
          split
          · trivial
          · refine ⟨trivial, fun answer' _ => ?_⟩
            cases answer' <;> trivial

theorem ensures_mintToken {r : HeartbeatReconciler} (hr : r.ReadsModifiesWrites) :
    Ensures (fun _ _ => True) (PatchesStatus beat) (fun _ => True) (mintToken r beat) := by
  rw [ReadsModifiesWrites] at hr
  simp only [mintToken, hr]
  refine ⟨trivial, fun answer _ => ?_⟩
  cases answer with
  | error err => trivial
  | ok buf =>
      refine ensures_bind.mpr ((ensures_readModifyWrite _ _ _).mono fun result _ => ?_)
      cases result <;> trivial

theorem ensures_resolveToken (quoteRune : GoString → String) {r : HeartbeatReconciler}
    (hr : r.ReadsModifiesWrites) :
    Ensures (fun _ _ => True) (PatchesStatus beat) (fun _ => True)
      (resolveToken quoteRune r beat) := by
  unfold resolveToken
  cases beat.spec.tokenSecretRef with
  | some ref =>
      refine ensures_bind.mpr ⟨trivial, fun answer _ => ?_⟩
      match answer with
      | .error .notFound => trivial
      | .error (.failed err) => trivial
      | .ok secret =>
          rw [ensures_done]
          split <;> trivial
  | none =>
      refine ⟨trivial, fun answer _ => ?_⟩
      match answer with
      | .ok secret =>
          simp only
          split
          · trivial
          · exact ensures_mintToken hr
      | .error .notFound => exact ensures_mintToken hr
      | .error (.failed err) => trivial

theorem ensures_syncSecretURL (secretName : String) (url : GoString) :
    Ensures (fun _ _ => True) (PatchesStatus beat) (fun _ => True)
      (syncSecretURL beat secretName url) := by
  unfold syncSecretURL
  split
  · trivial
  · refine ⟨trivial, fun answer _ => ?_⟩
    match answer with
    | .error .notFound => trivial
    | .error (.failed err) => trivial
    | .ok secret =>
        simp only
        split
        · trivial
        · exact ⟨trivial, fun _ _ => trivial⟩

theorem ensures_patchStatus (kube : Kube) (now : Time)
    (outcome : Except TokenError (GoString × String)) :
    Ensures (fun _ _ => True) (PatchesStatus beat) (fun _ => True)
      (patchStatus beat ((ReconcileOp.mk kube now outcome true).status beat)) := by
  unfold patchStatus
  split
  · rename_i hchanged
    refine ⟨⟨rfl, ⟨kube, now, outcome, true⟩, ?_⟩, fun _ _ => trivial⟩
    simp [ReconcileOp.act, hchanged]
  · trivial

/-- Whatever the calls answer, `Reconcile` patches the status as `ReconcileOp` says. -/
theorem ensures_reconcileBeat (quoteRune : GoString → String) {r : HeartbeatReconciler}
    (hr : r.ReadsModifiesWrites) :
    Ensures (fun _ _ => True) (PatchesStatus beat) (fun _ => True)
      (reconcileBeat quoteRune r beat) := by
  refine ⟨trivial, fun now _ => ?_⟩
  refine ensures_bind.mpr ((ensures_resolveToken quoteRune hr).mono fun result _ => ?_)
  match result with
  | .error err =>
      refine ⟨trivial, fun answer _ => ?_⟩
      cases answer with
      | error err => trivial
      | ok _ =>
          refine (ensures_bind (p := patchStatus beat _)).mpr
            ((ensures_patchStatus r.kube now (.error err)).mono fun result' _ => ?_)
          cases result' <;> trivial
  | .ok (token, secretName) =>
      refine ensures_bind.mpr ((ensures_syncSecretURL secretName _).mono fun synced _ => ?_)
      cases synced with
      | error err => trivial
      | ok _ =>
          refine ⟨trivial, fun answer _ => ?_⟩
          cases answer with
          | error err => trivial
          | ok _ =>
              refine (ensures_bind (p := patchStatus beat _)).mpr
                ((ensures_patchStatus r.kube now (.ok (r.pingURL token, secretName))).mono
                  fun result' _ => ?_)
              cases result' <;> trivial

end Patches

/-! ## Any interleaving -/

/-- The writers of the group are a user and one other. -/
def With (w : HeartbeatWriter) (w' : HeartbeatWriter) : Prop := w' = .user ∨ w' = w

instance (w : HeartbeatWriter) : DecidablePred (With w) :=
  fun _ => inferInstanceAs (Decidable (_ ∨ _))

theorem with_closed (w w' : HeartbeatWriter) (hw' : With w w') (f : HeartbeatField)
    (hf : w'.Reads f) : With w (HeartbeatWriter.owner f) := by
  rcases hf with rfl | rfl
  · exact hw'
  · exact .inl rfl

/-- For every Heartbeat and every interleaving of edits, reconciles and pings, each with a
read of any age and a patch that may fail: what the reconciler patches is described by
`ReconcileOp`; every field is at every instant what it would be if, of the two controllers,
only its owner were running; and a patch from a read in which the fields of its writer are
current sets all of them and no others. -/
theorem no_update_lost (quoteRune : GoString → String) (r : HeartbeatReconciler)
    (hr : r.ReadsModifiesWrites) (s : Store heartbeatWriters)
    (events : List (Event heartbeatWriters)) :
    (∀ beat, Ensures (fun _ _ => True) (PatchesStatus beat) (fun _ => True)
      (reconcileBeat quoteRune r beat)) ∧
    (∀ age f, (s.run events).read age f =
      (s.run (events.map (silence (With (HeartbeatWriter.owner f))))).read age f) ∧
    ∀ (w : HeartbeatWriter) (op : w.Op) (age : Nat) (new : ∀ f, HeartbeatField.Value f),
      (w.act ((s.run events).states w) op ((s.run events).read age)).2 = some new →
      (∀ f, HeartbeatWriter.owner f = w →
        (s.run events).read age f = (s.run events).current f) →
      ∀ f, ((s.run events).step (.write w op age)).current f =
        if HeartbeatWriter.owner f = w then new f else (s.run events).current f := by
  refine ⟨fun beat => ensures_reconcileBeat quoteRune hr, fun age f => ?_,
    fun w op age new hnew hcurrent f => ?_⟩
  · have hagree := run_silence (D := With (HeartbeatWriter.owner f)) s
      (with_closed _) events
    exact hagree.read age f (.inr rfl)
  · have hstep : ((s.run events).step (.write w op age)).current =
        apply (diff ((s.run events).read age) new) (s.run events).current := by
      have hact : (heartbeatWriters.act w ((s.run events).states w) op
          ((s.run events).read age)).2 = some new := hnew
      simp only [Store.step, hact]
    rw [hstep]
    split
    · rename_i howner
      exact apply_diff_of_current (hcurrent f howner).symm
    · rename_i howner
      exact apply_diff_of_eq (HeartbeatWriter.act_frame hnew f howner)

/-- A Heartbeat without a status, and a new ping writer. -/
def nightlyStore : Store heartbeatWriters where
  current := heartbeatFields
    { name := "nightly", ns := "default", generation := 1, deletionTimestamp := none
      spec := ⟨3600000000000, 0, false, none, [], ∅⟩
      status := { lastPingTime := none, lastResult := "" } }
  past := []
  states
    | .pingWriter => ⟨0, ∅⟩
    | .user => ()
    | .reconciler => ()

/-- A reconcile, and a ping whose read is older than the patch of the reconcile. -/
def nightlyEvents : List (Event heartbeatWriters) :=
  [.write .reconciler
      ⟨.sample, ⟨0⟩, .ok (GoString.lit "https://hb.example.com/t", "nightly-heartbeat"), true⟩ 0,
    .write .pingWriter (.ping ⟨"nightly", "default", ⟨60000000000⟩, true, 1, []⟩ true) 1]

/-- Both patches are there afterwards. -/
theorem no_update_lost_stale_read :
    (nightlyStore.run nightlyEvents).read 0 .url = GoString.lit "https://hb.example.com/t" ∧
      (nightlyStore.run nightlyEvents).read 0 .lastPingTime = some 60 ∧
      (nightlyStore.run nightlyEvents).read 0 .lastResult = "failed" := by
  have h := (no_update_lost (fun _ => "") ⟨[], .sample, readModifyWrite⟩ rfl nightlyStore
    nightlyEvents).2.1 0
  rw [h .url, h .lastPingTime, h .lastResult]
  decide +kernel

end SyntheticsOperator.Proofs.StatusWriters
