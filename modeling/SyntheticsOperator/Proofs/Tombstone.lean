import SyntheticsOperator.MetricsConsumer.Consumer
import SyntheticsOperator.Proofs.Suppression
import SyntheticsOperator.Support.Histories

/-!
# Tombstones in the metrics store

A tombstone clears an identity from all five maps, and messages about other
identities leave it cleared.  A result or ping of the identity that is processed
after its tombstone creates an entry again, and the entry stays until another
tombstone: the store is clean after every tombstone exactly when no such message
follows one.
-/

namespace SyntheticsOperator.Proofs.Tombstone

open SyntheticsOperator.Api
open SyntheticsOperator.Metrics
open SyntheticsOperator.MetricsConsumer
open SyntheticsOperator.Proofs.Suppression
open SyntheticsOperator.Results (SpecUpdate)
open SyntheticsOperator.Support
open SyntheticsOperator.Support.Histories

/-! ## What a message does to the entries of one identity -/

/-- Two stores have the same entries for `key`. -/
structure SameAt (key : CrKey) (s s' : Store) : Prop where
  probes : s.probes.lookup key = s'.probes.lookup key
  tests : s.tests.lookup key = s'.tests.lookup key
  heartbeats : s.heartbeats.lookup key = s'.heartbeats.lookup key
  depends : s.depends.lookup key = s'.depends.lookup key
  metricLabels : s.metricLabels.lookup key = s'.metricLabels.lookup key

theorem SameAt.rfl {key : CrKey} {s : Store} : SameAt key s s :=
  ⟨by rfl, by rfl, by rfl, by rfl, by rfl⟩

theorem SameAt.trans {key : CrKey} {s s' s'' : Store} (h : SameAt key s s')
    (h' : SameAt key s' s'') : SameAt key s s'' :=
  ⟨h.probes.trans h'.probes, h.tests.trans h'.tests, h.heartbeats.trans h'.heartbeats,
    h.depends.trans h'.depends, h.metricLabels.trans h'.metricLabels⟩

section Frame

variable {key : CrKey} {kind : Kind} {name : NamespacedName} (s : Store)

theorem sameAt_upsert {state : ProbeState} (hne : key ≠ ⟨state.kind, name⟩) :
    SameAt key (s.upsert name state).1 s :=
  { SameAt.rfl with probes := Finmap.lookup_insert_of_ne _ hne }

theorem sameAt_upsertTest {state : TestState} (hne : key ≠ ⟨state.kind, name⟩) :
    SameAt key (s.upsertTest name state).1 s :=
  { SameAt.rfl with tests := Finmap.lookup_insert_of_ne _ hne }

theorem sameAt_recordHeartbeatPing {now : Time} {failed : Bool} {exitCode : Int}
    {receivedUnix : ℚ} (hne : key ≠ ⟨.heartbeat, name⟩) :
    SameAt key (s.recordHeartbeatPing now name failed exitCode receivedUnix).1 s :=
  { SameAt.rfl with heartbeats := Finmap.lookup_insert_of_ne _ hne }

theorem sameAt_setHeartbeatSpec {period grace ping : ℚ} {suspend failed : Bool}
    (hne : key ≠ ⟨.heartbeat, name⟩) :
    SameAt key (s.setHeartbeatSpec name period grace suspend ping failed) s :=
  { SameAt.rfl with heartbeats := Finmap.lookup_insert_of_ne _ hne }

theorem sameAt_setDepends {deps : List DependencyRef} (hne : key ≠ ⟨kind, name⟩) :
    SameAt key (s.setDepends kind name deps) s := by
  unfold Store.setDepends
  split
  · exact { SameAt.rfl with depends := Finmap.lookup_erase_ne hne }
  · exact { SameAt.rfl with depends := Finmap.lookup_insert_of_ne _ hne }

theorem sameAt_setMetricLabels (labels : Results.StringMap) (hne : key ≠ ⟨kind, name⟩) :
    SameAt key (s.setMetricLabels kind name labels) s := by
  unfold Store.setMetricLabels
  split
  · exact { SameAt.rfl with metricLabels := Finmap.lookup_erase_ne hne }
  · exact { SameAt.rfl with metricLabels := Finmap.lookup_insert_of_ne _ hne }

theorem sameAt_onSpec {msg : SpecUpdate} (hne : key ≠ msg.key) : SameAt key (onSpec s msg) s := by
  unfold onSpec
  split
  · exact ⟨Finmap.lookup_erase_ne hne, Finmap.lookup_erase_ne hne, Finmap.lookup_erase_ne hne,
      Finmap.lookup_erase_ne hne, Finmap.lookup_erase_ne hne⟩
  · have hset := (sameAt_setMetricLabels
      (s.setDepends msg.kind ⟨msg.ns, msg.name⟩ (toAPIDepends msg.depends)) msg.metricLabels
        hne).trans
        (sameAt_setDepends s hne)
    split
    · rename_i hkind _
      exact (sameAt_setHeartbeatSpec _ (hkind ▸ hne)).trans hset
    · exact hset

/-- A message about another identity changes nothing. -/
theorem sameAt_handle {m : Message} (hne : key ≠ m.key) : SameAt key (handle s m) s := by
  cases m with
  | spec msg => exact sameAt_onSpec s hne
  | probeResult msg => exact sameAt_upsert s hne
  | testResult msg =>
      obtain ⟨state, hkey, heq⟩ := onTestResult_eq s msg
      rw [handle, heq]
      exact sameAt_upsertTest s fun h => hne (h.trans hkey.symm)
  | ping now msg => exact sameAt_recordHeartbeatPing s hne

end Frame

/-- No map has an entry for `key`. -/
structure Absent (s : Store) (key : CrKey) : Prop where
  probes : s.probes.lookup key = none
  tests : s.tests.lookup key = none
  heartbeats : s.heartbeats.lookup key = none
  depends : s.depends.lookup key = none
  metricLabels : s.metricLabels.lookup key = none

theorem SameAt.absent_iff {key : CrKey} {s s' : Store} (h : SameAt key s s') :
    Absent s key ↔ Absent s' key := by
  constructor
  · intro ha
    exact ⟨h.probes ▸ ha.probes, h.tests ▸ ha.tests, h.heartbeats ▸ ha.heartbeats,
      h.depends ▸ ha.depends, h.metricLabels ▸ ha.metricLabels⟩
  · intro ha
    exact ⟨h.probes.trans ha.probes, h.tests.trans ha.tests, h.heartbeats.trans ha.heartbeats,
      h.depends.trans ha.depends, h.metricLabels.trans ha.metricLabels⟩

theorem absent_onSpec (s : Store) {msg : SpecUpdate} (hdeleted : msg.deleted = true) :
    Absent (onSpec s msg) msg.key := by
  rw [onSpec, if_pos hdeleted]
  exact ⟨Finmap.lookup_erase _ _, Finmap.lookup_erase _ _, Finmap.lookup_erase _ _,
    Finmap.lookup_erase _ _, Finmap.lookup_erase _ _⟩

theorem not_absent_handle (s : Store) {m : Message} (hresult : m.isResult = true) :
    ¬ Absent (handle s m) m.key := by
  intro habsent
  cases m with
  | spec msg => cases hresult
  | probeResult msg =>
      have hprobe := Finmap.lookup_insert (a := msg.key) (b := probeState msg) s.probes
      exact Option.some_ne_none _ (hprobe.symm.trans habsent.probes)
  | testResult msg =>
      obtain ⟨state, hkey, heq⟩ := onTestResult_eq s msg
      have hnone := habsent.tests
      rw [handle, heq, Message.key, hkey] at hnone
      exact Option.some_ne_none _ ((Finmap.lookup_insert s.tests).symm.trans hnone)
  | ping now msg =>
      exact Option.some_ne_none _
        ((Finmap.lookup_insert s.heartbeats).symm.trans habsent.heartbeats)

/-! ## Absent identities -/

/-- Nothing of `key` is left: no entry, no series in a scrape, and the walk
never answers with it. -/
structure Silent (s : Store) (key : CrKey) : Prop where
  absent : Absent s key
  series : ∀ now o, (key, o) ∉ s.scrape now
  suppresses : ∀ now (origin : CrKey) d,
    s.findUnhealthyDep now origin.kind origin.name = some d → d.key origin.name.ns ≠ key

theorem Absent.silent {s : Store} {key : CrKey} (h : Absent s key) : Silent s key := by
  refine ⟨h, fun now o ho => ?_, fun now origin d hd hkey => ?_⟩
  · rcases Store.mem_scrape.mp ho with ⟨_, hlookup, _⟩ | ⟨_, hlookup, _⟩ | ⟨_, hlookup, _⟩
    · exact Option.some_ne_none _ (hlookup.symm.trans h.probes)
    · exact Option.some_ne_none _ (hlookup.symm.trans h.tests)
    · exact Option.some_ne_none _ (hlookup.symm.trans h.heartbeats)
  · obtain ⟨_, _, hfailing⟩ := findUnhealthyDep_sound hd
    rw [hkey] at hfailing
    rcases hfailing.entry with ⟨_, hlookup⟩ | ⟨_, hlookup⟩ | ⟨_, hlookup, _⟩
    · exact Option.some_ne_none _ (hlookup.symm.trans h.probes)
    · exact Option.some_ne_none _ (hlookup.symm.trans h.tests)
    · exact Option.some_ne_none _ (hlookup.symm.trans h.heartbeats)

/-! ## Every interleaving -/

/-- The spec update of `key` in a message. -/
def specOf (key : CrKey) : Message → Option SpecUpdate
  | .spec msg => if msg.key = key then some msg else none
  | _ => none

theorem specOf_other {key : CrKey} {m : Message} (hm : m.isResult = true ∨ m.key ≠ key) :
    specOf key m = none := by
  cases m with
  | spec msg => exact if_neg (hm.resolve_left (by simp [Message.isResult]))
  | _ => rfl

/-- The last processed spec update of `key` is a tombstone. -/
def Tombstoned (key : CrKey) (messages : List Message) : Prop :=
  (lastSome (specOf key) messages).any (·.deleted) = true

instance (key : CrKey) (messages : List Message) : Decidable (Tombstoned key messages) :=
  inferInstanceAs (Decidable (_ = true))

/-- `m` is a result or ping of `key`. -/
def ResultOf (key : CrKey) (m : Message) : Prop :=
  m.isResult = true ∧ m.key = key

theorem tombstoned_snoc_spec {key : CrKey} {msg : SpecUpdate} (p : List Message)
    (hkey : msg.key = key) : Tombstoned key (p ++ [.spec msg]) ↔ msg.deleted = true := by
  simp [Tombstoned, specOf, hkey]

theorem tombstoned_snoc_other {key : CrKey} {m : Message} (p : List Message)
    (hm : m.isResult = true ∨ m.key ≠ key) :
    Tombstoned key (p ++ [m]) ↔ Tombstoned key p := by
  rw [Tombstoned, lastSome_snoc, specOf_other hm, Option.none_or, Tombstoned]

/-- One more message keeps the identity silent after a tombstone exactly when it
is not a late result. -/
theorem silent_snoc_iff (s : Store) (key : CrKey) (p : List Message) (m : Message)
    (hp : Tombstoned key p → Silent (run s p) key) :
    (Tombstoned key (p ++ [m]) → Silent (run s (p ++ [m])) key) ↔
      (ResultOf key m → ¬ Tombstoned key p) := by
  rw [run_snoc]
  by_cases hkey : m.key = key
  · by_cases hresult : m.isResult = true
    · -- a late result creates an entry
      have hloud : ¬ Silent (handle (run s p) m) key :=
        fun h => not_absent_handle (run s p) hresult (hkey ▸ h.absent)
      rw [tombstoned_snoc_other p (.inl hresult)]
      exact ⟨fun h _ htomb => hloud (h htomb), fun h htomb => absurd htomb (h ⟨hresult, hkey⟩)⟩
    · -- a spec update decides by itself
      refine ⟨fun _ h => absurd h.1 hresult, fun _ htomb => ?_⟩
      cases m with
      | spec msg =>
          have hdeleted := (tombstoned_snoc_spec p hkey).mp htomb
          exact hkey ▸ (absent_onSpec (run s p) hdeleted).silent
      | _ => exact absurd rfl hresult
  · refine ⟨fun _ h => absurd h.2 hkey, fun _ htomb => ?_⟩
    have hbefore := hp ((tombstoned_snoc_other p (.inr hkey)).mp htomb)
    have hsame := sameAt_handle (run s p) (Ne.symm hkey)
    exact (hsame.absent_iff.mpr hbefore.absent).silent

/-- For every store, every interleaving of the four streams and every identity:
the identity is silent whenever its last processed spec update is a tombstone,
exactly when none of its results and pings is processed in such a state. -/
theorem tombstone_final_iff (s : Store) (messages : List Message) (key : CrKey) :
    (∀ p, p <+: messages → Tombstoned key p → Silent (run s p) key) ↔
      ∀ p m, p ++ [m] <+: messages → ResultOf key m → ¬ Tombstoned key p :=
  forall_prefix_iff (P := fun p => Tombstoned key p → Silent (run s p) key)
    (fun h => by cases h) (silent_snoc_iff s key) messages

/-- `db` is created and deleted, and the result of a run that was in flight
arrives last. -/
def lateResult : List Message :=
  [.spec { kind := .httpProbe, name := "db", ns := "default" },
    .spec { kind := .httpProbe, name := "web", ns := "default",
            depends := [⟨.httpProbe, "db"⟩] },
    .spec { kind := .httpProbe, name := "db", ns := "default", deleted := true },
    .probeResult { kind := .httpProbe, name := "db", ns := "default", timestamp := ⟨0⟩,
                   result := "connect_refused" }]

/-- The deleted probe has an entry again and suppresses its dependent. -/
theorem lateResult_resurrects :
    Tombstoned (probeKey "db") lateResult ∧
      ¬ Silent (run Store.empty lateResult) (probeKey "db") ∧
      (run Store.empty lateResult).findUnhealthyDep ⟨0⟩ .httpProbe ⟨"default", "web"⟩ =
        some (probeRef "db") := by
  have hfind : (run Store.empty lateResult).findUnhealthyDep ⟨0⟩ .httpProbe
      ⟨"default", "web"⟩ = some (probeRef "db") := by
    decide
  refine ⟨by decide, fun h => ?_, hfind⟩
  exact h.suppresses ⟨0⟩ (probeKey "web") (probeRef "db") hfind rfl

end SyntheticsOperator.Proofs.Tombstone
