import SyntheticsOperator.Proofs.Tombstone

/-!
# The entries of one identity

What the five maps of the store have for one identity, and what a message does to it: a
message about the identity acts on its entries alone, whatever else the store holds, and any
other message leaves them (`entries_run`).
-/

namespace SyntheticsOperator.Proofs.Identity

open SyntheticsOperator.Api
open SyntheticsOperator.Heartbeat
open SyntheticsOperator.Metrics
open SyntheticsOperator.MetricsConsumer
open SyntheticsOperator.Proofs.Tombstone (SameAt sameAt_handle)
open SyntheticsOperator.Results (SpecUpdate TestResult HeartbeatPing)
open SyntheticsOperator.Support

/-- The entries of one identity in the five maps. -/
@[ext]
structure Entries where
  probe : Option ProbeState
  test : Option TestState
  heartbeat : Option Lifecycle.State
  depends : Option (List DependencyRef)
  metricLabels : Option Results.StringMap

def entries (s : Store) (key : CrKey) : Entries where
  probe := s.probes.lookup key
  test := s.tests.lookup key
  heartbeat := s.heartbeats.lookup key
  depends := s.depends.lookup key
  metricLabels := s.metricLabels.lookup key

theorem entries_eq_of_sameAt {key : CrKey} {s s' : Store} (h : SameAt key s s') :
    entries s key = entries s' key :=
  Entries.ext h.probes h.tests h.heartbeats h.depends h.metricLabels

/-- The state that a test result leads to. -/
def testState (msg : TestResult) : TestState where
  kind := msg.kind
  result := resultFromSuccess msg.success
  durationMilliseconds := msg.durationMs
  lastRunTimestamp := msg.timestamp.unix
  playwrightTests := if msg.kind = .playwrightTest then msg.tests else []

theorem onTestResult_testState (s : Store) (msg : TestResult) :
    onTestResult s msg = s.upsertTest ⟨msg.ns, msg.name⟩ (testState msg) := by
  unfold onTestResult testState
  split
  · rename_i hkind
    simp [Store.recordPlaywrightResult, hkind]
  · rfl

/-- What a live spec does to the entry of a Heartbeat. -/
def specState (h : Option Lifecycle.State) (msg : SpecUpdate) : Option Lifecycle.State :=
  match msg.kind, msg.heartbeat with
  | .heartbeat, some payload =>
      some (Lifecycle.applySpec (h.getD .zero) h.isSome (payload.periodMs / 1000)
        (payload.graceMs / 1000) msg.suspend
        ⟨payload.lastPingUnix, payload.lastResult = HeartbeatStatus.resultFailed⟩)
  | _, _ => h

def pingState (h : Option Lifecycle.State) (msg : HeartbeatPing) : Lifecycle.State :=
  Lifecycle.recordPing (h.getD .zero) msg.failed msg.exitCode msg.receivedAt.unix

/-- What a message about the identity does to its entries. -/
def Entries.handle (e : Entries) : Message → Entries
  | .spec msg =>
      if msg.deleted then ⟨none, none, none, none, none⟩
      else
        { e with
          heartbeat := specState e.heartbeat msg
          depends := if msg.depends.length = 0 then none else some (toAPIDepends msg.depends)
          metricLabels :=
            if msg.metricLabels.keys.card = 0 then none else some msg.metricLabels }
  | .probeResult msg => { e with probe := some (probeState msg) }
  | .testResult msg => { e with test := some (testState msg) }
  | .ping _ msg => { e with heartbeat := some (pingState e.heartbeat msg) }

theorem setDepends_lookup_self (s : Store) (key : CrKey) (deps : List DependencyRef) :
    (s.setDepends key.kind key.name deps).depends.lookup key =
      if deps.length = 0 then none else some deps := by
  unfold Store.setDepends
  split
  · exact Finmap.lookup_erase _ _
  · exact Finmap.lookup_insert _

theorem setMetricLabels_lookup_self (s : Store) (key : CrKey) (labels : Results.StringMap) :
    (s.setMetricLabels key.kind key.name labels).metricLabels.lookup key =
      if labels.keys.card = 0 then none else some labels := by
  unfold Store.setMetricLabels
  split
  · exact Finmap.lookup_erase _ _
  · exact Finmap.lookup_insert _

theorem setMetricLabels_depends (s : Store) (kind : Kind) (name : NamespacedName)
    (labels : Results.StringMap) : (s.setMetricLabels kind name labels).depends = s.depends := by
  unfold Store.setMetricLabels
  split <;> rfl

/-- The two maps that a live spec of any kind writes. -/
def withSpec (s : Store) (msg : SpecUpdate) : Store :=
  (s.setDepends msg.kind ⟨msg.ns, msg.name⟩ (toAPIDepends msg.depends)).setMetricLabels msg.kind
    ⟨msg.ns, msg.name⟩ msg.metricLabels

theorem entries_withSpec (s : Store) (msg : SpecUpdate) :
    entries (withSpec s msg) msg.key =
      { entries s msg.key with
        depends := if msg.depends.length = 0 then none else some (toAPIDepends msg.depends)
        metricLabels :=
          if msg.metricLabels.keys.card = 0 then none else some msg.metricLabels } := by
  have hdepends := setDepends_lookup_self s msg.key (toAPIDepends msg.depends)
  have hlabels := setMetricLabels_lookup_self
    (s.setDepends msg.kind ⟨msg.ns, msg.name⟩ (toAPIDepends msg.depends)) msg.key msg.metricLabels
  ext : 1
  · simp [entries, withSpec]
  · simp [entries, withSpec]
  · simp [entries, withSpec]
  · simp only [entries, withSpec, setMetricLabels_depends]
    exact hdepends.trans (by simp [toAPIDepends])
  · exact hlabels

theorem onSpec_live (s : Store) {msg : SpecUpdate} (hlive : msg.deleted = false) :
    onSpec s msg =
      match msg.kind, msg.heartbeat with
      | .heartbeat, some payload =>
          (withSpec s msg).setHeartbeatSpec ⟨msg.ns, msg.name⟩ (payload.periodMs / 1000)
            (payload.graceMs / 1000) msg.suspend payload.lastPingUnix
            (payload.lastResult = HeartbeatStatus.resultFailed)
      | _, _ => withSpec s msg := by
  unfold onSpec withSpec
  rw [hlive]
  rfl

theorem entries_setHeartbeatSpec (s : Store) (name : NamespacedName) (period grace : ℚ)
    (suspend : Bool) (seedPingUnix : ℚ) (seedFailed : Bool) :
    entries (s.setHeartbeatSpec name period grace suspend seedPingUnix seedFailed)
        ⟨.heartbeat, name⟩ =
      { entries s ⟨.heartbeat, name⟩ with
        heartbeat := some (Lifecycle.applySpec
          ((entries s ⟨.heartbeat, name⟩).heartbeat.getD .zero)
          (entries s ⟨.heartbeat, name⟩).heartbeat.isSome period grace suspend
          ⟨seedPingUnix, seedFailed⟩) } := by
  ext : 1
  case heartbeat => exact Finmap.lookup_insert _
  all_goals rfl

theorem entries_onSpec (s : Store) (msg : SpecUpdate) :
    entries (onSpec s msg) msg.key = (entries s msg.key).handle (.spec msg) := by
  cases hdeleted : msg.deleted with
  | true =>
      simp only [onSpec, Entries.handle, hdeleted, if_true]
      ext : 1 <;> exact Finmap.lookup_erase _ _
  | false =>
      have hspec := entries_withSpec s msg
      rw [onSpec_live s hdeleted]
      simp only [Entries.handle, hdeleted, Bool.false_eq_true, if_false, specState]
      split
      · rename_i hkind hpayload
        have hkey : msg.key = ⟨.heartbeat, ⟨msg.ns, msg.name⟩⟩ := by rw [SpecUpdate.key, hkind]
        rw [hkey] at hspec ⊢
        rw [entries_setHeartbeatSpec, hspec]
      · exact hspec

theorem entries_handle_self (s : Store) (m : Message) :
    entries (handle s m) m.key = (entries s m.key).handle m := by
  cases m with
  | spec msg => exact entries_onSpec s msg
  | probeResult msg =>
      ext : 1
      case probe => exact Finmap.lookup_insert _
      all_goals rfl
  | testResult msg =>
      simp only [handle, onTestResult_testState]
      ext : 1
      case test => exact Finmap.lookup_insert _
      all_goals rfl
  | ping now msg =>
      ext : 1
      case heartbeat => exact Finmap.lookup_insert _
      all_goals rfl

/-- The messages about one identity, which alone decide its entries. -/
def about (key : CrKey) (messages : List Message) : List Message :=
  messages.filter fun m => m.key = key

theorem entries_run (s : Store) (key : CrKey) (messages : List Message) :
    entries (run s messages) key = (about key messages).foldl Entries.handle (entries s key) := by
  induction messages using List.reverseRecOn with
  | nil => rfl
  | append_singleton messages m ih =>
      rw [run_snoc, about, List.filter_append, List.foldl_append, ← about, ← ih]
      by_cases hkey : m.key = key
      · subst hkey
        simp [entries_handle_self]
      · rw [entries_eq_of_sameAt (sameAt_handle _ (Ne.symm hkey))]
        simp [hkey]

end SyntheticsOperator.Proofs.Identity
