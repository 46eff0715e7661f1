import Mathlib.Algebra.Order.Archimedean.Basic
import SyntheticsOperator.Proofs.Tombstone

/-!
# Suspended resources in the suppression walk

Only a Heartbeat carries its suspension into the store.  A probe or test that is
suspended keeps its last result, and a result of it that arrives later is stored as
well; either can make the walk answer with a resource that nobody evaluates.
-/

namespace SyntheticsOperator.Proofs.Suspension

open SyntheticsOperator.Api
open SyntheticsOperator.Heartbeat.Lifecycle (State recordPing recordPing_suspended
  applySpec_suspended)
open SyntheticsOperator.Metrics
open SyntheticsOperator.MetricsConsumer
open SyntheticsOperator.Proofs.Suppression
open SyntheticsOperator.Proofs.Tombstone
open SyntheticsOperator.Results (SpecUpdate)
open SyntheticsOperator.Support
open SyntheticsOperator.Support.Histories

/-! ## Resources that fail at no time -/

/-- What the store holds for `key` fails at no clock value. -/
def quiet (s : Store) (key : CrKey) : Bool :=
  match key.kind with
  | .httpProbe | .dnsProbe | .tcpProbe => (s.probes.lookup key).all fun st => st.result = .ok
  | .k6Test | .playwrightTest => (s.tests.lookup key).all fun st => st.result = .ok
  | .heartbeat => (s.heartbeats.lookup key).all fun st => st.suspended
  | .other _ => true

/-- A Heartbeat that is evaluated is late at some time, if it is not failing before. -/
theorem exists_evaluate_ne (st : State) :
    ∃ now, heartbeatResult (st.evaluate now) ≠ .ok := by
  by_cases hpending : st.lastPingUnix ≤ 0
  · exact ⟨⟨0⟩, by simp [State.evaluate, hpending, heartbeatResult]⟩
  · obtain ⟨n, hn⟩ := exists_int_gt st.deadline
    have hunix : (⟨n * 1000000000⟩ : Time).unix = n := Int.mul_ediv_cancel n (by decide)
    refine ⟨⟨n * 1000000000⟩, ?_⟩
    simp [State.evaluate, hpending, hunix, hn, heartbeatResult]

theorem quiet_iff (s : Store) (key : CrKey) :
    quiet s key = true ↔ ∀ now, ¬ Failing s now key := by
  have hclock : Nonempty Time := ⟨⟨0⟩⟩
  obtain ⟨kind, name⟩ := key
  cases kind with
  | other text => simp [quiet, Failing, Store.isFailingLocked]
  | heartbeat =>
      simp only [quiet, Failing, Store.isFailingLocked]
      cases s.heartbeats.lookup ⟨.heartbeat, name⟩ with
      | none => simp
      | some st =>
          obtain ⟨now, hnow⟩ := exists_evaluate_ne st
          cases hsuspended : st.suspended with
          | true => simp [hsuspended]
          | false =>
              simp only [Option.all_some, hsuspended, Bool.false_eq_true, false_iff, not_forall,
                not_not]
              exact ⟨now, by simp [hnow]⟩
  | k6Test | playwrightTest =>
      simp only [quiet, Failing, Store.isFailingLocked]
      cases s.tests.lookup ⟨_, name⟩ <;> simp
  | httpProbe | dnsProbe | tcpProbe =>
      simp only [quiet, Failing, Store.isFailingLocked]
      cases s.probes.lookup ⟨_, name⟩ <;> simp

theorem quiet_congr {s s' : Store} {key : CrKey}
    (hprobes : s.probes.lookup key = s'.probes.lookup key)
    (htests : s.tests.lookup key = s'.tests.lookup key)
    (hheartbeats : s.heartbeats.lookup key = s'.heartbeats.lookup key) :
    quiet s key = quiet s' key := by
  simp only [quiet, hprobes, htests, hheartbeats]

theorem quiet_of_absent {s : Store} {key : CrKey} (h : Absent s key) : quiet s key = true := by
  simp only [quiet, h.probes, h.tests, h.heartbeats, Option.all_none]
  split <;> rfl

/-! ## One message about a suspended resource -/

/-- A message about a suspended resource that gives the walk nothing to answer with. -/
def harmless (s : Store) : Message → Bool
  | .spec msg =>
      msg.deleted || (decide (msg.kind = .heartbeat) && msg.heartbeat.isSome) || quiet s msg.key
  | .probeResult msg =>
      match msg.kind with
      | .httpProbe | .dnsProbe | .tcpProbe => Result.ofText msg.result = .ok
      | _ => true
  | .testResult msg =>
      match msg.kind with
      | .k6Test | .playwrightTest => msg.success
      | _ => true
  | .ping _ msg => (s.heartbeats.lookup msg.key).isSome

/-- The entry that a Heartbeat spec writes carries the suspension. -/
theorem quiet_onSpec_heartbeat (s : Store) {msg : SpecUpdate}
    {payload : Results.HeartbeatSpecPayload} (hkind : msg.kind = .heartbeat)
    (hlive : msg.deleted = false) (hpayload : msg.heartbeat = some payload)
    (hsuspend : msg.suspend = true) : quiet (onSpec s msg) msg.key = true := by
  have hkey : msg.key = ⟨.heartbeat, ⟨msg.ns, msg.name⟩⟩ := by rw [SpecUpdate.key, hkind]
  rw [hkey]
  simp only [quiet, onSpec_heartbeats s hkind hlive hpayload, Finmap.lookup_insert,
    Option.all_some, applySpec_suspended]
  exact hsuspend

/-- Every other spec leaves the last results alone. -/
theorem quiet_onSpec_other (s : Store) {msg : SpecUpdate} (key : CrKey)
    (hlive : msg.deleted = false)
    (hother : ¬ (msg.kind = .heartbeat ∧ msg.heartbeat.isSome = true)) :
    quiet (onSpec s msg) key = quiet s key := by
  unfold onSpec
  rw [hlive, if_neg Bool.false_ne_true]
  dsimp only
  split
  · rename_i payload hkind hpayload
    exact absurd ⟨hkind, by rw [hpayload]; rfl⟩ hother
  · apply quiet_congr
    · rw [Store.setMetricLabels_probes, Store.setDepends_probes]
    · rw [Store.setMetricLabels_tests, Store.setDepends_tests]
    · rw [Store.setMetricLabels_heartbeats, Store.setDepends_heartbeats]

theorem quiet_onSpec (s : Store) {msg : SpecUpdate} (hsuspend : msg.suspend = true) :
    quiet (onSpec s msg) msg.key = harmless s (.spec msg) := by
  simp only [harmless]
  cases hdeleted : msg.deleted with
  | true => exact quiet_of_absent (absent_onSpec s hdeleted)
  | false =>
      by_cases hbeat : msg.kind = .heartbeat ∧ msg.heartbeat.isSome = true
      · obtain ⟨payload, hpayload⟩ := Option.isSome_iff_exists.mp hbeat.2
        rw [quiet_onSpec_heartbeat s hbeat.1 hdeleted hpayload hsuspend, hbeat.2,
          decide_eq_true hbeat.1]
        rfl
      · have hfalse : (decide (msg.kind = .heartbeat) && msg.heartbeat.isSome) = false := by
          rw [← Bool.not_eq_true, Bool.and_eq_true, decide_eq_true_eq]
          exact hbeat
        rw [quiet_onSpec_other s msg.key hdeleted hbeat, hfalse]
        rfl

theorem quiet_onProbeResult (s : Store) (msg : Results.ProbeResult)
    (hbefore : quiet s msg.key = true) :
    quiet (onProbeResult s msg).1 msg.key = harmless s (.probeResult msg) := by
  have hentry : (onProbeResult s msg).1.probes.lookup msg.key = some (probeState msg) :=
    Finmap.lookup_insert s.probes
  have hkey : msg.key.kind = msg.kind := rfl
  -- a result under a kind that is not a probe's is stored where nothing reads it
  cases hkind : msg.kind with
  | httpProbe | dnsProbe | tcpProbe =>
      simp only [harmless, quiet, hkey, hkind, hentry, Option.all_some]
      rfl
  | k6Test | playwrightTest | heartbeat =>
      simp only [quiet, hkey, hkind] at hbefore
      simp only [harmless, quiet, hkey, hkind]
      exact hbefore
  | other text => simp only [harmless, quiet, hkey, hkind]

/-- The entry a test result writes, and the maps it leaves alone. -/
theorem onTestResult_entry (s : Store) (msg : Results.TestResult) :
    (∃ state : TestState, (onTestResult s msg).1.tests.lookup msg.key = some state ∧
      state.result = resultFromSuccess msg.success) ∧
      (onTestResult s msg).1.probes = s.probes ∧
      (onTestResult s msg).1.heartbeats = s.heartbeats := by
  unfold onTestResult
  split
  · rename_i hkind
    rw [Results.TestResult.key, hkind]
    exact ⟨⟨_, Finmap.lookup_insert s.tests, rfl⟩, rfl, rfl⟩
  · exact ⟨⟨_, Finmap.lookup_insert s.tests, rfl⟩, rfl, rfl⟩

theorem quiet_onTestResult (s : Store) (msg : Results.TestResult)
    (hbefore : quiet s msg.key = true) :
    quiet (onTestResult s msg).1 msg.key = harmless s (.testResult msg) := by
  obtain ⟨⟨state, hentry, hresult⟩, hprobes, hheartbeats⟩ := onTestResult_entry s msg
  have hkey : msg.key.kind = msg.kind := rfl
  cases hkind : msg.kind with
  | k6Test | playwrightTest =>
      simp only [harmless, quiet, hkey, hkind, hentry, Option.all_some, hresult]
      cases msg.success <;> rfl
  | httpProbe | dnsProbe | tcpProbe | heartbeat =>
      simp only [quiet, hkey, hkind] at hbefore
      simp only [harmless, quiet, hkey, hkind, hprobes, hheartbeats]
      exact hbefore
  | other text => simp only [harmless, quiet, hkey, hkind]

theorem quiet_onHeartbeatPing (s : Store) (now : Time) (msg : Results.HeartbeatPing)
    (hbefore : quiet s msg.key = true) :
    quiet (onHeartbeatPing s now msg).1 msg.key = harmless s (.ping now msg) := by
  have hentry : (onHeartbeatPing s now msg).1.heartbeats.lookup msg.key =
      some (recordPing ((s.heartbeats.lookup msg.key).getD .zero) msg.failed msg.exitCode
        msg.receivedAt.unix) :=
    Finmap.lookup_insert s.heartbeats
  have hkey : msg.key.kind = .heartbeat := rfl
  simp only [quiet, hkey] at hbefore
  simp only [harmless, quiet, hkey, hentry, Option.all_some, recordPing_suspended]
  -- a ping without an entry creates one that is not suspended
  cases hlookup : s.heartbeats.lookup msg.key with
  | none => rfl
  | some st =>
      rw [hlookup] at hbefore
      exact hbefore

/-! ## Every interleaving -/

/-- The last processed spec update of `key` has `Suspend=true`. -/
def Suspended (key : CrKey) (messages : List Message) : Prop :=
  (lastSome (specOf key) messages).any (·.suspend) = true

instance (key : CrKey) (messages : List Message) : Decidable (Suspended key messages) :=
  inferInstanceAs (Decidable (_ = true))

theorem suspended_snoc_spec {key : CrKey} {msg : SpecUpdate} (p : List Message)
    (hkey : msg.key = key) : Suspended key (p ++ [.spec msg]) ↔ msg.suspend = true := by
  simp [Suspended, specOf, hkey]

theorem suspended_snoc_other {key : CrKey} {m : Message} (p : List Message)
    (hm : m.isResult = true ∨ m.key ≠ key) :
    Suspended key (p ++ [m]) ↔ Suspended key p := by
  rw [Suspended, lastSome_snoc, specOf_other hm, Option.none_or, Suspended]

/-- Every suspended resource is quiet. -/
def AllQuiet (s : Store) (messages : List Message) : Prop :=
  ∀ key, Suspended key messages → quiet (run s messages) key = true

/-- A message about a suspended resource keeps it quiet exactly when it is harmless. -/
theorem quiet_handle (s : Store) (p : List Message) (m : Message) (hp : AllQuiet s p)
    (hsuspended : Suspended m.key (p ++ [m])) :
    quiet (handle (run s p) m) m.key = harmless (run s p) m := by
  cases m with
  | spec msg => exact quiet_onSpec _ ((suspended_snoc_spec p rfl).mp hsuspended)
  | probeResult msg =>
      exact quiet_onProbeResult _ msg
        (hp _ ((suspended_snoc_other p (.inl rfl)).mp hsuspended))
  | testResult msg =>
      exact quiet_onTestResult _ msg
        (hp _ ((suspended_snoc_other p (.inl rfl)).mp hsuspended))
  | ping now msg =>
      exact quiet_onHeartbeatPing _ now msg
        (hp _ ((suspended_snoc_other p (.inl rfl)).mp hsuspended))

theorem allQuiet_snoc_iff (s : Store) (p : List Message) (m : Message) (hp : AllQuiet s p) :
    AllQuiet s (p ++ [m]) ↔
      (Suspended m.key (p ++ [m]) → harmless (run s p) m = true) := by
  constructor
  · intro hquiet hsuspended
    rw [← quiet_handle s p m hp hsuspended, ← run_snoc]
    exact hquiet m.key hsuspended
  · intro hharmless key hsuspended
    rw [run_snoc]
    by_cases hkey : m.key = key
    · rw [← hkey] at hsuspended ⊢
      rw [quiet_handle s p m hp hsuspended]
      exact hharmless hsuspended
    · have hsame := sameAt_handle (run s p) (Ne.symm hkey)
      rw [quiet_congr hsame.probes hsame.tests hsame.heartbeats]
      exact hp key ((suspended_snoc_other p (.inr hkey)).mp hsuspended)

/-- All suspended resources stay quiet exactly when every message about one of them is
harmless. -/
theorem allQuiet_iff (s : Store) (messages : List Message) :
    (∀ p, p <+: messages → AllQuiet s p) ↔
      ∀ p m, p ++ [m] <+: messages → Suspended m.key (p ++ [m]) →
        harmless (run s p) m = true :=
  forall_prefix_iff (P := AllQuiet s) (fun _ h => by cases h) (allQuiet_snoc_iff s) messages

/-- In every run in which all messages about suspended resources are harmless, the walk
answers with no suspended resource, from any origin and at any time. -/
theorem suspended_not_found (s : Store) (messages : List Message)
    (hharmless : ∀ p m, p ++ [m] <+: messages → Suspended m.key (p ++ [m]) →
      harmless (run s p) m = true)
    (p : List Message) (hp : p <+: messages) (now : Time) (origin : CrKey) (d : DependencyRef)
    (hd : (run s p).findUnhealthyDep now origin.kind origin.name = some d) :
    ¬ Suspended (d.key origin.name.ns) p := by
  intro hsuspended
  have hquiet := (allQuiet_iff s messages).mpr hharmless p hp _ hsuspended
  obtain ⟨_, _, hfailing⟩ := findUnhealthyDep_sound hd
  exact (quiet_iff _ _).mp hquiet now hfailing

/-- `web` depends on `api`, which fails; `db` is suspended after a good run and a backup
while it waits for its first ping. -/
def quietSuspensions : List Message :=
  [.spec { kind := .httpProbe, name := "web", ns := "default",
           depends := [⟨.httpProbe, "db"⟩, ⟨.heartbeat, "backup"⟩, ⟨.httpProbe, "api"⟩] },
    .probeResult { kind := .httpProbe, name := "db", ns := "default", timestamp := ⟨0⟩,
                   result := "ok" },
    .spec { kind := .httpProbe, name := "db", ns := "default", suspend := true },
    .spec { kind := .heartbeat, name := "backup", ns := "default", suspend := true,
            heartbeat := some ⟨[], 60000, 60000, 0, ""⟩ },
    .probeResult { kind := .httpProbe, name := "api", ns := "default", timestamp := ⟨0⟩,
                   result := "connect_refused" }]

theorem suspended_not_found_quiet :
    (run Store.empty quietSuspensions).findUnhealthyDep ⟨0⟩ .httpProbe ⟨"default", "web"⟩ =
        some (probeRef "api") ∧
      ¬ Suspended (probeKey "api") quietSuspensions :=
  have hfound : (run Store.empty quietSuspensions).findUnhealthyDep ⟨0⟩ .httpProbe
      ⟨"default", "web"⟩ = some (probeRef "api") := by decide
  ⟨hfound, suspended_not_found Store.empty quietSuspensions
    (forall_step_of_take (by decide)) quietSuspensions (List.prefix_refl _) ⟨0⟩ (probeKey "web")
    (probeRef "api") hfound⟩

/-- `db` fails and is then suspended. -/
def suspendedAfterFailure : List Message :=
  [.spec { kind := .httpProbe, name := "web", ns := "default",
           depends := [⟨.httpProbe, "db"⟩] },
    .probeResult { kind := .httpProbe, name := "db", ns := "default", timestamp := ⟨0⟩,
                   result := "connect_refused" },
    .spec { kind := .httpProbe, name := "db", ns := "default", suspend := true }]

/-- The suspended probe is still the reason to suppress `web`. -/
theorem suspended_probe_found :
    Suspended (probeKey "db") suspendedAfterFailure ∧
      (run Store.empty suspendedAfterFailure).findUnhealthyDep ⟨0⟩ .httpProbe
        ⟨"default", "web"⟩ = some (probeRef "db") := by
  decide

end SyntheticsOperator.Proofs.Suspension
