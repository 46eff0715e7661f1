import Mathlib.Tactic.NormNum
import Mathlib.Tactic.Ring
import SyntheticsOperator.Controllers.Probes
import SyntheticsOperator.MetricsConsumer.Consumer
import SyntheticsOperator.Prober.Worker
import SyntheticsOperator.Probes.Scheduler

/-!
# Timing on the wire

Durations are declared in nanoseconds and travel as whole milliseconds.  What is below
a millisecond arrives as zero, and every receiver reads zero as "not set".
-/

namespace SyntheticsOperator.Proofs.WireTiming

open SyntheticsOperator.Api
open SyntheticsOperator.Controllers
open SyntheticsOperator.Heartbeat.Lifecycle (State Seed applySpec)
open SyntheticsOperator.Metrics (Store)
open SyntheticsOperator.MetricsConsumer (onSpec onSpec_heartbeats)
open SyntheticsOperator.Probes
open SyntheticsOperator.Prober
open SyntheticsOperator.Support

/-! ## Whole milliseconds -/

theorem milliseconds_bounds {d : Int} (hd : 0 ≤ d) :
    Duration.milliseconds d * 1000000 ≤ d ∧ d < Duration.milliseconds d * 1000000 + 1000000 := by
  have hdiv : Duration.milliseconds d = d / 1000000 := Int.tdiv_eq_ediv_of_nonneg hd
  rw [hdiv]
  omega

theorem milliseconds_pos_iff {d : Int} (hd : 0 ≤ d) :
    0 < Duration.milliseconds d ↔ 1000000 ≤ d := by
  have hbounds := milliseconds_bounds hd
  omega

/-! ## Probes -/

theorem timeout_bounds {interval timeout : Int} (h : validateTiming interval timeout = []) :
    0 < timeout ∧ timeout ≤ interval := by
  simp only [validateTiming, List.append_eq_nil_iff, ite_eq_right_iff, List.cons_ne_nil,
    imp_false] at h
  have hinterval : 0 < interval := by
    by_contra hle
    have herr : validateProbeInterval interval = some "must be greater than zero" :=
      if_pos (not_lt.mp hle)
    rw [herr] at h
    exact absurd h.1.1 (List.cons_ne_nil _ _)
  have hpos : ¬ timeout ≤ (0 : Int) := h.1.2
  have hle : ¬ ((0 : Int) < interval ∧ interval < timeout) := h.2
  omega

/-- A timeout that arrives as zero is replaced by one of ten seconds. -/
theorem runTimeout_le_iff {timeout : Int} (hpos : 0 < timeout) :
    runTimeout (Duration.milliseconds timeout) ≤ timeout ↔ 1000000 ≤ timeout := by
  have hbounds := milliseconds_bounds hpos.le
  have hms := milliseconds_pos_iff hpos.le
  unfold runTimeout
  dsimp only
  split
  · rename_i hzero
    have hzero : Duration.milliseconds timeout * 1000000 ≤ (0 : Int) := hzero
    have hdefault : defaultProbeTimeout = (10000000000 : Int) := rfl
    rw [hdefault]
    show (10000000000 : Int) ≤ timeout ↔ 1000000 ≤ timeout
    omega
  · rename_i hset
    have hset : ¬ Duration.milliseconds timeout * 1000000 ≤ (0 : Int) := hset
    show Duration.milliseconds timeout * 1000000 ≤ timeout ↔ 1000000 ≤ timeout
    omega

theorem jobTimeoutMs_specUpdate (p : Probe) (now : Time) :
    jobTimeoutMs ⟨p.specUpdate, now⟩ = some p.timeout.milliseconds := by
  cases p <;> rfl

/-- An admitted probe is scheduled with a positive interval, and run with a timeout
within both declared durations, exactly when its timeout is at least a millisecond. -/
theorem admitted_timing_iff {F : Type} (lib : Library F) (reader : Reader) (p : Probe)
    (hvalid : p.validate lib reader = []) (s : Scheduler) (hstarted : s.started = true)
    (now : Time) :
    ∃ scheduled timeoutMs,
      (s.register p.specUpdate).probes.lookup p.specUpdate.key = some scheduled ∧
      jobTimeoutMs (scheduled.job now) = some timeoutMs ∧
      ((0 < scheduled.interval ∧ runTimeout timeoutMs ≤ p.timeout ∧
          runTimeout timeoutMs ≤ p.interval) ↔
        1000000 ≤ p.timeout) := by
  obtain ⟨hpos, hle⟩ := timeout_bounds (Probe.validateTiming_eq_nil hvalid)
  have htimeout := runTimeout_le_iff hpos
  have hinterval := milliseconds_pos_iff (hpos.le.trans hle)
  refine ⟨_, _, Scheduler.lookup_register hstarted _, jobTimeoutMs_specUpdate p now, ?_⟩
  rw [Probe.specUpdate_intervalMs]
  constructor
  · intro hsurvives
    exact htimeout.mp hsurvives.2.1
  · intro hlong
    have happlied := htimeout.mpr hlong
    have hms : (0 : Int) < Duration.milliseconds p.interval := hinterval.mpr (hlong.trans hle)
    exact ⟨Int.mul_pos hms (by decide), happlied, happlied.trans hle⟩

def localProbe (interval timeout : Duration) : Probe :=
  .tcp
    { name := "db", ns := "default", generation := 1, deletionTimestamp := none
      spec :=
        { interval := interval, timeout := timeout, suspend := false
          target := ⟨"127.0.0.1", 5432⟩
          assertions := [], depends := [], metricLabels := ∅ } }

theorem localProbe_validate (reader : Reader) (interval timeout : Duration) :
    (localProbe interval timeout).validate Library.sample reader =
      validateTiming interval timeout := by
  have hhost : validateHost Library.sample "127.0.0.1" = [] := by decide
  simp [localProbe, Probe.validate, TCPProbe.validate, hhost, validateAssertions]

theorem admitted_timing_local :
    ∃ scheduled timeoutMs,
      (Scheduler.new.start.register (localProbe 30000000000 5000000000).specUpdate).probes.lookup
        (localProbe 30000000000 5000000000).specUpdate.key = some scheduled ∧
      jobTimeoutMs (scheduled.job ⟨0⟩) = some timeoutMs ∧
      ((0 < scheduled.interval ∧
          runTimeout timeoutMs ≤ (localProbe 30000000000 5000000000).timeout ∧
          runTimeout timeoutMs ≤ (localProbe 30000000000 5000000000).interval) ↔
        1000000 ≤ (localProbe 30000000000 5000000000).timeout) :=
  admitted_timing_iff Library.sample Cluster.empty.reader (localProbe 30000000000 5000000000)
    ((localProbe_validate _ _ _).trans (by decide)) Scheduler.new.start rfl ⟨0⟩

/-- Half a millisecond for both is admitted; the probe is then scheduled with no interval
at all and run with a timeout of ten seconds. -/
theorem localProbe_busy :
    (localProbe 500000 500000).validate Library.sample Cluster.empty.reader = [] ∧
    ∃ scheduled,
      (Scheduler.new.start.register (localProbe 500000 500000).specUpdate).probes.lookup
        (localProbe 500000 500000).specUpdate.key = some scheduled ∧
      scheduled.interval = 0 ∧
      (jobTimeoutMs (scheduled.job ⟨0⟩)).map runTimeout = some 10000000000 :=
  ⟨(localProbe_validate _ _ _).trans (by decide),
    _, Scheduler.lookup_register rfl _, by decide, by decide⟩

/-! ## Heartbeats -/

theorem applySpec_deadline (state : State) (existing : Bool) (period grace : ℚ) (suspend : Bool)
    (seed : Seed) :
    (applySpec state existing period grace suspend seed).deadline =
      (applySpec state existing period grace suspend seed).lastPingUnix + period +
        (if grace ≤ 0 then period else grace) := by
  unfold applySpec
  dsimp only
  split <;> rfl

/-- The deadline of the store, in the whole milliseconds it received. -/
theorem deadline_of_onSpec {store : Store} {h : Heartbeat} {token : GoString} {st : State}
    (hst : (onSpec store (heartbeatSpecUpdate h token)).heartbeats.lookup
      (heartbeatSpecUpdate h token).key = some st) :
    st.deadline = st.lastPingUnix +
      ((h.spec.period.milliseconds + (if h.spec.grace.milliseconds ≤ 0
        then h.spec.period.milliseconds else h.spec.grace.milliseconds) : Int) : ℚ) / 1000 := by
  have hentry : (heartbeatSpecUpdate h token).key = ⟨.heartbeat, ⟨h.ns, h.name⟩⟩ := rfl
  rw [onSpec_heartbeats store rfl rfl rfl, hentry] at hst
  have hst := Option.some.inj ((Finmap.lookup_insert _).symm.trans hst)
  rw [← hst, applySpec_deadline, add_assoc]
  congr 1
  have hgrace : ((h.spec.grace.milliseconds : ℚ) / 1000 ≤ 0) ↔ h.spec.grace.milliseconds ≤ 0 := by
    rw [div_le_iff₀ (by norm_num), zero_mul]
    exact_mod_cast Iff.rfl
  have hsplit := fun x y : Int => add_div (x : ℚ) (y : ℚ) 1000
  by_cases hzero : h.spec.grace.milliseconds ≤ 0
  · rw [if_pos (hgrace.mpr hzero), if_pos hzero, Int.cast_add, hsplit]
  · rw [if_neg (fun hle => hzero (hgrace.mp hle)), if_neg hzero, Int.cast_add, hsplit]

theorem within_two_ms_iff (l n m : Int) :
    |((l * 1000000000 + n : Int) : ℚ) / 1000000000 - (l + (m : ℚ) / 1000)| < 2 / 1000 ↔
      -2000000 < n - m * 1000000 ∧ n - m * 1000000 < 2000000 := by
  have hdiff : ((l * 1000000000 + n : Int) : ℚ) / 1000000000 - (l + (m : ℚ) / 1000) =
      ((n - m * 1000000 : Int) : ℚ) / 1000000000 := by
    push_cast
    ring
  rw [hdiff, abs_lt, lt_div_iff₀ (by norm_num), div_lt_iff₀ (by norm_num)]
  have hlow : -(2 / 1000) * 1000000000 = ((-2000000 : Int) : ℚ) := by norm_num
  have hhigh : (2 / 1000 : ℚ) * 1000000000 = ((2000000 : Int) : ℚ) := by norm_num
  rw [hlow, hhigh, Int.cast_lt, Int.cast_lt]

/-- A grace that arrives as zero is replaced by the period, which is far longer. -/
theorem wire_gap_iff {period grace : Int} (hperiod : 1000000000 ≤ period) (hgrace : 0 < grace) :
    (-2000000 < period + grace - (Duration.milliseconds period +
          (if Duration.milliseconds grace ≤ 0 then Duration.milliseconds period
            else Duration.milliseconds grace)) * 1000000 ∧
        period + grace - (Duration.milliseconds period +
          (if Duration.milliseconds grace ≤ 0 then Duration.milliseconds period
            else Duration.milliseconds grace)) * 1000000 < 2000000) ↔
      1000000 ≤ grace := by
  have hp := milliseconds_bounds (show 0 ≤ period by omega)
  have hg := milliseconds_bounds hgrace.le
  split <;> omega

theorem default_grace {h : Heartbeat} (hperiod : (1000000000 : Int) ≤ h.spec.period)
    (hgrace : (0 : Int) ≤ h.default.spec.grace) :
    (0 : Int) < h.default.spec.grace ∧
      ((1000000 : Int) ≤ h.default.spec.grace ↔
        h.spec.grace = 0 ∨ (1000000 : Int) ≤ h.spec.grace) := by
  have hdefault : h.default.spec.grace =
      if h.spec.grace = (0 : Int) then h.spec.period else h.spec.grace := rfl
  rw [hdefault] at hgrace ⊢
  split
  · rename_i hzero
    exact ⟨lt_of_lt_of_le (by decide) hperiod,
      iff_of_true (le_trans (by decide) hperiod) (.inl hzero)⟩
  · rename_i hset
    rw [if_neg hset] at hgrace
    exact ⟨lt_of_le_of_ne hgrace (Ne.symm hset), (or_iff_right hset).symm⟩

/-- The deadline on the resource and the one the metrics store computes agree up to two
milliseconds exactly when the declared grace is absent or at least a millisecond. -/
theorem deadlines_agree_iff {F : Type} (lib : Library F) (reader : Reader) (h : Heartbeat)
    (hvalid : h.default.validate lib reader = []) (token : GoString) (store : Store)
    (st : State)
    (hst : (onSpec store (heartbeatSpecUpdate h.default token)).heartbeats.lookup
      (heartbeatSpecUpdate h.default token).key = some st)
    (lastPing : Int) (hping : st.lastPingUnix = lastPing) :
    |((h.default.deadline ⟨lastPing * 1000000000⟩).nanos : ℚ) / 1000000000 - st.deadline| <
        2 / 1000 ↔
      h.spec.grace = 0 ∨ 1000000 ≤ h.spec.grace := by
  obtain ⟨hperiod, hnonneg, -⟩ := (Heartbeat.validate_eq_nil_iff lib).mp hvalid
  obtain ⟨hgrace, hdeclared⟩ := default_grace (h := h) hperiod hnonneg
  have hresource : (h.default.deadline ⟨lastPing * 1000000000⟩).nanos =
      lastPing * 1000000000 + (h.default.spec.period + h.default.spec.grace) := by
    rw [Heartbeat.deadline, if_neg (not_le.mpr hgrace)]
  rw [hresource, deadline_of_onSpec hst, hping, within_two_ms_iff]
  exact (wire_gap_iff hperiod hgrace).trans hdeclared

/-- A Heartbeat that expects a ping every minute and was last pinged at second 1000. -/
def minutely (grace : Duration) : Heartbeat where
  name := "backup"
  ns := "default"
  generation := 1
  deletionTimestamp := none
  spec :=
    { period := 60000000000, grace := grace, suspend := false, depends := [], metricLabels := ∅ }
  status := { lastPingTime := some ⟨1000000000000⟩, lastResult := "ok" }

theorem minutely_validate (reader : Reader) {grace : Duration} (hgrace : 0 < grace) :
    (minutely grace).default.validate Library.sample reader = [] := by
  have hset : ¬ grace = 0 := ne_of_gt hgrace
  have hnonneg : ¬ grace < 0 := not_lt.mpr hgrace.le
  simp [minutely, Heartbeat.default, Heartbeat.validate, validateTokenSecretRef,
    minHeartbeatPeriod, hset, hnonneg]

theorem deadlines_agree_minutely :
    (minutely 10000000000).default.validate Library.sample Cluster.empty.reader = [] ∧
    ∃ st : State,
      (onSpec Store.empty (heartbeatSpecUpdate (minutely 10000000000).default [])).heartbeats.lookup
        (heartbeatSpecUpdate (minutely 10000000000).default []).key = some st ∧
      st.lastPingUnix = (1000 : Int) ∧
      (|(((minutely 10000000000).default.deadline ⟨1000 * 1000000000⟩).nanos : ℚ) / 1000000000 -
          st.deadline| < 2 / 1000 ↔
        (minutely 10000000000).spec.grace = 0 ∨ 1000000 ≤ (minutely 10000000000).spec.grace) :=
  have hvalid := minutely_validate Cluster.empty.reader (by decide)
  have hst : (onSpec Store.empty (heartbeatSpecUpdate (minutely 10000000000).default
      [])).heartbeats.lookup (heartbeatSpecUpdate (minutely 10000000000).default []).key =
      some ⟨60, 10, 1000, false, 0, false⟩ := by decide +kernel
  ⟨hvalid, _, hst, rfl,
    deadlines_agree_iff Library.sample Cluster.empty.reader (minutely 10000000000) hvalid []
      Store.empty _ hst 1000 rfl⟩

/-- With half a millisecond of grace the resource says 60.0005 seconds after the ping
and the store 120. -/
theorem minutely_deadlines_differ :
    (minutely 500000).default.validate Library.sample Cluster.empty.reader = [] ∧
    ∃ st : State,
      (onSpec Store.empty (heartbeatSpecUpdate (minutely 500000).default [])).heartbeats.lookup
        (heartbeatSpecUpdate (minutely 500000).default []).key = some st ∧
      st.lastPingUnix = (1000 : Int) ∧
      (minutely 500000).default.deadline ⟨1000 * 1000000000⟩ = ⟨1060000500000⟩ ∧
      st.deadline = 1120 :=
  ⟨minutely_validate _ (by decide), ⟨60, 0, 1000, false, 0, false⟩, by decide +kernel, rfl,
    by decide, by norm_num [State.deadline]⟩

end SyntheticsOperator.Proofs.WireTiming
