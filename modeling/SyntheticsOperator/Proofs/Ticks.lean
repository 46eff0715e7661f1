import SyntheticsOperator.Probes.RunLoop
import SyntheticsOperator.Support.Phases

/-!
# Ticks of a probe

The first tick of a loop is the next instant of the probe's phase, whenever the loop is
started: `initialDelay` computes the wait for it.  Later ticks are paced by the loop
itself and are never closer than an interval.
-/

namespace SyntheticsOperator.Proofs.Ticks

open SyntheticsOperator.Probes
open SyntheticsOperator.Support
open SyntheticsOperator.Support.Phases

/-! ## The first tick -/

/-- Between an elapsed time and an offset below a day no subtraction overflows. -/
theorem wrapped_delay_eq {interval offset elapsed : Int} (hday : interval ≤ 24 * 3600000000000)
    (hlow : 0 ≤ offset) (hhigh : offset < interval) (hnonneg : 0 ≤ elapsed)
    (hlt : elapsed < interval) :
    (if int64 (offset - elapsed) ≤ 0 then int64 (int64 (offset - elapsed) + interval)
      else int64 (offset - elapsed)) =
    if offset ≤ elapsed then offset - elapsed + interval else offset - elapsed := by
  have hdelay : int64 (offset - elapsed) = offset - elapsed :=
    int64_eq_self (by omega) (by omega)
  have hwrapped : int64 (offset - elapsed + interval) = offset - elapsed + interval :=
    int64_eq_self (by omega) (by omega)
  rw [hdelay, hwrapped]
  by_cases hpassed : offset ≤ elapsed
  · rw [if_pos (by omega), if_pos hpassed]
  · rw [if_neg (by omega), if_neg hpassed]

theorem initialDelay_eq_wait {now : Time} {interval offset : Duration} (hlow : 0 ≤ offset)
    (hhigh : offset < interval) (hday : interval ≤ 24 * 3600000000000) (hnow : 0 ≤ now.nanos)
    (hrange : now.nanos < 2 ^ 63) :
    initialDelay now interval offset = wait interval offset now.nanos := by
  have hpos : 0 < interval := Int.lt_of_le_of_lt hlow hhigh
  have hunix : now.unixNano = now.nanos := int64_eq_self (by omega) hrange
  have helapsed : Int.tmod now.unixNano interval = now.nanos % interval := by
    rw [hunix, Int.tmod_eq_emod_of_nonneg hnow]
  unfold initialDelay wait
  rw [if_neg (Int.not_le.mpr hpos)]
  simp only [helapsed]
  exact wrapped_delay_eq hday hlow hhigh (Int.emod_nonneg _ (Int.ne_of_gt hpos))
    (Int.emod_lt_of_pos _ hpos)

/-- A loop that is started at `now` ticks at the next instant of the phase, which is a whole
interval after the last one: what a restart at any moment waits for. -/
theorem first_tick_aligned (identity : GoString) (interval : Duration) (now : Time)
    {offset delay : Duration} (hpos : 1 ≤ interval) (hday : interval ≤ 24 * 3600000000000)
    (hnow : 0 ≤ now.nanos) (hrange : now.nanos < 2 ^ 63)
    (hoffset : probeOffsetHash identity interval = offset)
    (hdelay : initialDelay now interval offset = delay) :
    (0 ≤ offset ∧ offset < interval) ∧
    (0 < delay ∧ delay ≤ interval) ∧
    (now.nanos + delay) % interval = offset ∧
    IsLeast {t | now.nanos < t ∧ t ∈ Phase interval offset} (now.nanos + delay) ∧
    IsGreatest {t | t ≤ now.nanos ∧ t ∈ Phase interval offset}
      (now.nanos + delay - interval) := by
  have hlow : 0 ≤ offset := by
    rw [← hoffset]
    exact probeOffsetHash_nonneg identity interval
  have hhigh : offset < interval := by
    rw [← hoffset]
    exact probeOffsetHash_lt identity hpos
  rw [initialDelay_eq_wait hlow hhigh hday hnow hrange] at hdelay
  rw [← hdelay]
  exact ⟨⟨hlow, hhigh⟩, ⟨wait_pos hlow hhigh _, wait_le hlow hhigh _⟩,
    add_wait_mem hlow hhigh _, isLeast_add_wait hlow hhigh _,
    isGreatest_add_wait_sub hlow hhigh _⟩

/-- An HTTPProbe that runs every minute, started 20 seconds into one. -/
theorem first_tick_minutely :
    IsLeast {t | 1700000000000000000 < t ∧ t ∈ Phase 60000000000 42611812520}
      1700000022611812520 := by
  have hoffset : probeOffsetHash (GoString.lit "HTTPProbe/default/api") 60000000000 =
      42611812520 := by decide +kernel
  have hdelay : initialDelay ⟨1700000000000000000⟩ 60000000000 42611812520 = 22611812520 := by
    decide +kernel
  exact (first_tick_aligned _ _ _ (by decide) (by decide) (by decide) (by decide) hoffset
    hdelay).2.2.2.1

/-! ## The loop -/

section Run

variable {scheduled : ScheduledProbe} {loop loop' : Loop} {start : Time}

/-- Two loops of one probe, such as before and after a restart, start in the same phase. -/
theorem isLeast_loop_due (hpos : 0 < scheduled.interval)
    (hday : scheduled.interval ≤ 24 * 3600000000000) (hstart : 0 ≤ start.nanos)
    (hrange : start.nanos < 2 ^ 63) :
    IsLeast {t | start.nanos < t ∧ t ∈ Phase scheduled.interval scheduled.offset}
      (scheduled.loop start).due.nanos := by
  have hlow : 0 ≤ scheduled.offset := probeOffsetHash_nonneg _ _
  have hhigh : scheduled.offset < scheduled.interval := probeOffsetHash_lt _ hpos
  have hdue : (scheduled.loop start).due.nanos =
      start.nanos + wait scheduled.interval scheduled.offset start.nanos := by
    rw [← initialDelay_eq_wait hlow hhigh hday hstart hrange]
    rfl
  rw [hdue]
  exact isLeast_add_wait hlow hhigh start.nanos

theorem wake_cases {wake : Wake} (h : scheduled.wake loop wake = some loop') :
    (wake = .done ∧ loop' = { loop with returned := true }) ∨
      ∃ now reset, wake = .tick now reset ∧ loop.due.nanos ≤ now.nanos ∧
        now.nanos ≤ reset.nanos ∧
        loop' = { loop with
          due := reset.add scheduled.interval
          jobs := loop.jobs ++ [scheduled.job now] } := by
  cases wake with
  | done =>
      simp only [ScheduledProbe.wake] at h
      split at h
      · cases h
      · cases h
        exact .inl ⟨rfl, rfl⟩
  | tick now reset =>
      simp only [ScheduledProbe.wake] at h
      split at h
      · rename_i hguard
        cases h
        exact .inr ⟨now, reset, rfl, hguard.2.1, hguard.2.2, rfl⟩
      · cases h

/-- The jobs of a loop are at least an interval apart, and the timer is that far ahead of
them all. -/
structure Paced (scheduled : ScheduledProbe) (first : Time) (loop : Loop) : Prop where
  spaced : loop.jobs.Pairwise fun job later =>
    job.scheduledAt.nanos + scheduled.interval ≤ later.scheduledAt.nanos
  ahead : ∀ job ∈ loop.jobs, job.scheduledAt.nanos + scheduled.interval ≤ loop.due.nanos
  late : first.nanos + loop.jobs.length * scheduled.interval ≤ loop.due.nanos

section Nonneg

variable (hnonneg : 0 ≤ scheduled.interval)

include hnonneg

theorem Paced.wake {first : Time} {wake : Wake} (h : Paced scheduled first loop)
    (hwake : scheduled.wake loop wake = some loop') : Paced scheduled first loop' := by
  obtain ⟨-, rfl⟩ | ⟨now, reset, -, hdue, hreset, rfl⟩ := wake_cases hwake
  · exact ⟨h.spaced, h.ahead, h.late⟩
  · have hspaced : ∀ job ∈ loop.jobs, job.scheduledAt.nanos + scheduled.interval ≤ now.nanos :=
      fun job hjob => Int.le_trans (h.ahead job hjob) hdue
    have hnext : now.nanos + scheduled.interval ≤ reset.nanos + scheduled.interval :=
      Int.add_le_add_right hreset _
    constructor
    · apply List.pairwise_append.mpr
      refine ⟨h.spaced, List.pairwise_singleton _ _, ?_⟩
      intro job hjob later hlater
      rw [List.mem_singleton.mp hlater]
      exact hspaced job hjob
    · intro job hjob
      apply Int.le_trans _ hnext
      rcases List.mem_append.mp hjob with hold | hnew
      · exact Int.le_trans (hspaced job hold) (Int.le_add_of_nonneg_right hnonneg)
      · rw [List.mem_singleton.mp hnew]
        exact Int.le_refl _
    · have hreached : first.nanos + loop.jobs.length * scheduled.interval ≤ reset.nanos :=
        Int.le_trans h.late (Int.le_trans hdue hreset)
      show first.nanos + (loop.jobs ++ [_]).length * scheduled.interval ≤
        reset.nanos + scheduled.interval
      rw [List.length_append, List.length_singleton, Int.natCast_add, Int.add_mul,
        Int.natCast_one, Int.one_mul, ← Int.add_assoc]
      exact Int.add_le_add_right hreached _

/-- However late the timers fire and however long the publishes take. -/
theorem paced_runLoop {wakes : List Wake} (hrun : scheduled.runLoop start wakes = some loop) :
    Paced scheduled (scheduled.loop start).due loop := by
  refine Machine.run_invariant (I := fun _ loop => Paced scheduled (scheduled.loop start).due loop)
    ?_ ?_ hrun
  · refine ⟨List.Pairwise.nil, fun job hjob => absurd hjob (List.not_mem_nil), ?_⟩
    simp [ScheduledProbe.loop]
  · intro _ loop wake loop' hpaced hwake
    exact hpaced.wake hnonneg hwake

end Nonneg

end Run

end SyntheticsOperator.Proofs.Ticks
