import Mathlib.Data.Int.DivMod
import Mathlib.Data.Set.Defs
import Mathlib.Order.Bounds.Basic

/-!
# Phases

The instants that leave a given remainder modulo a period.  Two facts carry the rest:

* `add_period_le`   — two of them are at least a period apart;
* `add_wait_mem`    — from any instant the next one is `wait` away, which is positive and
  at most a period.
-/

namespace SyntheticsOperator.Support.Phases

/-- The instants of a phase. -/
def Phase (period offset : Int) : Set Int := {t | t % period = offset}

/-- How long it takes from `now` until the next instant of the phase.  An instant of the
phase waits for the one after it. -/
def wait (period offset now : Int) : Int :=
  if offset ≤ now % period then offset - now % period + period else offset - now % period

variable {period offset t u : Int}

theorem add_period_le (ht : t ∈ Phase period offset) (hu : u ∈ Phase period offset)
    (hlt : t < u) : t + period ≤ u := by
  have hsame : u % period = t % period := Eq.trans hu (Eq.symm ht)
  have hdvd : period ∣ u - t :=
    Int.dvd_of_emod_eq_zero (Int.emod_eq_emod_iff_emod_sub_eq_zero.mp hsame)
  have hle : period ≤ u - t := Int.le_of_dvd (by omega) hdvd
  omega

theorem add_period_mem (ht : t ∈ Phase period offset) : t + period ∈ Phase period offset := by
  show (t + period) % period = offset
  rw [Int.add_emod_right]
  exact ht

section Wait

variable (hlow : 0 ≤ offset) (hhigh : offset < period) (now : Int)

include hlow hhigh

theorem wait_pos : 0 < wait period offset now := by
  have hlt : now % period < period := Int.emod_lt_of_pos now (by omega)
  unfold wait
  split <;> omega

theorem wait_le : wait period offset now ≤ period := by
  have hnonneg : 0 ≤ now % period := Int.emod_nonneg now (by omega)
  unfold wait
  split <;> omega

theorem add_wait_mem : now + wait period offset now ∈ Phase period offset := by
  have hsplit : period * (now / period) + now % period = now := Int.mul_ediv_add_emod now period
  have hoffset : (offset + period * (now / period)) % period = offset := by
    rw [Int.add_mul_emod_self_left]
    exact Int.emod_eq_of_lt hlow hhigh
  have hbase : offset + period * (now / period) ∈ Phase period offset := hoffset
  unfold wait
  split
  · have heq : now + (offset - now % period + period) =
        offset + period * (now / period) + period := by omega
    rw [heq]
    exact add_period_mem hbase
  · have heq : now + (offset - now % period) = offset + period * (now / period) := by omega
    rw [heq]
    exact hbase

/-- The next instant of the phase. -/
theorem isLeast_add_wait :
    IsLeast {t | now < t ∧ t ∈ Phase period offset} (now + wait period offset now) := by
  have hpos := wait_pos hlow hhigh now
  have hle := wait_le hlow hhigh now
  have hmem := add_wait_mem hlow hhigh now
  refine ⟨⟨by omega, hmem⟩, ?_⟩
  intro t ht
  by_contra hlt
  have hgap := add_period_le ht.2 hmem (by omega)
  have := ht.1
  omega

/-- The last one, a period before the next. -/
theorem isGreatest_add_wait_sub :
    IsGreatest {t | t ≤ now ∧ t ∈ Phase period offset}
      (now + wait period offset now - period) := by
  have hpos := wait_pos hlow hhigh now
  have hle := wait_le hlow hhigh now
  have hmem := add_wait_mem hlow hhigh now
  constructor
  · refine ⟨by omega, ?_⟩
    show (now + wait period offset now - period) % period = offset
    rw [Int.sub_emod_right]
    exact hmem
  · intro t ht
    have hnow := ht.1
    have hgap := add_period_le ht.2 hmem (by omega)
    omega

end Wait

end SyntheticsOperator.Support.Phases
