import Mathlib.Algebra.Order.Field.Rat
import Mathlib.Data.Rat.Cast.Order
import SyntheticsOperator.Support.GoTime

/-!
# Heartbeat lifecycle rules

Spec seeding, ping ingestion, suspension and freshness of one Heartbeat, with
exact rationals in place of `float64`.
-/

namespace SyntheticsOperator.Heartbeat.Lifecycle

open SyntheticsOperator.Support

inductive Result where
  | ok
  | pending
  | missed
  | reportedFailure
deriving DecidableEq

structure State where
  periodSeconds : ℚ
  graceSeconds : ℚ
  lastPingUnix : ℚ
  reportedFailure : Bool
  exitCode : ℚ
  suspended : Bool
deriving DecidableEq

/-- Go's zero value, which a lookup of a missing key yields. -/
def State.zero : State := ⟨0, 0, 0, false, 0, false⟩

/-- Durable last-ping state replayed from the API server. -/
structure Seed where
  lastPingUnix : ℚ
  failed : Bool
deriving DecidableEq

/-- The seed applies only when no live state exists and it holds a ping. -/
def applySpec (state : State) (existing : Bool) (periodSeconds graceSeconds : ℚ)
    (suspend : Bool) (seed : Seed) : State :=
  let state := { state with
    periodSeconds := periodSeconds, graceSeconds := graceSeconds, suspended := suspend }
  if !existing && decide (seed.lastPingUnix > 0) then
    { state with lastPingUnix := seed.lastPingUnix, reportedFailure := seed.failed }
  else state

@[simp] theorem applySpec_suspended (state : State) (existing : Bool)
    (periodSeconds graceSeconds : ℚ) (suspend : Bool) (seed : Seed) :
    (applySpec state existing periodSeconds graceSeconds suspend seed).suspended = suspend := by
  unfold applySpec
  split <;> rfl

/-- Older pings never move time backwards. -/
def recordPing (state : State) (failed : Bool) (exitCode : Int) (receivedUnix : ℚ) : State :=
  if receivedUnix ≥ state.lastPingUnix then
    { state with
      lastPingUnix := receivedUnix, reportedFailure := failed, exitCode := exitCode }
  else state

@[simp] theorem recordPing_suspended (state : State) (failed : Bool) (exitCode : Int)
    (receivedUnix : ℚ) :
    (recordPing state failed exitCode receivedUnix).suspended = state.suspended := by
  unfold recordPing
  split <;> rfl

def writeInterval (period override : Duration) : Duration :=
  if override > 0 then override
  else if period > 0 then period / 4
  else 15000000000

def shouldPersistPing (previous : Time) (seen : Bool) (received : Time) (outcomeChanged : Bool)
    (interval : Duration) : Bool :=
  !seen || outcomeChanged || decide (received.sub previous ≥ interval)

/-- The instant, in Unix seconds, by which the next ping must arrive. -/
def State.deadline (s : State) : ℚ :=
  let grace := if s.graceSeconds ≤ 0 then s.periodSeconds else s.graceSeconds
  s.lastPingUnix + s.periodSeconds + grace

def State.evaluate (s : State) (now : Time) : Result :=
  if s.lastPingUnix ≤ 0 then .pending
  else if (now.unix : ℚ) > s.deadline then .missed
  else if s.reportedFailure then .reportedFailure
  else .ok

theorem State.evaluate_eq_pending_iff (s : State) (now : Time) :
    s.evaluate now = .pending ↔ s.lastPingUnix ≤ 0 := by
  unfold evaluate
  split
  · simp_all
  · repeat' split
    all_goals simp_all

theorem State.evaluate_eq_missed_iff (s : State) (now : Time) :
    s.evaluate now = .missed ↔ 0 < s.lastPingUnix ∧ s.deadline < now.unix := by
  unfold evaluate
  split
  · rename_i hpending
    simp [not_lt.mpr hpending]
  · rename_i hseen
    simp only [not_le.mp hseen, true_and]
    repeat' split
    all_goals simp_all

end SyntheticsOperator.Heartbeat.Lifecycle
