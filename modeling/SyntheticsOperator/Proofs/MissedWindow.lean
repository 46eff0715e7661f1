import Mathlib.Tactic.Linarith
import SyntheticsOperator.Proofs.HeartbeatHistory

/-!
# When a Heartbeat is missed

The last ping and the clock are whole seconds, period and grace are milliseconds.  A
Heartbeat is missed from the first whole second after the rounded ping by more than period
and grace on, so it can be reported before its time by up to the part of a second that
the ping lost.
-/

namespace SyntheticsOperator.Proofs.MissedWindow

open SyntheticsOperator.Api
open SyntheticsOperator.Heartbeat
open SyntheticsOperator.Metrics
open SyntheticsOperator.MetricsConsumer
open SyntheticsOperator.Proofs.HeartbeatHistory
open SyntheticsOperator.Results (SpecUpdate HeartbeatPing HeartbeatSpecPayload)
open SyntheticsOperator.Support
open SyntheticsOperator.Support.Histories

/-- No ping of the history was received after this one, and its seed is not later. -/
structure LastReceived (messages : List Message) (msg : HeartbeatPing) : Prop where
  mem : msg ∈ pings messages
  pings : ∀ other ∈ pings messages, other.receivedAt.nanos ≤ msg.receivedAt.nanos
  seed : ∀ seed ∈ firstSeed messages, seed.lastPingUnix ≤ msg.receivedAt.unix

theorem lastPingUnix_eq {messages : List Message} {state : Lifecycle.State}
    (hstate : Summary messages state) {msg : HeartbeatPing} (hlast : LastReceived messages msg)
    (hepoch : 0 < msg.receivedAt.nanos) : state.lastPingUnix = msg.receivedAt.unix := by
  apply hstate.lastPingUnix.unique
  constructor
  · exact .inr (.inl ⟨msg, hlast.mem, rfl⟩)
  · rintro t (rfl | ⟨other, hother, rfl⟩ | ⟨seed, hseed, rfl⟩)
    · have hunix : 0 ≤ msg.receivedAt.unix := Int.ediv_nonneg (by omega) (by decide)
      exact_mod_cast hunix
    · exact Int.cast_le.mpr (Time.unix_mono (hlast.pings other hother))
    · exact_mod_cast hlast.seed seed hseed

theorem evaluate_missed_iff {state : Lifecycle.State} {unix periodMs graceMs : Int}
    (hping : state.lastPingUnix = unix) (hperiod : state.periodSeconds = periodMs / 1000)
    (hgrace : state.graceSeconds = graceMs / 1000) (hpos : 0 < graceMs) (now : Time) :
    state.evaluate now = .missed ↔
      0 < unix ∧ unix * 1000 + (periodMs + graceMs) < now.unix * 1000 := by
  have hset : ¬ state.graceSeconds ≤ 0 := by
    have hcast : (0 : ℚ) < graceMs := by exact_mod_cast hpos
    rw [hgrace, not_le]
    linarith
  rw [Lifecycle.State.evaluate_eq_missed_iff, Lifecycle.State.deadline, if_neg hset, hping,
    hperiod, hgrace]
  apply and_congr
  · exact Int.cast_pos
  · rw [← Int.cast_lt (R := ℚ)]
    push_cast
    constructor
    · intro h
      linarith
    · intro h
      linarith

/-- Both parts, for a window in milliseconds and a clock in seconds. -/
theorem window_iff {received : Time} {windowMs : Int} (hwindow : 1000 ≤ windowMs) :
    (∀ now : Time, received.nanos ≤ now.nanos →
      (0 < received.unix ∧ received.unix * 1000 + windowMs < now.unix * 1000 →
        received.nanos + windowMs * 1000000 < now.nanos) ∧
      (received.nanos + windowMs * 1000000 + 1000000000 ≤ now.nanos →
        0 < received.unix ∧ received.unix * 1000 + windowMs < now.unix * 1000)) ↔
    1000000000 ≤ received.nanos ∧
      received.nanos % 1000000000 + windowMs * 1000000 % 1000000000 < 1000000000 := by
  unfold Time.unix
  constructor
  · intro h
    have hlate := (h ⟨received.nanos + windowMs * 1000000 + 1000000000⟩ (by dsimp only; omega)).2
      (Int.le_refl _)
    -- the first second in which the Heartbeat is missed
    have hearly := (h ⟨(received.nanos / 1000000000 + windowMs / 1000 + 1) * 1000000000⟩
      (by dsimp only; omega)).1 (by dsimp only; omega)
    dsimp only at hearly
    omega
  · intro h now hnow
    omega

/-- A Heartbeat with this last ping, period and grace is reported missed neither before its
time nor more than a second after it, whenever it is evaluated, exactly when the ping was
received a second or more after the epoch and the parts of a second of the ping and of the
window do not add up to a second. -/
theorem missed_window_iff (s : Store) (name : NamespacedName) (messages : List Message)
    (hs : s.heartbeats.lookup ⟨.heartbeat, name⟩ = none)
    (hmessages : ∀ m ∈ messages, Concerns name m) {spec : SpecUpdate}
    {payload : HeartbeatSpecPayload} (hspec : lastSome specOf messages = some (spec, payload))
    (hperiod : 1000 ≤ payload.periodMs) (hgrace : 1 ≤ payload.graceMs) {msg : HeartbeatPing}
    (hlast : LastReceived messages msg) (hepoch : 0 < msg.receivedAt.nanos) :
    (∀ now : Time, msg.receivedAt.nanos ≤ now.nanos →
      (((stored s name messages).getD .zero).evaluate now = .missed →
        msg.receivedAt.nanos + (payload.periodMs + payload.graceMs) * 1000000 < now.nanos) ∧
      (msg.receivedAt.nanos + (payload.periodMs + payload.graceMs) * 1000000 + 1000000000 ≤
          now.nanos →
        ((stored s name messages).getD .zero).evaluate now = .missed)) ↔
    1000000000 ≤ msg.receivedAt.nanos ∧
      msg.receivedAt.nanos % 1000000000 +
        (payload.periodMs + payload.graceMs) * 1000000 % 1000000000 < 1000000000 := by
  obtain ⟨-, htracks⟩ := tracks_stored hs hmessages
  have hsummary := htracks.summary
  have hcontract := hsummary.contract
  rw [hspec] at hcontract
  simp only [evaluate_missed_iff (lastPingUnix_eq hsummary hlast hepoch) hcontract.1
    hcontract.2.1 (by omega)]
  exact window_iff (by omega)

/-- The spec of `backup` with a grace of one and a half seconds. -/
def graceSpec : SpecUpdate where
  kind := .heartbeat
  name := "backup"
  ns := "default"
  heartbeat := some ⟨[], 60000, 1500, 0, ""⟩

def pingAt (ms : Int) : HeartbeatPing := ⟨"backup", "default", ⟨ms * 1000000⟩, false, 0, []⟩

def graceHistory (ms : Int) : List Message :=
  [.spec graceSpec, .ping ⟨ms * 1000000⟩ (pingAt ms)]

theorem concerns_graceHistory (ms : Int) : ∀ m ∈ graceHistory ms, Concerns backup m := by
  intro m hm
  simp only [graceHistory, List.mem_cons, List.not_mem_nil, or_false] at hm
  rcases hm with rfl | rfl
  · exact ⟨rfl, rfl, rfl⟩
  · rfl

theorem lastReceived_graceHistory {ms : Int} (h : 0 ≤ ms) :
    LastReceived (graceHistory ms) (pingAt ms) := by
  constructor
  · exact .head _
  · intro other hother
    rw [List.mem_singleton.mp hother]
  · intro seed hseed
    cases hseed
    exact Int.ediv_nonneg (Int.mul_nonneg h (by decide)) (by decide)

theorem missed_window_grace :
    (∀ now : Time, 100400000000 ≤ now.nanos →
      (((stored Store.empty backup (graceHistory 100400)).getD .zero).evaluate now = .missed →
        100400000000 + (60000 + 1500) * 1000000 < now.nanos) ∧
      (100400000000 + (60000 + 1500) * 1000000 + 1000000000 ≤ now.nanos →
        ((stored Store.empty backup (graceHistory 100400)).getD .zero).evaluate now = .missed)) ↔
    (1000000000 : Int) ≤ 100400000000 ∧
      (100400000000 : Int) % 1000000000 + (60000 + 1500) * 1000000 % 1000000000 < 1000000000 :=
  missed_window_iff Store.empty backup (graceHistory 100400) rfl (concerns_graceHistory _) rfl
    (by decide) (by decide) (lastReceived_graceHistory (by decide)) (by decide)

/-- A ping at 100.9 s with a window of 61.5 s: missed at 162 s, 0.4 s before its time. -/
theorem missed_early :
    ((stored Store.empty backup (graceHistory 100900)).getD .zero).evaluate ⟨162000000000⟩ =
      .missed ∧
    ¬ (pingAt 100900).receivedAt.nanos + (60000 + 1500) * 1000000 < 162000000000 :=
  ⟨by decide +kernel, by decide⟩

end SyntheticsOperator.Proofs.MissedWindow
