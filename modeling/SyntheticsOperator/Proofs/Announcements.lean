import SyntheticsOperator.Events.Notifier
import SyntheticsOperator.Proofs.HeartbeatHistory

/-!
# Transitions that pings announce

A ping is compared with the state before it at one reading of the clock.  It moves the
deadline later, so it can only end a lateness, with one exception: the first ping that is
known of a Heartbeat is compared with `pending`, and it may be late itself.
-/

namespace SyntheticsOperator.Proofs.Announcements

open SyntheticsOperator.Api
open SyntheticsOperator.Events
open SyntheticsOperator.Heartbeat.Lifecycle (State recordPing)
open SyntheticsOperator.Metrics
open SyntheticsOperator.MetricsConsumer
open SyntheticsOperator.Proofs.HeartbeatHistory
open SyntheticsOperator.Results (HeartbeatPing)
open SyntheticsOperator.Support

/-! ## One ping -/

section Ping

variable (state : State) (failed : Bool) (exitCode : Int) (unix : ℚ) (now : Time)

/-- No ping was known, and this one is overdue by the time it is processed. -/
def OverdueFirst : Prop :=
  state.lastPingUnix ≤ 0 ∧ 0 < unix ∧
    ({ state with lastPingUnix := unix } : State).deadline < (now.unix : ℚ)

variable {state unix}

theorem deadline_recordPing (h : state.lastPingUnix ≤ unix) :
    (recordPing state failed exitCode unix).deadline =
      ({ state with lastPingUnix := unix } : State).deadline := by
  rw [recordPing, if_pos h]
  rfl

theorem lastPingUnix_recordPing (h : state.lastPingUnix ≤ unix) :
    (recordPing state failed exitCode unix).lastPingUnix = unix := by
  rw [recordPing, if_pos h]

theorem recordPing_old (h : ¬ state.lastPingUnix ≤ unix) :
    recordPing state failed exitCode unix = state := if_neg h

theorem deadline_mono (h : state.lastPingUnix ≤ unix) :
    state.deadline ≤ ({ state with lastPingUnix := unix } : State).deadline := by
  unfold State.deadline
  dsimp only
  gcongr

/-- After a ping a Heartbeat is pending only if it was. -/
theorem pending_of_recordPing
    (h : (recordPing state failed exitCode unix).evaluate now = .pending) :
    state.evaluate now = .pending := by
  by_cases hnew : state.lastPingUnix ≤ unix
  · rw [State.evaluate_eq_pending_iff, lastPingUnix_recordPing _ _ hnew] at h
    rw [State.evaluate_eq_pending_iff]
    exact hnew.trans h
  · rwa [recordPing_old _ _ hnew] at h

theorem missed_iff_overdueFirst :
    ((recordPing state failed exitCode unix).evaluate now = .missed ∧
      state.evaluate now ≠ .missed) ↔ OverdueFirst state unix now := by
  by_cases hnew : state.lastPingUnix ≤ unix
  · rw [State.evaluate_eq_missed_iff, lastPingUnix_recordPing _ _ hnew,
      deadline_recordPing _ _ hnew, ne_eq, State.evaluate_eq_missed_iff, OverdueFirst]
    constructor
    · rintro ⟨⟨hunix, hlate⟩, hnot⟩
      refine ⟨?_, hunix, hlate⟩
      by_contra hseen
      exact hnot ⟨not_le.mp hseen, (deadline_mono hnew).trans_lt hlate⟩
    · rintro ⟨hfirst, hunix, hlate⟩
      exact ⟨⟨hunix, hlate⟩, fun h => absurd h.1 (not_lt.mpr hfirst)⟩
  · rw [recordPing_old _ _ hnew]
    constructor
    · rintro ⟨hmissed, hnot⟩
      exact absurd hmissed hnot
    · rintro ⟨hfirst, hunix, -⟩
      exact absurd (hfirst.trans hunix.le) hnew

end Ping

theorem heartbeatResult_injective : Function.Injective heartbeatResult := by
  intro a b h
  cases a <;> cases b <;> simp_all [heartbeatResult]

/-! ## Announcements -/

/-- The results a ping is documented to announce. -/
def Announced (r : Result) : Prop := r = .ok ∨ r = .reported

instance (r : Result) : Decidable (Announced r) := instDecidableOr

/-- An Event for one of them. -/
def Documented (e : Event) : Prop :=
  (e.type = .normal ∧ e.reason = reasonHeartbeatActive) ∨
    (e.type = .warning ∧ e.reason = reasonHeartbeatFailed ∧
      e.message = "run failed: reported_failure")

theorem transition_eq_some_iff {name : NamespacedName} {kind : Kind} {prev next : Result}
    {t : Transition} :
    transition name kind prev next = some t ↔ prev ≠ next ∧ t = ⟨name, kind, prev, next⟩ := by
  unfold transition
  split
  · rename_i hne
    rw [Option.some.injEq, eq_comm]
    exact ⟨fun h => ⟨hne, h⟩, fun h => h.2⟩
  · rename_i heq
    exact iff_of_false (fun h => nomatch h) fun h => heq h.1

/-- Between two evaluations of which the second is pending only if the first is. -/
theorem announced_iff (name : NamespacedName) {prev next : Heartbeat.Lifecycle.Result}
    (hpending : next = .pending → prev = .pending) :
    (∀ t, transition name .heartbeat (heartbeatResult prev) (heartbeatResult next) = some t →
      Announced t.next) ↔ ¬ (next = .missed ∧ prev ≠ .missed) := by
  simp only [transition_eq_some_iff, heartbeatResult_injective.ne_iff]
  constructor
  · rintro h ⟨hmissed, hprev⟩
    have hne : prev ≠ next := fun heq => hprev (heq.trans hmissed)
    have hannounced : Announced (heartbeatResult next) := h _ ⟨hne, rfl⟩
    rw [hmissed] at hannounced
    exact absurd hannounced (by decide)
  · rintro h t ⟨hne, rfl⟩
    cases next with
    | ok => exact .inl rfl
    | reportedFailure => exact .inr rfl
    | pending => exact absurd (hpending rfl) hne
    | missed => exact absurd ⟨rfl, hne⟩ h

theorem documented_of_announced {get : CrKey → Bool} {t : Transition} {e : Event}
    (hkind : t.kind = .heartbeat) (hnext : Announced t.next)
    (he : onProbeTransition get t = some e) : Documented e := by
  rw [onProbeTransition, hkind] at he
  dsimp only at he
  unfold emit at he
  split at he
  · rcases hnext with hnext | hnext
    · rw [hnext] at he
      cases he
      exact .inl ⟨rfl, rfl⟩
    · rw [hnext] at he
      cases he
      exact .inr ⟨rfl, rfl, rfl⟩
  · cases he

/-- What a ping announces, after any history: an Event or a callback for something other
than `ok` or `reported_failure` exactly for the first ping that is known, when it is
overdue. -/
theorem announcements_iff (get : CrKey → Bool) (messages : List Message) (now : Time)
    (msg : HeartbeatPing) :
    ((∀ t, (onHeartbeatPing (run Store.empty messages) now msg).2 = some t → Announced t.next) ∧
      ∀ e, announce get (run Store.empty messages) (.ping now msg) = some e → Documented e) ↔
    ¬ OverdueFirst ((stored Store.empty ⟨msg.ns, msg.name⟩ messages).getD .zero)
      (received msg) now := by
  rw [← missed_iff_overdueFirst msg.failed msg.exitCode now,
    ← announced_iff ⟨msg.ns, msg.name⟩ (pending_of_recordPing msg.failed msg.exitCode now)]
  constructor
  · exact fun h => h.1
  · intro h
    refine ⟨h, fun e he => ?_⟩
    obtain ⟨t, ht, hemitted⟩ := Option.bind_eq_some_iff.mp he
    have hkind : t.kind = .heartbeat := by rw [(transition_eq_some_iff.mp ht).2]
    exact documented_of_announced hkind (h t ht) hemitted

/-- The first ping of `backup`, received at 100.9 s, before any spec. -/
def earlyPing : HeartbeatPing := ⟨"backup", "default", ⟨100900000000⟩, false, 0, []⟩

/-- It is processed 0.2 s later, in the next second, and announced as missed. -/
theorem earlyPing_missed :
    earlyPing.receivedAt.nanos ≤ 101100000000 ∧
    (onHeartbeatPing (run Store.empty []) ⟨101100000000⟩ earlyPing).2 =
      some ⟨backup, .heartbeat, .pending, .missed⟩ ∧
    announce (fun _ => true) (run Store.empty []) (.ping ⟨101100000000⟩ earlyPing) =
      some ⟨⟨.heartbeat, backup⟩, .warning, "HeartbeatFailed", "run failed: missed"⟩ :=
  ⟨by decide, by decide +kernel, by decide +kernel⟩

end SyntheticsOperator.Proofs.Announcements
