import SyntheticsOperator.NatsBus.Start

/-!
# Failed subscriptions

The consumer sees a failed subscription exactly when the subscription to the specs was
ready at some time; the receiver always does.
-/

namespace SyntheticsOperator.Proofs.Startup

open SyntheticsOperator.MetricsConsumer (Subscription)
open SyntheticsOperator.Support
open SyntheticsOperator.Support.Startup

variable {E : Type}

/-- In every reachable quiescent state with a failed subscription, the consumer is not
deadlocked exactly when the subscription to the specs became ready. -/
theorem consumer_live_iff (history : List (Event Subscription E)) (st : State Subscription E)
    (h : Reaches MetricsConsumer.start history st) (hquiet : Quiescent st)
    (hfailed : ∃ s err, st.workers s = .ended (some err)) :
    Live MetricsConsumer.start st ↔ .ready .specs ∈ history := by
  have hall : ∀ s, s ∈ MetricsConsumer.start.second := by
    intro s
    cases s <;> decide
  rw [h.live_iff hall hquiet hfailed]
  simp [MetricsConsumer.start]

/-- The subscription to the test results fails after all are ready: `Start` returns the
error, or can. -/
theorem consumer_sees_late_failure :
    let history : List (Event Subscription String) := [.ready .probeResults, .ready .specs,
      .ready .testResults, .ready .heartbeatPings, .fail .testResults "nats: connection closed"]
    ∃ st, Reaches MetricsConsumer.start history st ∧ Live MetricsConsumer.start st := by
  intro history
  have hreach : Reaches MetricsConsumer.start history _ := rfl
  refine ⟨_, hreach, (consumer_live_iff history _ hreach ⟨rfl, ?_⟩
    ⟨.testResults, _, rfl⟩).mpr (by simp [history])⟩
  intro s
  cases s with
  | testResults => exact .inr ⟨_, rfl⟩
  | _ => exact .inl rfl

/-- The flush of the subscription to the specs fails: its error stays in the channel, the
other subscriptions go on, and `Start` waits in its first select. -/
theorem consumer_swallows_failure :
    ∃ st : State Subscription String,
      Reaches MetricsConsumer.start [.fail .specs "flush specs subscription: nats: timeout",
        .ready .probeResults, .ready .testResults, .ready .heartbeatPings] st ∧
      Quiescent st ∧ (∃ s err, st.workers s = .ended (some err)) ∧
      ¬ Live MetricsConsumer.start st := by
  refine ⟨_, rfl, ⟨rfl, ?_⟩, ⟨.specs, _, rfl⟩, ?_⟩
  · intro s
    cases s with
    | specs => exact .inr ⟨_, rfl⟩
    | _ => exact .inl rfl
  · intro hlive
    rcases hlive with ⟨err, herr⟩ | ⟨c, hc⟩
    · cases herr
    · cases c <;> cases hc

/-- The receiver, which listens for the error in both selects, is never deadlocked. -/
theorem receiver_live (history : List (Event Unit E)) (st : State Unit E)
    (h : Reaches Heartbeat.Receiver.start history st) (hquiet : Quiescent st)
    (hfailed : ∃ s err, st.workers s = .ended (some err)) :
    Live Heartbeat.Receiver.start st := by
  apply (h.live_iff (fun _ => List.mem_singleton_self _) hquiet hfailed).mpr
  exact .inr ⟨(), List.mem_singleton_self _, hfailed.choose_spec⟩

/-- The resync is asked for strictly after the subscription to the specs exists. -/
theorem consumer_requests_after_ready (history : List (Event Subscription E))
    (st : State Subscription E) (h : Reaches MetricsConsumer.start history st)
    (hrequested : st.requested = true) : .ready .specs ∈ history :=
  h.requested hrequested

end SyntheticsOperator.Proofs.Startup
