import SyntheticsOperator.Support.Startup

/-!
# The selects of `Start`

`Start` of the metrics consumer and of the heartbeat receiver.  Each starts goroutines
that run `subscribeJSON`: a goroutine fails at the subscribe or the flush, or signals
that it is ready and returns nil when the context is done.  A failure after the signal,
which `subscribeJSON` has not, is possible in the model.
-/

namespace SyntheticsOperator

open SyntheticsOperator.Support.Startup (Selects)

inductive MetricsConsumer.Subscription where
  | specs
  | probeResults
  | testResults
  | heartbeatPings
deriving DecidableEq

/-- `Consumer.Start`: the first select has the cases `specReady` and `ctx.Done()`. -/
def MetricsConsumer.start : Selects MetricsConsumer.Subscription where
  awaited := .specs
  first := []
  second := [.specs, .probeResults, .testResults, .heartbeatPings]

def Heartbeat.Receiver.start : Selects Unit where
  awaited := ()
  first := [()]
  second := [()]

end SyntheticsOperator
