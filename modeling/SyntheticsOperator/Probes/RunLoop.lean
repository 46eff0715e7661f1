import SyntheticsOperator.Probes.Offsets
import SyntheticsOperator.Probes.Scheduler

/-!
# The loop of a probe

The goroutine that `Register` starts.  Its timer is first set to the offset of the probe,
and to a whole interval after each job.  A timer does not fire early; how late it fires,
and how long a publish takes, is left open.
-/

namespace SyntheticsOperator.Probes

open SyntheticsOperator.Results (ProbeJob)
open SyntheticsOperator.Support

/-- `runLoop` at its select. -/
structure Loop where
  /-- when the timer fires -/
  due : Time
  /-- the jobs handed to `PublishProbeJob` -/
  jobs : List ProbeJob
  returned : Bool
deriving DecidableEq

/-- What the select receives: the end of the context, or the time from the timer.  In the
second case `reset` is what the clock reads at the `timer.Reset` after the publish. -/
inductive Wake where
  | done
  | tick (now reset : Time)
deriving DecidableEq

namespace ScheduledProbe

variable (scheduled : ScheduledProbe)

def offset : Duration :=
  probeOffsetForKind scheduled.spec.kind scheduled.spec.ns scheduled.spec.name scheduled.interval

def loop (now : Time) : Loop :=
  ⟨now.add (initialDelay now scheduled.interval scheduled.offset), [], false⟩

def wake (loop : Loop) : Wake → Option Loop
  | .done => if loop.returned then none else some { loop with returned := true }
  | .tick now reset =>
      if loop.returned = false ∧ loop.due.nanos ≤ now.nanos ∧ now.nanos ≤ reset.nanos then
        -- an error of the publisher is only logged
        some { loop with
          due := reset.add scheduled.interval
          jobs := loop.jobs ++ [scheduled.job now] }
      else none

def runLoop (now : Time) (wakes : List Wake) : Option Loop :=
  Machine.run scheduled.wake (scheduled.loop now) wakes

end ScheduledProbe

end SyntheticsOperator.Probes
