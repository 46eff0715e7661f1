import SyntheticsOperator.MetricsConsumer.Consumer
import SyntheticsOperator.Prober.Worker
import SyntheticsOperator.Probes.RunLoop

/-!
# From the schedule to the store

The scheduler with the goroutines it starts, the jobs and results on their way, the workers
and one consumer.  The bus may lose a message and may deliver two messages in any order, but
gives a job to one worker of the queue group and a result to the consumer once.
-/

namespace SyntheticsOperator.Prober

open SyntheticsOperator.Api (Library CrKey)
open SyntheticsOperator.Metrics (Store)
open SyntheticsOperator.MetricsConsumer (Message)
open SyntheticsOperator.Probes
open SyntheticsOperator.Results (ProbeJob ProbeResult)
open SyntheticsOperator.Support

structure Running where
  scheduled : ScheduledProbe
  loop : Loop

variable {F : Type} [BEq F] [LT F] [LE F] [DecidableLT F] [DecidableLE F] (lib : Library F)

/-- A result that a worker has published, with the run that it is of. -/
structure Execution where
  world : World
  job : ProbeJob
  result : ProbeResult
  ran : onJob lib world job = some result

structure Pipeline where
  service : Service
  loops : List Running
  queue : List ProbeJob
  /-- the results on their way to the consumer -/
  results : List (Execution lib)
  /-- the results that the consumer has processed -/
  handled : List (Execution lib)
  store : Store

namespace Pipeline

inductive Event where
  | call (c : Section)
  | go (i : Nat) (now : Time)
  | wake (i : Nat) (w : Wake)
  | execute (i : Nat) (w : World)
  | loseJob (i : Nat)
  | process (i : Nat)
  | loseResult (i : Nat)
  /-- the consumer processes a message of another stream -/
  | other (m : Message)

def published (scheduled : ScheduledProbe) : Wake → List ProbeJob
  | .done => []
  | .tick now _ => [scheduled.job now]

variable {lib}

def init : Pipeline lib := ⟨.new, [], [], [], [], .empty⟩

variable (s : Pipeline lib)

/-- The stop channel of the probe is closed, or the context of `Start` is done. -/
def stopped (scheduled : ScheduledProbe) : Bool :=
  s.service.cancelled || decide (scheduled.stop ∈ s.service.scheduler.closes)

def deliver (i : Nat) (w : World) (job : ProbeJob) : Pipeline lib :=
  match h : onJob lib w job with
  -- the worker drops a job that it does not run
  | none => { s with queue := s.queue.eraseIdx i }
  | some result =>
      { s with queue := s.queue.eraseIdx i, results := s.results ++ [⟨w, job, result, h⟩] }

def step : Event → Option (Pipeline lib)
  | .call c => (s.service.step c).map fun service => { s with service := service }
  | .go i now =>
      match s.service.created[i]? with
      | none => none
      | some scheduled =>
          if s.loops.any fun r => decide (r.scheduled.stop = scheduled.stop) then none
          else some { s with loops := s.loops ++ [⟨scheduled, scheduled.loop now⟩] }
  | .wake i w =>
      match s.loops[i]? with
      | none => none
      | some r =>
          if w = .done ∧ s.stopped r.scheduled = false then none
          else (r.scheduled.wake r.loop w).map fun loop =>
            { s with
              loops := s.loops.set i ⟨r.scheduled, loop⟩
              queue := s.queue ++ published r.scheduled w }
  | .execute i w => s.queue[i]?.map (s.deliver i w)
  | .loseJob i => s.queue[i]?.map fun _ => { s with queue := s.queue.eraseIdx i }
  | .process i => s.results[i]?.map fun e =>
      { s with
        results := s.results.eraseIdx i
        handled := s.handled ++ [e]
        store := MetricsConsumer.handle s.store (.probeResult e.result) }
  | .loseResult i => s.results[i]?.map fun _ => { s with results := s.results.eraseIdx i }
  | .other (.probeResult _) => none
  | .other m => some { s with store := MetricsConsumer.handle s.store m }

def run (lib : Library F) (events : List Event) : Option (Pipeline lib) :=
  Machine.run step init events

end Pipeline

end SyntheticsOperator.Prober
