import SyntheticsOperator.Results.Message
import SyntheticsOperator.Support.Machines
import SyntheticsOperator.Support.MapLookup

/-!
# The probe scheduler

The table of running probes.  Each function here is one section that the source runs
under its mutex.  A stop channel is named by a number; `made` is the next fresh one and
`closes` collects every `close` of one, a second one included.  A `Service` runs the
sections of one `Start` call and of its callers in any order.
-/

namespace SyntheticsOperator.Probes

open SyntheticsOperator.Api (CrKey)
open SyntheticsOperator.Results (SpecUpdate ProbeJob)
open SyntheticsOperator.Support

structure ScheduledProbe where
  spec : SpecUpdate
  interval : Duration
  stop : Nat
deriving DecidableEq

/-- The job that the loop of a probe publishes when its timer fires. -/
def ScheduledProbe.job (scheduled : ScheduledProbe) (now : Time) : ProbeJob :=
  ⟨scheduled.spec, now⟩

structure Scheduler where
  probes : Finmap fun _ : CrKey => ScheduledProbe
  started : Bool
  made : Nat
  closes : Multiset Nat

namespace Scheduler

/-- `NewScheduler`. -/
def new : Scheduler := ⟨∅, false, 0, 0⟩

/-- The first section of `Start`. -/
def start (s : Scheduler) : Scheduler := { s with started := true }

/-- The second section of `Start`, after its context is done. -/
def shutdown (s : Scheduler) : Scheduler :=
  { s with
    probes := ∅
    closes := s.closes + s.probes.entries.map fun entry => entry.2.stop }

def unregister (s : Scheduler) (key : CrKey) : Scheduler :=
  match s.probes.lookup key with
  | some scheduled =>
      { s with probes := s.probes.erase key, closes := scheduled.stop ::ₘ s.closes }
  | none => s

/-- The entry of the same key, if any, is stopped first. -/
def register (s : Scheduler) (spec : SpecUpdate) : Scheduler :=
  let interval : Duration := spec.intervalMs * 1000000
  let s := s.unregister spec.key
  if s.started then
    { s with probes := s.probes.insert spec.key ⟨spec, interval, s.made⟩, made := s.made + 1 }
  else s

@[simp] theorem unregister_started (s : Scheduler) (key : CrKey) :
    (s.unregister key).started = s.started := by
  unfold unregister
  split <;> rfl

@[simp] theorem unregister_made (s : Scheduler) (key : CrKey) :
    (s.unregister key).made = s.made := by
  unfold unregister
  split <;> rfl

theorem lookup_unregister (s : Scheduler) (key key' : CrKey) :
    (s.unregister key).probes.lookup key' = if key' = key then none else s.probes.lookup key' := by
  unfold unregister
  split
  · exact lookup_erase_ite s.probes key key'
  · rename_i hnone
    split
    · rename_i heq
      rw [heq, hnone]
    · rfl

/-- `Register` before `Start` only stops what is there. -/
theorem register_of_not_started {s : Scheduler} (hstarted : s.started = false)
    (spec : SpecUpdate) : s.register spec = s.unregister spec.key := by
  simp [register, hstarted]

/-- `Register` after `Start` stops what is there and adds a new scheduled probe. -/
theorem register_of_started {s : Scheduler} (hstarted : s.started = true) (spec : SpecUpdate) :
    s.register spec =
      { s.unregister spec.key with
        probes := (s.unregister spec.key).probes.insert spec.key
          ⟨spec, spec.intervalMs * 1000000, s.made⟩
        made := s.made + 1 } := by
  simp [register, hstarted]

/-- A started scheduler runs what was registered last. -/
theorem lookup_register {s : Scheduler} (hstarted : s.started = true) (spec : SpecUpdate) :
    (s.register spec).probes.lookup spec.key =
      some ⟨spec, spec.intervalMs * 1000000, s.made⟩ := by
  rw [register_of_started hstarted, Finmap.lookup_insert]

end Scheduler

/-! ## The sections in any order -/

/-- What can come next: a section of the one `Start` call, the end of its context, or the
section of a `Register` or an `Unregister`. -/
inductive Section where
  | start
  | cancel
  | shutdown
  | register (spec : SpecUpdate)
  | unregister (key : CrKey)

/-- How far the `Start` call has come. -/
inductive StartCall where
  | notYet
  | waiting
  | returned
deriving DecidableEq

/-- A scheduler in use.  `created` are all the scheduled probes that were ever made. -/
structure Service where
  scheduler : Scheduler
  startCall : StartCall
  cancelled : Bool
  created : List ScheduledProbe

namespace Service

def new : Service := ⟨.new, .notYet, false, []⟩

def step (s : Service) : Section → Option Service
  | .start =>
      if s.startCall = .notYet then
        some { s with scheduler := s.scheduler.start, startCall := .waiting }
      else none
  | .cancel => some { s with cancelled := true }
  -- `<-ctx.Done()`
  | .shutdown =>
      if s.startCall = .waiting ∧ s.cancelled then
        some { s with scheduler := s.scheduler.shutdown, startCall := .returned }
      else none
  | .register spec =>
      let scheduler := s.scheduler.register spec
      some { s with
        scheduler := scheduler
        created := s.created ++ (scheduler.probes.lookup spec.key).toList }
  | .unregister key => some { s with scheduler := s.scheduler.unregister key }

def run (sections : List Section) : Option Service := Machine.run step new sections

end Service

end SyntheticsOperator.Probes
