import SyntheticsOperator.Probes.Executors

/-!
# The probe worker

Dispatch of a job to the executor of its kind.
-/

namespace SyntheticsOperator.Prober

open SyntheticsOperator.Api (Kind Library)
open SyntheticsOperator.Probes
open SyntheticsOperator.Results (ProbeJob ProbeResult)

variable {F : Type} [BEq F] [LT F] [LE F] [DecidableLT F] [DecidableLE F] (lib : Library F)

def defaultExecutors : Kind → Option (World → ProbeJob → ProbeResult)
  | .httpProbe => some (executeHTTP lib)
  | .dnsProbe => some (executeDNS lib)
  | .tcpProbe => some (executeTCP lib)
  -- tests run in their own pods and Heartbeats nowhere
  | _ => none

def onJob (w : World) (job : ProbeJob) : Option ProbeResult :=
  match defaultExecutors lib job.spec.kind with
  | none => none
  | some execute =>
      -- a suspend that landed between publish and delivery
      if job.spec.suspend then none else some (execute w job)

def jobTimeoutMs (job : ProbeJob) : Option Int :=
  match job.spec.kind with
  | .httpProbe => job.spec.httpProbe.map fun payload => payload.timeoutMs
  | .dnsProbe => job.spec.dnsProbe.map fun payload => payload.timeoutMs
  | .tcpProbe => job.spec.tcpProbe.map fun payload => payload.timeoutMs
  | _ => none

end SyntheticsOperator.Prober
