import SyntheticsOperator.Api.Webhooks
import SyntheticsOperator.Controllers.Specs

/-!
# The three kinds of probe together

What admission and the controllers do with an HTTPProbe, a DNSProbe or a TCPProbe.
-/

namespace SyntheticsOperator.Controllers

open SyntheticsOperator.Api
open SyntheticsOperator.Results (SpecUpdate StringMap)
open SyntheticsOperator.Support

/-- A probe; `headers` are the request headers that were resolved for it. -/
inductive Probe where
  | http (p : HTTPProbe) (headers : StringMap)
  | dns (p : DNSProbe)
  | tcp (p : TCPProbe)

namespace Probe

def interval : Probe → Duration
  | http p _ => p.spec.interval
  | dns p => p.spec.interval
  | tcp p => p.spec.interval

def timeout : Probe → Duration
  | http p _ => p.spec.timeout
  | dns p => p.spec.timeout
  | tcp p => p.spec.timeout

/-- The defaulting webhook. -/
def default : Probe → Probe
  | http p headers => http p.default headers
  | dns p => dns p.default
  | tcp p => tcp p.default

/-- The validating webhook. -/
def validate {F : Type} (lib : Library F) (reader : Reader) : Probe → List FieldError
  | http p _ => p.validate lib reader
  | dns p => p.validate lib reader
  | tcp p => p.validate lib reader

def specUpdate : Probe → SpecUpdate
  | http p headers => httpProbeSpecUpdate p headers
  | dns p => dnsProbeSpecUpdate p
  | tcp p => tcpProbeSpecUpdate p

@[simp] theorem specUpdate_intervalMs (p : Probe) :
    p.specUpdate.intervalMs = p.interval.milliseconds := by
  cases p <;> rfl

/-- A probe that is admitted has passed the checks on its timing. -/
theorem validateTiming_eq_nil {F : Type} {lib : Library F} {reader : Reader} {p : Probe}
    (h : p.validate lib reader = []) : validateTiming p.interval p.timeout = [] := by
  cases p with
  | http p headers => exact ((HTTPProbe.validate_eq_nil_iff lib).mp h).1
  | dns p => exact ((DNSProbe.validate_eq_nil_iff lib).mp h).1
  | tcp p => exact ((TCPProbe.validate_eq_nil_iff lib).mp h).1

end Probe

end SyntheticsOperator.Controllers
