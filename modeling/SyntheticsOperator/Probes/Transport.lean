import SyntheticsOperator.Probes.Executors

/-!
# The transport of an HTTP probe

The network behind `World.send`: what happens to a request, and when, before any deadline
is taken into account.  A deadline ends the phase it falls in, with
`context.DeadlineExceeded`.
-/

namespace SyntheticsOperator.Probes

open SyntheticsOperator.Support

/-- What becomes of a body after its headers have arrived. -/
inductive Body where
  | complete (instant : Time)
  | cut (err : NetError) (instant : Time)
  | stalls
deriving DecidableEq

structure Headers where
  statusCode : Int
  proto : String
  certNotAfter : Option Time
  trace : HTTPTrace
  arrived : Time
deriving DecidableEq

inductive Exchange where
  | fails (err : NetError)
  | answers (headers : Headers) (body : Body)
deriving DecidableEq

def deadlineExceeded : NetError where
  dnsError := false
  certificateError := false
  opError := none
  timeout := true
  deadlineExceeded := true
  connRefused := false

def Body.Completed (deadline : Time) : Body → Prop
  | .complete instant => instant.nanos ≤ deadline.nanos
  | .cut _ _ => False
  | .stalls => False

def Body.Interrupted (deadline : Time) : Body → Prop
  | .complete instant => deadline.nanos < instant.nanos
  | .cut _ instant => deadline.nanos < instant.nanos
  | .stalls => True

/-- `io.ReadAll`: the error, and when it returns. -/
def Body.readAll (deadline : Time) : Body → Option NetError × Time
  | .complete instant =>
      if instant.nanos ≤ deadline.nanos then (none, instant)
      else (some Probes.deadlineExceeded, deadline)
  | .cut err instant =>
      if instant.nanos ≤ deadline.nanos then (some err, instant)
      else (some Probes.deadlineExceeded, deadline)
  | .stalls => (some Probes.deadlineExceeded, deadline)

/-- `httpClient.Do`, and the reading of the body after it. -/
def Exchange.send (deadline : Time) : Exchange → Except NetError HTTPResponse
  | .fails err => .error err
  | .answers headers body =>
      if deadline.nanos < headers.arrived.nanos then .error Probes.deadlineExceeded
      else
        .ok
          { statusCode := headers.statusCode
            proto := headers.proto
            certNotAfter := headers.certNotAfter
            trace := headers.trace
            bodyErr := (body.readAll deadline).1
            transferStart := headers.arrived
            transferEnd := (body.readAll deadline).2 }

/-- A world with this network.  A request without a deadline is never made: every run has
the one of its timeout. -/
def World.over (w : World) (exchange : HTTPRequest → Exchange) : World :=
  { w with
    send := fun request ctx =>
      match ctx.deadline with
      | none => .error Probes.deadlineExceeded
      | some deadline => (exchange request).send deadline }

end SyntheticsOperator.Probes
