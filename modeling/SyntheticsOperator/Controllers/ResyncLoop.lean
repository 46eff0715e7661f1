import SyntheticsOperator.Support.Machines

/-!
# The loop of the resyncer

`SpecResyncer.Start`: a goroutine subscribes to the requests, the function waits for that
subscription, broadcasts once, and then again on every tick and on every request.  The
channels hold one value; the handler of a request and the ticker drop theirs when the
channel is full.

`Subscribe` only queues a message to the server, so the server may know of the
subscription before or after `Flush` has failed, and must know of it when `Flush` returns.
A connection that breaks is restored by the client, which subscribes again.
-/

namespace SyntheticsOperator.Controllers.Resyncer

/-- Where the goroutine with `SubscribeSpecResyncRequests` is. -/
inductive Subscription where
  | starting
  | flushing
  | ready
  | ended (err : Option String)
deriving DecidableEq

/-- Where `Start` is. -/
inductive Phase where
  | waiting
  | resyncing
  | idle
  | returned
deriving DecidableEq

structure Loop where
  subscription : Subscription
  /-- the client keeps a subscription -/
  queued : Bool
  /-- the server passes requests on to the client -/
  listening : Bool
  /-- the channel `ready` is closed -/
  ready : Bool
  requestErr : Option (Option String)
  requested : Bool
  ticked : Bool
  cancelled : Bool
  phase : Phase
deriving DecidableEq

/-- The cases of the two selects. -/
inductive Case where
  | ready
  | requestErr
  | done
  | tick
  | requested
deriving DecidableEq

inductive Event where
  -- the goroutine: `Subscribe`, `Flush` and the end of the context
  | subscribed
  | subscribeFails (err : String)
  | flushed
  | flushFails (err : String)
  | unsubscribed
  -- the connection
  | registered
  | disconnected
  -- the ticker and the context
  | tick
  | cancel
  -- `Start`: a case of the select it waits in, and the return of `resync`
  | select (c : Case)
  | resynced
deriving DecidableEq

namespace Loop

def init : Loop where
  subscription := .starting
  queued := false
  listening := false
  ready := false
  requestErr := none
  requested := false
  ticked := false
  cancelled := false
  phase := .waiting

variable (l : Loop)

/-- The goroutine returns and sends its result. -/
def send (err : Option String) : Loop :=
  { l with subscription := .ended err, requestErr := some err }

/-- The handler of a request. -/
def request : Loop := { l with requested := true }

/-- The first select goes on to the broadcast in both of its cases that do not return. -/
def take : Case → Option Loop
  | .ready =>
      if l.phase = .waiting ∧ l.ready then some { l with phase := .resyncing } else none
  | .requestErr =>
      match l.phase, l.requestErr with
      | .waiting, some _ => some { l with phase := .resyncing, requestErr := none }
      | .idle, some _ => some { l with requestErr := none }
      | _, _ => none
  | .done =>
      if (l.phase = .waiting ∨ l.phase = .idle) ∧ l.cancelled then
        some { l with phase := .returned }
      else none
  | .tick =>
      if l.phase = .idle ∧ l.ticked then some { l with phase := .resyncing, ticked := false }
      else none
  | .requested =>
      if l.phase = .idle ∧ l.requested then
        some { l with phase := .resyncing, requested := false }
      else none

def step : Event → Option Loop
  | .subscribed =>
      if l.subscription = .starting then some { l with subscription := .flushing, queued := true }
      else none
  | .subscribeFails err => if l.subscription = .starting then some (l.send (some err)) else none
  | .flushed =>
      if l.subscription = .flushing ∧ l.listening then
        some { l with subscription := .ready, ready := true }
      else none
  | .flushFails err => if l.subscription = .flushing then some (l.send (some err)) else none
  | .unsubscribed =>
      if l.subscription = .ready ∧ l.cancelled then
        some { l.send none with queued := false, listening := false }
      else none
  | .registered =>
      if l.queued ∧ l.listening = false then some { l with listening := true } else none
  | .disconnected => if l.listening then some { l with listening := false } else none
  | .tick => some { l with ticked := true }
  | .cancel => some { l with cancelled := true }
  | .select c => l.take c
  | .resynced => if l.phase = .resyncing then some { l with phase := .idle } else none

end Loop

end SyntheticsOperator.Controllers.Resyncer
