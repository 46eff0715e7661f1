import SyntheticsOperator.Api.Depends
import SyntheticsOperator.Api.Types
import SyntheticsOperator.Heartbeat.Lifecycle

/-!
# Persisting the last ping

`HeartbeatPingWriter` writes pings to the status of their Heartbeat, throttled per
Heartbeat.  The API server answers its `Get` and its `Patch`; the world of the last
section is an API server whose reads are current, and return an instant at the precision
it is stored with.
-/

namespace SyntheticsOperator.Controllers

open SyntheticsOperator.Api
open SyntheticsOperator.Heartbeat
open SyntheticsOperator.Results (HeartbeatPing)
open SyntheticsOperator.Support

/-- `HeartbeatPingWriter`, without its client. -/
structure PingWriter where
  minWriteInterval : Duration
  lastWrite : Finmap fun _ : NamespacedName => Time

def pingTarget (ping : HeartbeatPing) : NamespacedName := ⟨ping.ns, ping.name⟩

def pingResult (ping : HeartbeatPing) : String :=
  if ping.failed then HeartbeatStatus.resultFailed else HeartbeatStatus.resultOK

/-- The Heartbeat with the ping in its status, as `onPing` sends it. -/
def persistPing (beat : Heartbeat) (ping : HeartbeatPing) : Heartbeat :=
  { beat with
    status := { beat.status with
      lastPingTime := some ping.receivedAt, lastResult := pingResult ping } }

namespace PingWriter

def throttleFor (w : PingWriter) (beat : Heartbeat) : Duration :=
  Lifecycle.writeInterval beat.spec.period w.minWriteInterval

def shouldWrite (w : PingWriter) (name : NamespacedName) (received : Time)
    (outcomeChanged : Bool) (throttle : Duration) : Bool × PingWriter :=
  let previous := w.lastWrite.lookup name
  if Lifecycle.shouldPersistPing (previous.getD .zero) previous.isSome received outcomeChanged
      throttle then
    (true, { w with lastWrite := w.lastWrite.insert name received })
  else (false, w)

def forget (w : PingWriter) (name : NamespacedName) : PingWriter :=
  { w with lastWrite := w.lastWrite.erase name }

/-- The writer after one ping, with the Heartbeat it sent in a `Patch`, if it sent
one.  `get` answers the read and `patch` says whether the write succeeds. -/
def onPing (w : PingWriter) (get : NamespacedName → Except GetError Heartbeat)
    (patch : Heartbeat → Bool) (ping : HeartbeatPing) : PingWriter × Option Heartbeat :=
  let name := pingTarget ping
  match get name with
  | .error _ => (w, none)
  | .ok beat =>
      let result := pingResult ping
      match w.shouldWrite name ping.receivedAt (result ≠ beat.status.lastResult)
          (w.throttleFor beat) with
      | (false, w) => (w, none)
      | (true, w) =>
          let sent := persistPing beat ping
          -- a failed write takes the throttle entry back
          if patch sent then (w, some sent) else (w.forget name, some sent)

end PingWriter

/-! ## The writer and the API server -/

/-- The writer with the Heartbeats as they are stored.  `stored` is what a read returns of an
instant that was written. -/
structure PingWorld where
  stored : Time → Time
  writer : PingWriter
  beats : Finmap fun _ : NamespacedName => Heartbeat

/-- A ping is delivered, with the answer its `Patch` gets if there is one, or the
writer starts anew. -/
inductive PingEvent where
  | ping (msg : HeartbeatPing) (patched : Bool)
  | restart

namespace PingWorld

def get (world : PingWorld) (name : NamespacedName) : Except GetError Heartbeat :=
  match world.beats.lookup name with
  | none => .error .notFound
  | some beat => .ok beat

def onPing (world : PingWorld) (msg : HeartbeatPing) (patched : Bool) :
    PingWriter × Option Heartbeat :=
  world.writer.onPing world.get (fun _ => patched) msg

def store (world : PingWorld) (sent : Heartbeat) : Heartbeat :=
  { sent with
    status := { sent.status with lastPingTime := sent.status.lastPingTime.map world.stored } }

/-- Only a `Patch` that succeeds changes an object. -/
def handle (world : PingWorld) : PingEvent → PingWorld
  | .ping msg patched =>
      match world.onPing msg patched with
      | (writer, some sent) =>
          { world with
            writer := writer
            beats :=
              if patched then world.beats.insert (pingTarget msg) (world.store sent)
              else world.beats }
      | (writer, none) => { world with writer := writer }
  | .restart => { world with writer := { world.writer with lastWrite := ∅ } }

def run (world : PingWorld) (events : List PingEvent) : PingWorld :=
  events.foldl handle world

theorem run_snoc (world : PingWorld) (events : List PingEvent) (event : PingEvent) :
    world.run (events ++ [event]) = (world.run events).handle event := by
  simp [run]

end PingWorld

end SyntheticsOperator.Controllers
