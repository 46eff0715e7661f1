import SyntheticsOperator.Controllers.ResyncLoop
import SyntheticsOperator.NatsBus.Start

/-!
# Resync requests

The resyncer and the components that subscribe to the specs, started and restarted in any
order.  A component asks for a resync when its subscription is ready; the bus keeps
nothing, so a request that arrives while the resyncer does not listen is gone.

`audience`, `caughtUp` and `missed` are read by no component: they record who had a
subscription when the running broadcast began, who had one during a whole broadcast, and
whose request was dropped by a resyncer that had already begun its first broadcast.
-/

namespace SyntheticsOperator.NatsBus.ColdStart

open SyntheticsOperator.Controllers
open SyntheticsOperator.Controllers.Resyncer (Loop)
open SyntheticsOperator.Support
open SyntheticsOperator.Support.Startup (Selects)

variable {I : Type} {S : I → Type}

structure State (S : I → Type) where
  resyncer : Loop
  components : ∀ i, Startup.State (S i) String
  /-- the requests on their way, each with its sender if that has not been restarted -/
  inFlight : List (Option I)
  asked : I → Bool
  audience : I → Bool
  caughtUp : I → Bool
  missed : I → Bool

inductive Event (S : I → Type) where
  | resyncer (e : Resyncer.Event)
  | restartResyncer
  | component (i : I) (e : Startup.Event (S i) String)
  /-- the subscription is ready: `RequestSpecResync`, which can fail -/
  | ask (i : I) (sent : Bool)
  | restart (i : I)
  | deliver (n : Nat)

namespace State

def init : State S where
  resyncer := .init
  components _ := Startup.init
  inFlight := []
  asked _ := false
  audience _ := false
  caughtUp _ := false
  missed _ := false

variable [DecidableEq I] [∀ i, DecidableEq (S i)] (sel : ∀ i, Selects (S i)) (st : State S)

def joined (i : I) : Bool := decide ((st.components i).workers (sel i).awaited = .ready)

/-- A step of the resyncer, with the broadcast that it begins or ends. -/
def observe (e : Resyncer.Event) (resyncer : Loop) : State S :=
  { st with
    resyncer := resyncer
    audience :=
      if st.resyncer.phase ≠ .resyncing ∧ resyncer.phase = .resyncing then st.joined sel
      else st.audience
    caughtUp :=
      if e = .resynced ∧ st.resyncer.cancelled = false then
        fun i => st.caughtUp i || (st.audience i && st.joined sel i)
      else st.caughtUp }

def receive (sender : Option I) : State S :=
  if st.resyncer.listening then { st with resyncer := st.resyncer.request }
  -- the first broadcast is still to come, in this process or in the next one
  else if st.resyncer.phase = .waiting ∨ st.resyncer.cancelled then st
  else { st with missed := fun i => st.missed i || decide (sender = some i) }

def step : Event S → Option (State S)
  | .resyncer e => (st.resyncer.step e).map (st.observe sel e)
  | .restartResyncer => some { st with resyncer := .init }
  | .component i e =>
      if e = .select .ready then none
      else (Startup.step (sel i) (st.components i) e).map fun component =>
        { st with components := Function.update st.components i component }
  | .ask i sent =>
      (Startup.step (sel i) (st.components i) (.select .ready)).map fun component =>
        { st with
          components := Function.update st.components i component
          inFlight := st.inFlight ++ if sent then [some i] else []
          asked := Function.update st.asked i sent }
  | .restart i =>
      some
        { st with
          components := Function.update st.components i Startup.init
          inFlight := st.inFlight.map fun sender => if sender = some i then none else sender
          asked := Function.update st.asked i false
          audience := Function.update st.audience i false
          caughtUp := Function.update st.caughtUp i false
          missed := Function.update st.missed i false }
  | .deliver n =>
      st.inFlight[n]?.map fun sender =>
        { st with inFlight := st.inFlight.eraseIdx n }.receive sender

def Reaches (history : List (Event S)) (st : State S) : Prop :=
  Machine.run (step sel) init history = some st

end State

/-! ## The deployments -/

/-- The replicas of the metrics consumer, those in the controllers included, and of the
heartbeat receiver. -/
inductive Component where
  | consumer (replica : Nat)
  | receiver (replica : Nat)
deriving DecidableEq

def Component.Subscriptions : Component → Type
  | .consumer _ => MetricsConsumer.Subscription
  | .receiver _ => Unit

instance : (c : Component) → DecidableEq c.Subscriptions
  | .consumer _ => inferInstanceAs (DecidableEq MetricsConsumer.Subscription)
  | .receiver _ => inferInstanceAs (DecidableEq Unit)

def Component.start : (c : Component) → Selects c.Subscriptions
  | .consumer _ => MetricsConsumer.start
  | .receiver _ => Heartbeat.Receiver.start

end SyntheticsOperator.NatsBus.ColdStart
