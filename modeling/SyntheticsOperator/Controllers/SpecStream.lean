import SyntheticsOperator.Controllers.Specs
import SyntheticsOperator.Support.VersionedStore

/-!
# The stream of spec messages

Two writers publish on `synthetics.specs`: the reconcilers, each `Reconcile` one
read of its resource and then a message, and the resyncer, which lists one kind
after the other and publishes a message for each item of the list.  The steps of
both interleave with writes to the API server in any order.

`State` records what is in flight, and the messages published so far together with
the read each of them was built from.
-/

namespace SyntheticsOperator.Controllers

open SyntheticsOperator.Api
open SyntheticsOperator.Results (SpecUpdate)
open SyntheticsOperator.Support

/-- The versions an object can have one after the other: its generation does not
fall, and a deletion once requested is not taken back. -/
instance : Preorder Resource where
  le a b := a.objectMeta.generation ≤ b.objectMeta.generation ∧
    (a.objectMeta.deleting → b.objectMeta.deleting)
  le_refl _ := ⟨le_rfl, id⟩
  le_trans _ _ _ h h' := ⟨h.1.trans h'.1, h'.2 ∘ h.2⟩

theorem resource_le_iff {a b : Resource} :
    a ≤ b ↔ a.objectMeta.generation ≤ b.objectMeta.generation ∧
      (a.objectMeta.deleting → b.objectMeta.deleting) := Iff.rfl

instance : DecidableLE Resource :=
  fun a b => decidable_of_iff _ (resource_le_iff (a := a) (b := b)).symm

/-- What one read of a resource saw.  An object is stored under its own identity. -/
structure Read extends Reading CrKey Resource where
  keyed : ∀ o, seen = some o → o.value.key = key

def Read.gone (read : Read) : Bool :=
  read.seen.all (·.value.objectMeta.deleting)

/-- What the calls that a publish depends on answer: the reads of Secrets,
`resolveToken`, `syncSecretURL` and `PublishSpec`. -/
structure Outside where
  secret : SecretReader
  token : Option GoString
  urlSynced : Bool
  sent : Bool

/-! ## The message for one read -/

/-- What the resyncer publishes for a resource that is not being deleted.  Without
its headers or its token a resource is skipped. -/
def resyncLive (out : Outside) : Resource → Option SpecUpdate
  | .httpProbe p =>
      match resolveRequestHeaders out.secret p.ns p.spec.request with
      | .error _ => none
      | .ok headers => some (httpProbeSpecUpdate p headers)
  | .dnsProbe p => some (dnsProbeSpecUpdate p)
  | .tcpProbe p => some (tcpProbeSpecUpdate p)
  | .k6Test t => some (k6TestSpecUpdate t)
  | .playwrightTest t => some (playwrightTestSpecUpdate t)
  | .heartbeat h => out.token.map (heartbeatSpecUpdate h)

def resyncItem (out : Outside) (read : Read) : Option SpecUpdate :=
  read.seen.bind fun o =>
    if o.value.objectMeta.deleting then none else resyncLive out o.value

/-- What the reconciler of its kind publishes for a resource that is not being
deleted.  Only that of the Heartbeats differs from the resyncer: a token it cannot
resolve is answered with a tombstone, and it first writes the ping URL. -/
def reconcileLive (out : Outside) : Resource → Option SpecUpdate
  | .heartbeat h =>
      match out.token with
      | none => some (tombstone .heartbeat h.ns h.name)
      | some token => if out.urlSynced then some (heartbeatSpecUpdate h token) else none
  | r => resyncLive out r

/-- `Reconcile` after its `Get`: a tombstone when the resource is not found or is
being deleted. -/
def reconcile (out : Outside) (read : Read) : Option SpecUpdate :=
  match read.seen with
  | none => some (tombstone read.key.kind read.key.name.ns read.key.name.name)
  | some o =>
      let m := o.value.objectMeta
      if m.deleting then some (tombstone o.value.kind m.ns m.name)
      else reconcileLive out o.value

/-- The kinds in the order `resync` lists them. -/
def resyncKinds : List Kind :=
  [.httpProbe, .dnsProbe, .tcpProbe, .k6Test, .heartbeat, .playwrightTest]

/-! ## The system -/

/-- A published message, with the read it was built from and the instant it was
sent. -/
structure Publication where
  msg : SpecUpdate
  read : Read
  time : Nat
  built : ∃ out, reconcile out read = some msg ∨ resyncItem out read = some msg

/-- `reconciles` are the calls of `Reconcile` between their `Get` and their
publish.  `kinds` and `items` are what the running `resync` has left to list, and
to publish from its last list. -/
structure State where
  api : VersionedStore CrKey Resource
  reconciles : List Read
  kinds : List Kind
  items : List Read
  log : List Publication
  keyed : api.Everywhere fun k r => r.key = k

inductive Action where
  -- writes to the API server
  | create (r : Resource)
  | update (r : Resource)
  | remove (k : CrKey)
  -- a `Reconcile`: its `Get`, and the rest of the call with that index
  | get (k : CrKey)
  | reconcile (i : Nat) (out : Outside)
  -- a `resync`: its start, the next `List` and the next item; `none` is a list that
  -- failed, or that of the Heartbeats when there is no `TokenReader`
  | resync
  | list (order : Option (List CrKey))
  | resyncItem (out : Outside)

namespace State

def empty : State where
  api := .empty
  reconciles := []
  kinds := []
  items := []
  log := []
  keyed := VersionedStore.everywhere_empty

variable (s : State)

def read (k : CrKey) : Read := ⟨s.api.read k, s.keyed k⟩

/-- The order is that of a list of all resources of the kind. -/
def Lists (kind : Kind) (order : List CrKey) : Prop :=
  order.Nodup ∧ order.toFinset = s.api.objects.keys.filter (·.kind = kind)

instance (kind : Kind) (order : List CrKey) : Decidable (s.Lists kind order) :=
  inferInstanceAs (Decidable (_ ∧ _))

def publication : Action → Option Publication
  | .reconcile i out =>
      match s.reconciles[i]? with
      | none => none
      | some read =>
          match h : reconcile out read with
          | none => none
          | some msg =>
              if out.sent then some ⟨msg, read, s.api.clock, out, .inl h⟩ else none
  | .resyncItem out =>
      match s.items with
      | [] => none
      | read :: _ =>
          match h : resyncItem out read with
          | none => none
          | some msg =>
              if out.sent then some ⟨msg, read, s.api.clock, out, .inr h⟩ else none
  | _ => none

/-- The same state one instant later, which is also what a step does that the
state does not allow. -/
def tick : State := { s with api := s.api.tick }

def advance : Action → State
  | .create r => { s with api := s.api.create r.key r, keyed := s.keyed.create rfl }
  | .update r => { s with api := s.api.update r.key r, keyed := s.keyed.update rfl }
  | .remove k => { s with api := s.api.remove k, keyed := s.keyed.remove }
  | .get k =>
      if k.kind.served then { s.tick with reconciles := s.reconciles ++ [s.read k] }
      else s.tick
  | .reconcile i _ => { s.tick with reconciles := s.reconciles.eraseIdx i }
  | .resync =>
      if s.kinds = [] ∧ s.items = [] then { s.tick with kinds := resyncKinds } else s.tick
  | .list order =>
      match s.kinds, s.items, order with
      | _ :: kinds, [], none => { s.tick with kinds := kinds }
      | kind :: kinds, [], some order =>
          if s.Lists kind order then
            { s.tick with kinds := kinds, items := order.map s.read }
          else s.tick
      | _, _, _ => s.tick
  | .resyncItem _ => { s.tick with items := s.items.tail }

def step (a : Action) : State :=
  { s.advance a with log := s.log ++ (s.publication a).toList }

end State

def run (actions : List Action) : State := actions.foldl State.step .empty

end SyntheticsOperator.Controllers
