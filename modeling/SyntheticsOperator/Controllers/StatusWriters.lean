import SyntheticsOperator.Controllers.HeartbeatController
import SyntheticsOperator.Controllers.PingWriter
import SyntheticsOperator.Support.MergePatch

/-!
# The writers of a Heartbeat

A user writes the object, the reconciler and the ping writer write its status, both with
merge patches made from what their cache has.  `HeartbeatField` are the parts of the object
as a patch sees them.
-/

namespace SyntheticsOperator.Controllers

open SyntheticsOperator.Api
open SyntheticsOperator.Results (HeartbeatPing)
open SyntheticsOperator.Support
open SyntheticsOperator.Support.MergePatch (Writers)

/-- Metadata and spec, which only a user writes, and the fields of the status. -/
inductive HeartbeatField where
  | object
  | observedGeneration
  | conditions
  | url
  | tokenSecretName
  | lastPingTime
  | lastResult
deriving DecidableEq

/-- A condition as it is stored: `metav1.Time` is written in whole seconds. -/
structure StoredCondition where
  type : String
  status : Bool
  observedGeneration : Int
  lastTransitionUnix : Int
  reason : String
  message : String
deriving DecidableEq

def StoredCondition.ofCondition (c : Condition) : StoredCondition :=
  ⟨c.type, c.status, c.observedGeneration, c.lastTransitionTime.unix, c.reason, c.message⟩

def StoredCondition.condition (c : StoredCondition) : Condition :=
  ⟨c.type, c.status, c.observedGeneration, Time.ofUnix c.lastTransitionUnix, c.reason, c.message⟩

abbrev HeartbeatField.Value : HeartbeatField → Type
  | .object => ObjectMeta × HeartbeatSpec
  | .observedGeneration => Int
  | .conditions => List StoredCondition
  | .url => GoString
  | .tokenSecretName => String
  | .lastPingTime => Option Int
  | .lastResult => String

instance : (f : HeartbeatField) → DecidableEq f.Value
  | .object => inferInstanceAs (DecidableEq (ObjectMeta × HeartbeatSpec))
  | .observedGeneration => inferInstanceAs (DecidableEq Int)
  | .conditions => inferInstanceAs (DecidableEq (List StoredCondition))
  | .url => inferInstanceAs (DecidableEq GoString)
  | .tokenSecretName => inferInstanceAs (DecidableEq String)
  | .lastPingTime => inferInstanceAs (DecidableEq (Option Int))
  | .lastResult => inferInstanceAs (DecidableEq String)

/-- An array is one field of a merge patch. -/
def heartbeatFields (beat : Heartbeat) : ∀ f, HeartbeatField.Value f
  | .object => (beat.toObjectMeta, beat.spec)
  | .observedGeneration => beat.status.observedGeneration
  | .conditions => beat.status.conditions.map StoredCondition.ofCondition
  | .url => beat.status.url
  | .tokenSecretName => beat.status.tokenSecretName
  | .lastPingTime => beat.status.lastPingTime.map Time.unix
  | .lastResult => beat.status.lastResult

/-- The object that a read returns. -/
def ofHeartbeatFields (r : ∀ f, HeartbeatField.Value f) : Heartbeat where
  toObjectMeta := (r .object).1
  spec := (r .object).2
  status :=
    { observedGeneration := r .observedGeneration
      conditions := (r .conditions).map StoredCondition.condition
      url := r .url
      tokenSecretName := r .tokenSecretName
      lastPingTime := (r .lastPingTime).map Time.ofUnix
      lastResult := r .lastResult }

/-- What is read and written back is unchanged. -/
theorem heartbeatFields_ofHeartbeatFields (r : ∀ f, HeartbeatField.Value f) :
    heartbeatFields (ofHeartbeatFields r) = r := by
  funext f
  cases f with
  | conditions =>
      have hsame : StoredCondition.ofCondition ∘ StoredCondition.condition = id := by
        funext c
        simp [StoredCondition.ofCondition, StoredCondition.condition, Time.unix_ofUnix]
      simp [heartbeatFields, ofHeartbeatFields, hsame]
  | lastPingTime =>
      have hsame : Time.unix ∘ Time.ofUnix = id := funext Time.unix_ofUnix
      simp [heartbeatFields, ofHeartbeatFields, hsame]
  | _ => rfl

/-! ## What each of them does -/

/-- How a `Reconcile` ends: its libraries, the instant of its clock, the URL and the name of
the Secret or the error of the token, and whether its `Patch` succeeds. -/
structure ReconcileOp where
  kube : Kube
  now : Time
  outcome : Except TokenError (GoString × String)
  patched : Bool

def ReconcileOp.status (op : ReconcileOp) (beat : Heartbeat) : HeartbeatStatus :=
  match op.outcome with
  | .error err => HeartbeatReconciler.failedStatus op.kube beat op.now err
  | .ok (url, secretName) => HeartbeatReconciler.readyStatus op.kube beat op.now url secretName

/-- The status that `patchStatus` sends, if it does. -/
def ReconcileOp.act (op : ReconcileOp) (beat : Heartbeat) : Option Heartbeat :=
  if heartbeatStatusChanged beat.status (op.status beat) && op.patched then
    some { beat with status := op.status beat }
  else none

inductive PingOp where
  | ping (msg : HeartbeatPing) (patched : Bool)
  | restart

/-- `onPing` when the object is the one Heartbeat there is. -/
def PingOp.act (w : PingWriter) (beat : Heartbeat) : PingOp → PingWriter × Option Heartbeat
  | .ping msg patched =>
      let (w, sent) := w.onPing
        (fun name => if name = ⟨beat.ns, beat.name⟩ then .ok beat else .error .notFound)
        (fun _ => patched) msg
      (w, if patched then sent else none)
  | .restart => ({ w with lastWrite := ∅ }, none)

inductive HeartbeatWriter where
  | user
  | reconciler
  | pingWriter
deriving DecidableEq

namespace HeartbeatWriter

abbrev State : HeartbeatWriter → Type
  | .pingWriter => PingWriter
  | _ => Unit

abbrev Op : HeartbeatWriter → Type
  | .user => ObjectMeta × HeartbeatSpec
  | .reconciler => ReconcileOp
  | .pingWriter => PingOp

def owner : HeartbeatField → HeartbeatWriter
  | .object => .user
  | .lastPingTime | .lastResult => .pingWriter
  | _ => .reconciler

/-- Each reads what it owns, and all read the object. -/
def Reads (w : HeartbeatWriter) (f : HeartbeatField) : Prop := owner f = w ∨ f = .object

def act : (w : HeartbeatWriter) → w.State → w.Op → (∀ f, HeartbeatField.Value f) →
    w.State × Option (∀ f, HeartbeatField.Value f)
  | .user, _, object, seen =>
      ((), some fun
        | .object => object
        | .observedGeneration => seen .observedGeneration
        | .conditions => seen .conditions
        | .url => seen .url
        | .tokenSecretName => seen .tokenSecretName
        | .lastPingTime => seen .lastPingTime
        | .lastResult => seen .lastResult)
  | .reconciler, _, op, seen => ((), (op.act (ofHeartbeatFields seen)).map heartbeatFields)
  | .pingWriter, w, op, seen =>
      let (w, sent) := op.act w (ofHeartbeatFields seen)
      (w, sent.map heartbeatFields)

end HeartbeatWriter

/-! ## What each of them reads and writes -/

/-- The Heartbeat with other fields of the ping writer. -/
def withPing (beat : Heartbeat) (lastPingTime : Option Time) (lastResult : String) : Heartbeat :=
  { beat with
    status := { beat.status with lastPingTime := lastPingTime, lastResult := lastResult } }

/-- The reconciler reads no field of the ping writer, and keeps them as it has read them. -/
theorem ReconcileOp.act_withPing (op : ReconcileOp) (beat : Heartbeat) (lastPingTime : Option Time)
    (lastResult : String) :
    op.act (withPing beat lastPingTime lastResult) =
      (op.act beat).map fun sent => withPing sent lastPingTime lastResult := by
  have hstatus : op.status (withPing beat lastPingTime lastResult) =
      { op.status beat with lastPingTime := lastPingTime, lastResult := lastResult } := by
    unfold ReconcileOp.status
    split <;> rfl
  have hchanged : heartbeatStatusChanged (withPing beat lastPingTime lastResult).status
      (op.status (withPing beat lastPingTime lastResult)) =
        heartbeatStatusChanged beat.status (op.status beat) := by
    rw [hstatus]
    rfl
  simp only [ReconcileOp.act, hchanged]
  split
  · rw [hstatus]
    rfl
  · rfl

theorem ReconcileOp.act_eq_some {op : ReconcileOp} {beat sent : Heartbeat}
    (h : op.act beat = some sent) :
    sent.toObjectMeta = beat.toObjectMeta ∧ sent.spec = beat.spec ∧
      sent.status.lastPingTime = beat.status.lastPingTime ∧
      sent.status.lastResult = beat.status.lastResult := by
  simp only [ReconcileOp.act, Option.ite_none_right_eq_some, Option.some.injEq] at h
  obtain ⟨_, rfl⟩ := h
  refine ⟨rfl, rfl, ?_⟩
  simp only [ReconcileOp.status]
  split <;> exact ⟨rfl, rfl⟩

/-- The ping writer goes by the name, the spec and the last result, and sends its two
fields. -/
theorem PingOp.act_ping (w : PingWriter) (beat : Heartbeat) (msg : HeartbeatPing) (patched : Bool) :
    (PingOp.ping msg patched).act w beat =
      if pingTarget msg = ⟨beat.ns, beat.name⟩ then
        match w.shouldWrite (pingTarget msg) msg.receivedAt
            (pingResult msg ≠ beat.status.lastResult) (w.throttleFor beat) with
        | (false, w) => (w, none)
        | (true, w) =>
            if patched then (w, some (persistPing beat msg))
            else (w.forget (pingTarget msg), none)
      else (w, none) := by
  by_cases hname : pingTarget msg = ⟨beat.ns, beat.name⟩
  · simp only [PingOp.act, PingWriter.onPing, if_pos hname]
    rcases w.shouldWrite (pingTarget msg) msg.receivedAt
      (pingResult msg ≠ beat.status.lastResult) (w.throttleFor beat) with ⟨_ | _, w'⟩
    · simp
    · cases patched <;> rfl
  · simp only [PingOp.act, PingWriter.onPing, if_neg hname, ite_self]

namespace HeartbeatWriter

variable {w : HeartbeatWriter} {s : w.State} {op : w.Op} {seen seen' : ∀ f, HeartbeatField.Value f}

theorem act_frame {new : ∀ f, HeartbeatField.Value f} (h : (w.act s op seen).2 = some new)
    (f : HeartbeatField) (hf : owner f ≠ w) : new f = seen f := by
  rw [← congrFun (heartbeatFields_ofHeartbeatFields seen) f]
  cases w with
  | user =>
      cases h
      rw [heartbeatFields_ofHeartbeatFields]
      cases f with
      | object => exact absurd rfl hf
      | _ => rfl
  | reconciler =>
      obtain ⟨sent, hsent, rfl⟩ := Option.map_eq_some_iff.mp h
      obtain ⟨hmeta, hspec, htime, hresult⟩ := ReconcileOp.act_eq_some hsent
      cases f with
      | object => simp [heartbeatFields, hmeta, hspec]
      | lastPingTime => simp [heartbeatFields, htime]
      | lastResult => simp [heartbeatFields, hresult]
      | _ => exact absurd rfl hf
  | pingWriter =>
      cases op with
      | restart => cases h
      | ping msg patched =>
          simp only [act, Option.map_eq_some_iff] at h
          obtain ⟨sent, hsent, rfl⟩ := h
          have hsent' : sent = persistPing (ofHeartbeatFields seen) msg := by
            rw [PingOp.act_ping] at hsent
            split at hsent
            · split at hsent
              · cases hsent
              · split at hsent
                · exact (Option.some.inj hsent).symm
                · cases hsent
            · cases hsent
          subst hsent'
          cases f with
          | lastPingTime => exact absurd rfl hf
          | lastResult => exact absurd rfl hf
          | _ => rfl

theorem act_congr (h : ∀ f, w.Reads f → seen f = seen' f) :
    (w.act s op seen).1 = (w.act s op seen').1 ∧
      Option.Rel (fun new new' => ∀ f, owner f = w → new f = new' f) (w.act s op seen).2
        (w.act s op seen').2 := by
  have hobject : seen .object = seen' .object := h .object (.inr rfl)
  cases w with
  | user =>
      refine ⟨rfl, .some fun f hf => ?_⟩
      cases f with
      | object => rfl
      | _ => cases hf
  | reconciler =>
      have hwith : ofHeartbeatFields seen = withPing (ofHeartbeatFields seen')
          ((seen .lastPingTime).map Time.ofUnix) (seen .lastResult) := by
        simp only [ofHeartbeatFields, withPing, hobject, h .observedGeneration (.inl rfl),
          h .conditions (.inl rfl), h .url (.inl rfl), h .tokenSecretName (.inl rfl)]
      refine ⟨rfl, ?_⟩
      simp only [act, hwith, ReconcileOp.act_withPing]
      cases op.act (ofHeartbeatFields seen') with
      | none => exact .none
      | some sent =>
          refine .some fun f hf => ?_
          cases f with
          | object | lastPingTime | lastResult => cases hf
          | _ => rfl
  | pingWriter =>
      have hresult : seen .lastResult = seen' .lastResult := h .lastResult (.inl rfl)
      cases op with
      | restart => exact ⟨rfl, .none⟩
      | ping msg patched =>
          simp only [act, PingOp.act_ping]
          have hns : (ofHeartbeatFields seen).toObjectMeta =
              (ofHeartbeatFields seen').toObjectMeta :=
            congrArg Prod.fst hobject
          have hthrottle : PingWriter.throttleFor s (ofHeartbeatFields seen) =
              PingWriter.throttleFor s (ofHeartbeatFields seen') := by
            simp only [PingWriter.throttleFor, ofHeartbeatFields, hobject]
          have hlast : (ofHeartbeatFields seen).status.lastResult =
              (ofHeartbeatFields seen').status.lastResult := hresult
          rw [hns, hthrottle, hlast]
          split
          · split
            · exact ⟨rfl, .none⟩
            · split
              · refine ⟨rfl, .some fun f hf => ?_⟩
                cases f with
                | lastPingTime | lastResult => rfl
                | _ => cases hf
              · exact ⟨rfl, .none⟩
          · exact ⟨rfl, .none⟩

end HeartbeatWriter

/-- The writers, with what each reads and leaves alone. -/
def heartbeatWriters : Writers HeartbeatField.Value HeartbeatWriter where
  State := HeartbeatWriter.State
  Op := HeartbeatWriter.Op
  owner := HeartbeatWriter.owner
  reads := HeartbeatWriter.Reads
  act := HeartbeatWriter.act
  owned _ := .inl rfl
  frame _ _ _ _ _ h := HeartbeatWriter.act_frame h
  congr _ _ _ _ _ h := HeartbeatWriter.act_congr h

end SyntheticsOperator.Controllers
