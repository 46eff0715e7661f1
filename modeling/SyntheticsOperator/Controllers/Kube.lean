import SyntheticsOperator.Api.Types

/-!
# What the controllers call of the Kubernetes libraries

The functions of `controllerutil` and `apimeta` are not part of this repository.  They are
parameters of the model, and what a result needs of them is a hypothesis of that result.
-/

namespace SyntheticsOperator.Controllers

open SyntheticsOperator.Api
open SyntheticsOperator.Support

/-- The owner reference that marks the controller of an object. -/
structure OwnerReference where
  kind : Kind
  name : String
  uid : String
deriving DecidableEq

/-- `controllerutil.SetControllerReference` reads and writes the owner references of the
controlled object and nothing else; `apimeta.SetStatusCondition` changes a list in place. -/
structure Kube where
  setControllerReference : OwnerReference → Option OwnerReference → Except String OwnerReference
  setStatusCondition : List Condition → Condition → List Condition

namespace OwnerReference

/-- Another object than `owner`. -/
def Foreign (owner other : OwnerReference) : Prop :=
  ¬ (other.kind = owner.kind ∧ other.name = owner.name)

instance (owner : OwnerReference) : DecidablePred owner.Foreign :=
  fun _ => inferInstanceAs (Decidable (¬ _))

end OwnerReference

/-- The condition is there, since whatever time: the first one of its type. -/
def HasCondition (conditions : List Condition) (c : Condition) : Prop :=
  ∃ since, conditions.find? (·.type = c.type) = some { c with lastTransitionTime := since }

namespace Kube

/-- `SetControllerReference` fails exactly when the controller is another object. -/
structure OneController (kube : Kube) : Prop where
  sets : ∀ owner existing, (∀ other, existing = some other → ¬ owner.Foreign other) →
    kube.setControllerReference owner existing = .ok owner
  refuses : ∀ owner other, owner.Foreign other →
    ∃ err, kube.setControllerReference owner (some other) = .error err

/-- A condition that was set is there, one of another type stays there, and a condition that
is there is not written again. -/
structure SetsConditions (kube : Kube) : Prop where
  has : ∀ conditions c, HasCondition (kube.setStatusCondition conditions c) c
  keeps : ∀ conditions c c', HasCondition conditions c → c'.type ≠ c.type →
    HasCondition (kube.setStatusCondition conditions c') c
  unchanged : ∀ conditions c, HasCondition conditions c →
    kube.setStatusCondition conditions c = conditions

/-- The condition, with the transition time of the one it replaces when the status of that
is the same. -/
def replacing (c old : Condition) : Condition :=
  if old.status = c.status then { c with lastTransitionTime := old.lastTransitionTime } else c

/-- The first condition of the type is replaced. -/
def setFirst (c : Condition) : List Condition → List Condition
  | [] => [c]
  | old :: conditions =>
      if old.type = c.type then replacing c old :: conditions else old :: setFirst c conditions

/-- Libraries that follow the rules above, for running the model. -/
def sample : Kube where
  setControllerReference owner existing :=
    match existing with
    | some other => if owner.Foreign other then .error "already owned" else .ok owner
    | none => .ok owner
  setStatusCondition conditions c := setFirst c conditions

theorem sample_oneController : sample.OneController where
  sets owner existing h := by
    cases existing with
    | none => rfl
    | some other => simp [sample, h other rfl]
  refuses owner other h := ⟨"already owned", by simp [sample, h]⟩

theorem replacing_type (c old : Condition) : (replacing c old).type = c.type := by
  unfold replacing
  split <;> rfl

theorem replacing_since (c old : Condition) :
    ∃ since, replacing c old = { c with lastTransitionTime := since } := by
  unfold replacing
  split
  · exact ⟨_, rfl⟩
  · exact ⟨c.lastTransitionTime, rfl⟩

theorem hasCondition_cons_of_ne {old c : Condition} (conditions : List Condition)
    (h : old.type ≠ c.type) :
    HasCondition (old :: conditions) c ↔ HasCondition conditions c := by
  rw [HasCondition, List.find?_cons_of_neg (by simpa using h), HasCondition]

theorem hasCondition_setFirst (c : Condition) (conditions : List Condition) :
    HasCondition (setFirst c conditions) c := by
  induction conditions with
  | nil => exact ⟨c.lastTransitionTime, by simp [setFirst]⟩
  | cons old conditions ih =>
      unfold setFirst
      split
      · obtain ⟨since, hsince⟩ := replacing_since c old
        refine ⟨since, ?_⟩
        rw [List.find?_cons_of_pos (by simp [replacing_type]), hsince]
      · rename_i hne
        exact (hasCondition_cons_of_ne _ hne).mpr ih

theorem setFirst_keeps {c c' : Condition} (hne : c'.type ≠ c.type) (conditions : List Condition)
    (h : HasCondition conditions c) : HasCondition (setFirst c' conditions) c := by
  induction conditions with
  | nil =>
      obtain ⟨since, hnone⟩ := h
      cases hnone
  | cons old conditions ih =>
      unfold setFirst
      split
      · rename_i htype
        have hold : old.type ≠ c.type := fun h' => hne (htype.symm.trans h')
        have hnew : (replacing c' old).type ≠ c.type := by rwa [replacing_type]
        exact (hasCondition_cons_of_ne _ hnew).mpr ((hasCondition_cons_of_ne _ hold).mp h)
      · by_cases hold : old.type = c.type
        · obtain ⟨since, hfound⟩ := h
          refine ⟨since, ?_⟩
          rw [List.find?_cons_of_pos (by simpa using hold)] at hfound ⊢
          exact hfound
        · exact (hasCondition_cons_of_ne _ hold).mpr
            (ih ((hasCondition_cons_of_ne _ hold).mp h))

theorem setFirst_unchanged {c : Condition} (conditions : List Condition)
    (h : HasCondition conditions c) : setFirst c conditions = conditions := by
  induction conditions with
  | nil =>
      obtain ⟨since, hnone⟩ := h
      cases hnone
  | cons old conditions ih =>
      by_cases hold : old.type = c.type
      · obtain ⟨since, hfound⟩ := h
        rw [List.find?_cons_of_pos (by simpa using hold)] at hfound
        cases hfound
        simp [setFirst, replacing]
      · rw [setFirst, if_neg hold, ih ((hasCondition_cons_of_ne _ hold).mp h)]

theorem sample_setsConditions : sample.SetsConditions where
  has conditions c := hasCondition_setFirst c conditions
  keeps conditions _ _ h hne := setFirst_keeps hne conditions h
  unchanged conditions _ h := setFirst_unchanged conditions h

end Kube

end SyntheticsOperator.Controllers
