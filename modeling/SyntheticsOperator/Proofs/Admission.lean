import SyntheticsOperator.Api.Depends
import SyntheticsOperator.Support.CappedSearch

/-!
# Admission keeps the dependency graph acyclic

The admission walk is a capped search that ends with an error when it meets the
owner or reaches its cap.  A walk that returns nil has therefore seen everything
below the new dependencies, and the owner is not among it, so writing them
closes no cycle; a delete only removes edges.
-/

namespace SyntheticsOperator.Proofs.Admission

open Relation
open SyntheticsOperator.Api
open SyntheticsOperator.Support
open SyntheticsOperator.Support.Paths

/-! ## The admission walk as a search -/

/-- The search behind `walkForCycle`: meeting the owner and reaching the cap are
its exits, and an unreadable resource is a leaf. -/
def cycleSearch (reader : Reader) (ownerRef : DependencyRef) (ns : String) :
    Search DependencyRef String where
  enter dep :=
    if dep = ownerRef then
      some ("dependency cycle: " ++ ownerRef.kind.text ++ "/" ++ ownerRef.name ++
        " eventually depends on itself")
    else none
  expand dep := (fetchDepends reader ns dep).toOption
  leave _ := none
  cut := some ("dependency chain exceeds max depth " ++ toString maxDependsDepth)

theorem walkForCycle_eq_walk (reader : Reader) (ownerRef : DependencyRef) (ns : String)
    (room : Nat) (deps : List DependencyRef) (visited : Finset DependencyRef) :
    walkForCycle reader ownerRef ns room deps visited =
      (cycleSearch reader ownerRef ns).walk room deps visited := by
  induction room generalizing deps visited with
  | zero => rfl
  | succ room ih =>
      rw [walkForCycle, Search.walk]
      congr 1
      funext visited dep
      rw [Search.visit]
      by_cases howner : dep = ownerRef
      · simp [cycleSearch, howner]
      · by_cases hseen : dep ∈ visited
        · simp [cycleSearch, howner, hseen]
        · rcases hfetch : fetchDepends reader ns dep with err | subDeps
          · simp [cycleSearch, howner, hseen, hfetch, Except.toOption]
          · have henter : (cycleSearch reader ownerRef ns).enter dep = none := by
              simp [cycleSearch, howner]
            have hexpand : (cycleSearch reader ownerRef ns).expand dep = some subDeps := by
              simp [cycleSearch, hfetch, Except.toOption]
            have hleave : (cycleSearch reader ownerRef ns).leave dep = none := rfl
            simp only [henter, hexpand, hleave, if_neg howner, if_neg hseen, ih]
            cases (cycleSearch reader ownerRef ns).walk room subDeps (insert dep visited) <;> rfl

theorem checkNoCycle_covers {reader : Reader} {owner : CrKey} {deps : List DependencyRef}
    (h : checkNoCycle reader owner deps = none) :
    ∃ V, (cycleSearch reader owner.ref owner.name.ns).Covers deps ∅ V := by
  unfold checkNoCycle at h
  split at h
  · cases h
  · rename_i V hwalk
    rw [walkForCycle_eq_walk] at hwalk
    exact ⟨V, Search.walk_covers (.inl (by simp [cycleSearch])) hwalk⟩

theorem checkNoCycle_of_validateDepends {isDNS1123Subdomain : String → List String}
    {reader : Reader} {owner : CrKey} {deps : List DependencyRef} {path : String}
    (h : validateDepends isDNS1123Subdomain reader owner deps path = []) :
    deps = [] ∨ checkNoCycle reader owner deps = none := by
  by_cases hnil : deps = []
  · exact .inl hnil
  · rcases hcheck : checkNoCycle reader owner deps with _ | err
    · exact .inr rfl
    · simp only [validateDepends, if_neg hnil, hcheck] at h
      split at h
      · cases h
      · rename_i herrs
        exact absurd h herrs

/-! ## The graph of the stored objects -/

/-- A `spec.depends` entry of the object `a` points at `b`, existing or not. -/
def Refers (c : Cluster) (a b : CrKey) : Prop :=
  ∃ deps, c.objects.lookup a = some deps ∧ ∃ dep ∈ deps, dep.key a.name.ns = b

instance (c : Cluster) (a b : CrKey) : Decidable (Refers c a b) :=
  match h : c.objects.lookup a with
  | some deps => decidable_of_iff (∃ dep ∈ deps, dep.key a.name.ns = b) (by simp [Refers, h])
  | none => isFalse (by simp [Refers, h])

/-- The edges of the dependency graph: both ends exist. -/
def DependsOn (c : Cluster) (a b : CrKey) : Prop :=
  Refers c a b ∧ b ∈ c.objects

theorem Refers.ns_eq {c : Cluster} {a b : CrKey} (h : Refers c a b) :
    b.name.ns = a.name.ns := by
  obtain ⟨_, _, dep, _, rfl⟩ := h
  rfl

theorem refers_put_of_ne {c : Cluster} {owner a b : CrKey} {deps : List DependencyRef}
    {hserved : owner.kind.served = true} (hne : a ≠ owner)
    (h : Refers (c.put owner deps hserved) a b) : Refers c a b := by
  obtain ⟨deps', hlookup, hdep⟩ := h
  rw [Cluster.put, Finmap.lookup_insert_of_ne _ hne] at hlookup
  exact ⟨deps', hlookup, hdep⟩

theorem refers_put_self {c : Cluster} {owner b : CrKey} {deps : List DependencyRef}
    {hserved : owner.kind.served = true} (h : Refers (c.put owner deps hserved) owner b) :
    ∃ dep ∈ deps, dep.key owner.name.ns = b := by
  obtain ⟨deps', hlookup, hdep⟩ := h
  rw [Cluster.put, Finmap.lookup_insert] at hlookup
  cases hlookup
  exact hdep

theorem refers_remove {c : Cluster} {owner a b : CrKey} (h : Refers (c.remove owner) a b) :
    Refers c a b := by
  obtain ⟨deps, hlookup, hdep⟩ := h
  by_cases hne : a = owner
  · rw [hne, Cluster.remove, Finmap.lookup_erase] at hlookup
    cases hlookup
  · rw [Cluster.remove, Finmap.lookup_erase_ne hne] at hlookup
    exact ⟨deps, hlookup, hdep⟩

theorem fetchDepends_reader {c : Cluster} {a : CrKey} {deps : List DependencyRef}
    (h : c.objects.lookup a = some deps) :
    fetchDepends c.reader a.name.ns a.ref = .ok deps := by
  have hserved : a.ref.kind.served = true :=
    c.served a (Finmap.mem_of_lookup_eq_some h)
  have hkey : a.ref.key a.name.ns = a := CrKey.ref_key rfl
  rw [fetchDepends, if_pos hserved, hkey]
  simp [Cluster.reader, h]

/-! ## One request -/

/-- Below dependencies that pass the check, the owner cannot be reached. -/
theorem not_reaches_owner {c : Cluster} {owner b : CrKey} {deps : List DependencyRef}
    (hcheck : checkNoCycle c.reader owner deps = none)
    (hb : ∃ dep ∈ deps, dep.key owner.name.ns = b) :
    ¬ ReflTransGen (fun y z => y ≠ owner ∧ Refers c y z) b owner := by
  obtain ⟨V, hcovers⟩ := checkNoCycle_covers hcheck
  -- everything below `b` is visited and is not the owner
  have hseen : ∀ y, ReflTransGen (fun y z => y ≠ owner ∧ Refers c y z) b y →
      y.name.ns = owner.name.ns ∧ y.ref ∈ V ∧ y.ref ≠ owner.ref := by
    intro y hby
    induction hby with
    | refl =>
        obtain ⟨dep, hdep, rfl⟩ := hb
        refine ⟨rfl, hcovers.mem dep hdep, fun heq => ?_⟩
        have henter := hcovers.enter dep hdep
        simp [cycleSearch, show dep = owner.ref from heq] at henter
    | @tail y z _ hyz ih =>
        obtain ⟨hns, hy, _⟩ := ih
        obtain ⟨deps', hlookup, dep, hdep, rfl⟩ := hyz.2
        have hexpand : (cycleSearch c.reader owner.ref owner.name.ns).expand y.ref =
            some deps' := by
          rw [← hns]
          simp [cycleSearch, fetchDepends_reader hlookup, Except.toOption]
        obtain ⟨hmem, henter⟩ := (hcovers.closed y.ref hy (by simp) deps' hexpand).2 dep hdep
        refine ⟨hns, hmem, fun heq => ?_⟩
        simp [cycleSearch, show dep = owner.ref from heq] at henter
  exact fun howner => (hseen owner howner).2.2 rfl

theorem acyclic_put {c : Cluster} {owner : CrKey} {deps : List DependencyRef}
    {isDNS1123Subdomain : String → List String} (hserved : owner.kind.served = true)
    (hc : Acyclic (Refers c)) (hadmits : c.admits isDNS1123Subdomain owner deps = true) :
    Acyclic (Refers (c.put owner deps hserved)) := by
  have hvalid : validateDepends isDNS1123Subdomain c.reader owner deps dependsPath = [] := by
    simpa [Cluster.admits] using hadmits
  refine hc.replace (fun y z hne h => refers_put_of_ne hne h) fun z hz => ?_
  have htarget := refers_put_self hz
  rcases checkNoCycle_of_validateDepends hvalid with rfl | hcheck
  · obtain ⟨_, hdep, _⟩ := htarget
    cases hdep
  · exact not_reaches_owner hcheck htarget

theorem acyclic_step (isDNS1123Subdomain : String → List String) (c : Cluster) (op : Op)
    (hc : Acyclic (Refers c)) : Acyclic (Refers (c.step isDNS1123Subdomain op)) := by
  cases op with
  | write owner deps =>
      rw [Cluster.step]
      split
      · rename_i hserved
        split
        · rename_i hadmits
          exact acyclic_put hserved hc hadmits
        · exact hc
      · exact hc
  | delete owner => exact hc.mono fun _ _ => refers_remove

/-! ## Every sequence of requests -/

theorem acyclic_refers_run (isDNS1123Subdomain : String → List String) (ops : List Op) :
    Acyclic (Refers (Cluster.run isDNS1123Subdomain ops)) := by
  have hempty : Acyclic (Refers Cluster.empty) := by
    intro a hcycle
    obtain ⟨b, ⟨deps, hlookup, _⟩, _⟩ := TransGen.head'_iff.mp hcycle
    cases hlookup
  exact List.foldlRecOn (motive := fun c => Acyclic (Refers c)) ops _ hempty
    fun c hc op _ => acyclic_step isDNS1123Subdomain c op hc

/-- After every sequence of creates, updates and deletes in which each write had
to pass `ValidateDepends`, the graph of the existing resources has no cycle. -/
theorem run_dependsOn_acyclic (isDNS1123Subdomain : String → List String) (ops : List Op) :
    Acyclic (DependsOn (Cluster.run isDNS1123Subdomain ops)) :=
  (acyclic_refers_run isDNS1123Subdomain ops).mono fun _ _ h => h.1

end SyntheticsOperator.Proofs.Admission
