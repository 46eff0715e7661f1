import SyntheticsOperator.Proofs.Admission
import SyntheticsOperator.Support.FirstPaths

/-!
# Exactness of the cycle check

`checkNoCycle` finds the owner whenever it can be reached.  Its cap on the depth bounds the
first path to each resource, in the order of the `depends` lists, and not the longest: a
resource that is listed early hides a long path to it.
-/

namespace SyntheticsOperator.Proofs.CycleCheck

open Relation
open SyntheticsOperator.Api
open SyntheticsOperator.Proofs.Admission
open SyntheticsOperator.Support
open SyntheticsOperator.Support.FirstPaths
open SyntheticsOperator.Support.Paths

/-! ## Paths from the owner -/

section Paths

variable (c : Cluster) (owner : CrKey) (deps : List DependencyRef)

/-- The dependencies of a resource; a missing one has none. -/
def follows (ns : String) (dep : DependencyRef) : List DependencyRef :=
  (c.objects.lookup (dep.key ns)).getD []

/-- The owner can be reached from the direct dependencies. -/
def Reachable : Prop :=
  ∃ dep ∈ deps, ReflTransGen (Refers c) (dep.key owner.name.ns) owner

/-- A path of this many edges starts at the owner, with the direct dependencies for its
edges, and goes through existing resources. -/
def OwnerPath : Nat → Prop
  | 0 => True
  | n + 1 => ∃ dep ∈ deps, dep.key owner.name.ns ∈ c.objects ∧
      ∃ b, Path (DependsOn c) n (dep.key owner.name.ns) b

/-- The resources after the owner on a path through existing resources that repeats none. -/
structure SimplePath (l : List DependencyRef) : Prop where
  trail : Trail (follows c owner.name.ns) deps l
  nodup : l.Nodup
  avoids : owner.ref ∉ l
  exist : ∀ dep ∈ l, dep.key owner.name.ns ∈ c.objects

/-- The first path to an existing resource, in the order of the lists. -/
structure FirstPath (l : List DependencyRef) : Prop where
  first : First (follows c owner.name.ns) deps l
  exists_last : ∃ dep ∈ l.getLast?, dep.key owner.name.ns ∈ c.objects

end Paths

variable {c : Cluster} {owner : CrKey} {deps l : List DependencyRef} {ns : String}

theorem mem_of_mem_follows {dep dep' : DependencyRef} (h : dep' ∈ follows c ns dep) :
    dep.key ns ∈ c.objects ∧ Refers c (dep.key ns) (dep'.key ns) := by
  cases hlookup : c.objects.lookup (dep.key ns) with
  | none => simp [follows, hlookup] at h
  | some next =>
      rw [follows, hlookup] at h
      exact ⟨Finmap.mem_of_lookup_eq_some hlookup, next, hlookup, dep', h, rfl⟩

/-- On a path to an existing resource all resources exist, and the path is one of
`DependsOn`. -/
theorem trail_path {dep : DependencyRef} (h : Trail (follows c ns) deps (dep :: l))
    (hlast : ∃ last ∈ (dep :: l).getLast?, last.key ns ∈ c.objects) :
    (∀ dep' ∈ dep :: l, dep'.key ns ∈ c.objects) ∧
      ∃ b, Path (DependsOn c) l.length (dep.key ns) b := by
  induction l generalizing dep deps with
  | nil =>
      obtain ⟨last, hmem, hexists⟩ := hlast
      cases hmem
      exact ⟨by simpa using hexists, dep.key ns, rfl⟩
  | cons dep' l ih =>
      rw [List.getLast?_cons_cons] at hlast
      obtain ⟨hall, b, hpath⟩ := ih h.2 hlast
      obtain ⟨hexists, hrefers⟩ := mem_of_mem_follows h.2.1
      refine ⟨?_, b, dep'.key ns, ⟨hrefers, hall dep' List.mem_cons_self⟩, hpath⟩
      intro dep'' hdep''
      rcases List.mem_cons.mp hdep'' with rfl | hdep''
      · exact hexists
      · exact hall dep'' hdep''

theorem FirstPath.ownerPath (h : FirstPath c owner deps l) : OwnerPath c owner deps l.length := by
  cases l with
  | nil => trivial
  | cons dep l =>
      obtain ⟨hall, b, hpath⟩ := trail_path h.first.trail h.exists_last
      exact ⟨dep, h.first.trail.1, hall dep List.mem_cons_self, b, hpath⟩

/-- What is on a path from the dependencies can be reached from them. -/
theorem trail_reaches {dep : DependencyRef} (h : Trail (follows c ns) deps l) (hdep : dep ∈ l) :
    ∃ dep' ∈ deps, ReflTransGen (Refers c) (dep'.key ns) (dep.key ns) := by
  induction l generalizing deps with
  | nil => cases hdep
  | cons dep' l ih =>
      rcases List.mem_cons.mp hdep with rfl | hdep
      · exact ⟨dep, h.1, .refl⟩
      · obtain ⟨dep'', hdep'', hreach⟩ := ih h.2 hdep
        exact ⟨dep', h.1, .head (mem_of_mem_follows hdep'').2 hreach⟩

theorem FirstPath.simplePath (h : FirstPath c owner deps l) (hreach : ¬ Reachable c owner deps) :
    SimplePath c owner deps l where
  trail := h.first.trail
  nodup := h.first.nodup
  avoids howner := by
    obtain ⟨dep, hdep, hpath⟩ := trail_reaches h.first.trail howner
    rw [CrKey.ref_key rfl] at hpath
    exact hreach ⟨dep, hdep, hpath⟩
  exist := by
    cases l with
    | nil => simp
    | cons dep l => exact (trail_path h.first.trail h.exists_last).1

/-! ## The check -/

theorem expand_cycleSearch (c : Cluster) (ownerRef : DependencyRef) (ns : String)
    (dep : DependencyRef) :
    (cycleSearch c.reader ownerRef ns).expand dep = c.objects.lookup (dep.key ns) := by
  cases hlookup : c.objects.lookup (dep.key ns) with
  | none =>
      by_cases hserved : dep.kind.served = true
      · simp [cycleSearch, fetchDepends, hserved, Cluster.reader, hlookup, Except.toOption]
      · simp [cycleSearch, fetchDepends, hserved, Except.toOption]
  | some next =>
      have hfetch := fetchDepends_reader hlookup
      simp only [cycleSearch]
      rw [show fetchDepends c.reader ns dep = .ok next from hfetch]
      rfl

theorem succs_cycleSearch (c : Cluster) (ownerRef : DependencyRef) (ns : String) :
    succs (cycleSearch c.reader ownerRef ns) = follows c ns := by
  funext dep
  rw [succs, follows, expand_cycleSearch]

theorem checkNoCycle_eq_none_iff_walk (reader : Reader) (owner : CrKey)
    (deps : List DependencyRef) :
    checkNoCycle reader owner deps = none ↔
      ∃ V, (cycleSearch reader owner.ref owner.name.ns).walk maxDependsDepth deps ∅ = .ok V := by
  rw [checkNoCycle, walkForCycle_eq_walk]
  cases (cycleSearch reader owner.ref owner.name.ns).walk maxDependsDepth deps ∅ with
  | error err => simp
  | ok V => simp

theorem not_reachable_of_checkNoCycle (h : checkNoCycle c.reader owner deps = none) :
    ¬ Reachable c owner deps := by
  intro hreach
  obtain ⟨dep, hdep, hpath⟩ := hreach
  exact not_reaches_owner h ⟨dep, hdep, rfl⟩
    (reflTransGen_first_arrival (fun _ _ _ hedge => hedge) hpath)

/-- The check returns nil exactly when the owner cannot be reached and every first path is
shorter than the cap. -/
theorem checkNoCycle_eq_none_iff (c : Cluster) (owner : CrKey) (deps : List DependencyRef) :
    checkNoCycle c.reader owner deps = none ↔
      ¬ Reachable c owner deps ∧ ∀ l, FirstPath c owner deps l → l.length < maxDependsDepth := by
  by_cases hreach : Reachable c owner deps
  · simp only [hreach, not_true_eq_false, false_and, iff_false]
    exact fun hnil => not_reachable_of_checkNoCycle hnil hreach
  · -- no exit on meeting the owner
    have henter : ∀ t ∈ deps, ∀ x,
        ReflTransGen (cycleSearch c.reader owner.ref owner.name.ns).Edge t x →
          (cycleSearch c.reader owner.ref owner.name.ns).enter x = none := by
      intro t ht x htx
      have hpath : ReflTransGen (Refers c) (t.key owner.name.ns) (x.key owner.name.ns) := by
        apply htx.lift (fun dep => dep.key owner.name.ns)
        intro a b hab
        obtain ⟨next, hexpand, hb⟩ := hab
        rw [expand_cycleSearch] at hexpand
        exact ⟨next, hexpand, b, hb, rfl⟩
      apply if_neg
      intro heq
      rw [heq, CrKey.ref_key rfl] at hpath
      exact hreach ⟨t, ht, hpath⟩
    have hwalk := walk_eq_ok_iff 15 (by simp [cycleSearch]) (fun _ => rfl) henter
    simp only [succs_cycleSearch, expand_cycleSearch, ← Option.isSome_iff_ne_none,
      Finmap.lookup_isSome] at hwalk
    rw [checkNoCycle_eq_none_iff_walk, show maxDependsDepth = 15 + 1 from rfl, hwalk]
    constructor
    · intro hshort
      exact ⟨hreach, fun l hl => hshort l hl.first hl.exists_last⟩
    · intro hshort l hfirst hlast
      exact hshort.2 l ⟨hfirst, hlast⟩

/-- The check says whether the owner can be reached or a path has as many edges as the cap,
exactly when the owner can be reached, no path is that long, or a first path is that long.
The same holds when paths may not repeat a resource. -/
theorem checkNoCycle_exact_iff (c : Cluster) (owner : CrKey) (deps : List DependencyRef) :
    ((checkNoCycle c.reader owner deps = none ↔
        ¬ Reachable c owner deps ∧ ∀ n, OwnerPath c owner deps n → n < maxDependsDepth) ↔
      Reachable c owner deps ∨ (∀ n, OwnerPath c owner deps n → n < maxDependsDepth) ∨
        ∃ l, FirstPath c owner deps l ∧ maxDependsDepth ≤ l.length) ∧
    ((checkNoCycle c.reader owner deps = none ↔
        ¬ Reachable c owner deps ∧ ∀ l, SimplePath c owner deps l → l.length < maxDependsDepth) ↔
      Reachable c owner deps ∨ (∀ l, SimplePath c owner deps l → l.length < maxDependsDepth) ∨
        ∃ l, FirstPath c owner deps l ∧ maxDependsDepth ≤ l.length) := by
  rw [checkNoCycle_eq_none_iff]
  by_cases hreach : Reachable c owner deps
  · simp [hreach]
  · simp only [hreach, not_false_eq_true, true_and, false_or]
    -- a first path is one of the paths
    have hpath : (∀ n, OwnerPath c owner deps n → n < maxDependsDepth) →
        ∀ l, FirstPath c owner deps l → l.length < maxDependsDepth :=
      fun hshort l hl => hshort l.length hl.ownerPath
    have hsimple : (∀ l, SimplePath c owner deps l → l.length < maxDependsDepth) →
        ∀ l, FirstPath c owner deps l → l.length < maxDependsDepth :=
      fun hshort l hl => hshort l (hl.simplePath hreach)
    have hlong : (∃ l, FirstPath c owner deps l ∧ maxDependsDepth ≤ l.length) ↔
        ¬ ∀ l, FirstPath c owner deps l → l.length < maxDependsDepth := by
      simp only [not_forall, not_lt, exists_prop]
    rw [hlong]
    tauto

/-! ## A path that is hidden -/

def probeKey (name : String) : CrKey := ⟨.httpProbe, ⟨"default", name⟩⟩

def probeRef (name : String) : DependencyRef := ⟨.httpProbe, name⟩

/-- The probes on the long way to `x`, in its order, and `x`. -/
def chainName (i : Nat) : String := if i = 15 then "x" else "n" ++ toString (i + 1)

/-- Fifteen probes, each of which depends on the next, and the last on `x`. -/
def chainCluster : Cluster :=
  (List.range 15).foldl
    (fun c i => c.put (probeKey (chainName i)) [probeRef (chainName (i + 1))] rfl)
    (Cluster.empty.put (probeKey "x") [] rfl)

/-- The path to `x` by way of all fifteen has sixteen edges.  The check finds it only when
the owner lists `x` after the first of them. -/
theorem long_path_admitted :
    checkNoCycle chainCluster.reader (probeKey "owner") [probeRef "x", probeRef "n1"] = none ∧
      OwnerPath chainCluster (probeKey "owner") [probeRef "x", probeRef "n1"] 16 ∧
      checkNoCycle chainCluster.reader (probeKey "owner") [probeRef "n1", probeRef "x"] =
        some "dependency chain exceeds max depth 16" := by
  have hsteps : ∀ i < 15, DependsOn chainCluster (probeKey (chainName i))
      (probeKey (chainName (i + 1))) := by
    intro i hi
    exact ⟨by revert i; decide +kernel, by revert i; decide +kernel⟩
  have hpath := path_of_steps (f := fun i => probeKey (chainName i)) hsteps
  exact ⟨by decide +kernel, ⟨probeRef "n1", by simp, by decide +kernel, _, hpath⟩,
    by decide +kernel⟩

end SyntheticsOperator.Proofs.CycleCheck
