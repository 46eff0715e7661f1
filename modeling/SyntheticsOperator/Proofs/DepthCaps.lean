import SyntheticsOperator.Proofs.Admission
import SyntheticsOperator.Proofs.Suppression
import SyntheticsOperator.Support.Histories

/-!
# The two depth caps

Admission bounds the chain below the resource being written, the suppression
walk the chain below any resource.  If every accepted write also leaves room
for the chains that already lead to the written resource, no chain of the
admitted graph is longer than the cap, and the walk reaches every transitive
dependency.  Admission itself does not look at those chains: two chains that
each pass can be joined into one that the walk cuts.
-/

namespace SyntheticsOperator.Proofs.DepthCaps

open Relation
open SyntheticsOperator.Api hiding maxDependsDepth
open SyntheticsOperator.Metrics
open SyntheticsOperator.Proofs.Admission (Refers)
open SyntheticsOperator.Proofs.Suppression
open SyntheticsOperator.Support
open SyntheticsOperator.Support.Paths

/-! ## Chains of the admitted graph -/

/-- No chain is longer than the walk's cap. -/
def ShortChains (c : Cluster) : Prop :=
  ∀ n a b, Path (Refers c) n a b → n ≤ maxDependsDepth

/-- Writing `deps` to `owner` leaves every chain through `owner` within the cap:
`m` edges lead to `owner`, one leaves it, and `n` follow. -/
def LeavesRoom (c : Cluster) (owner : CrKey) (deps : List DependencyRef) : Prop :=
  ∀ m a, Path (Refers c) m a owner → ∀ dep ∈ deps,
    ∀ n b, Path (Refers c) n (dep.key owner.name.ns) b → m + 1 + n ≤ maxDependsDepth

theorem shortChains_put {c : Cluster} {owner : CrKey} {deps : List DependencyRef}
    {hserved : owner.kind.served = true} (hc : ShortChains c)
    (hacyclic : Acyclic (Refers (c.put owner deps hserved)))
    (hroom : LeavesRoom c owner deps) : ShortChains (c.put owner deps hserved) := by
  have hold : ∀ y z, y ≠ owner → Refers (c.put owner deps hserved) y z → Refers c y z :=
    fun _ _ => Admission.refers_put_of_ne
  intro n a b hpath
  rcases hpath.avoids_or_through hold with hpath | ⟨i, j, rfl, hinto, hfrom⟩
  · exact hc n a b hpath
  · have hinto := hinto.arrives hold (hacyclic owner)
    cases j with
    | zero => exact hc i a owner hinto
    | succ j =>
        obtain ⟨d, hd, hdb⟩ := hfrom
        obtain ⟨dep, hdep, rfl⟩ := Admission.refers_put_self hd
        have hbelow := hdb.departs hold (hacyclic owner) hd
        have := hroom i a hinto dep hdep j b hbelow
        omega

theorem shortChains_remove {c : Cluster} {owner : CrKey} (hc : ShortChains c) :
    ShortChains (c.remove owner) :=
  fun n a b hpath => hc n a b (hpath.mono fun _ _ => Admission.refers_remove)

section Run

-- the name check of admission plays no part here
variable (isDNS1123Subdomain : String → List String)

theorem run_snoc (ops : List Op) (op : Op) :
    Cluster.run isDNS1123Subdomain (ops ++ [op]) =
      (Cluster.run isDNS1123Subdomain ops).step isDNS1123Subdomain op :=
  List.foldl_concat ..

/-- The write that `op` asks for, if it is accepted, leaves room. -/
def RoomyStep (c : Cluster) (op : Op) : Prop :=
  ∀ owner deps, op = .write owner deps → owner.kind.served = true →
    c.admits isDNS1123Subdomain owner deps = true → LeavesRoom c owner deps

theorem shortChains_step {ops : List Op} {op : Op}
    (hc : ShortChains (Cluster.run isDNS1123Subdomain ops))
    (hroom : RoomyStep isDNS1123Subdomain (Cluster.run isDNS1123Subdomain ops) op) :
    ShortChains (Cluster.run isDNS1123Subdomain (ops ++ [op])) := by
  have hacyclic := Admission.acyclic_refers_run isDNS1123Subdomain (ops ++ [op])
  rw [run_snoc] at hacyclic ⊢
  cases op with
  | write owner deps =>
      rw [Cluster.step] at hacyclic ⊢
      split at hacyclic
      · rename_i hserved
        rw [dif_pos hserved]
        split at hacyclic
        · rename_i hadmits
          rw [if_pos hadmits]
          exact shortChains_put hc hacyclic (hroom owner deps rfl hserved hadmits)
        · rename_i hrejected
          rwa [if_neg hrejected]
      · rename_i hunserved
        rwa [dif_neg hunserved]
  | delete owner => exact shortChains_remove hc

theorem shortChains_run {ops : List Op}
    (hroom : ∀ p op, p ++ [op] <+: ops →
      RoomyStep isDNS1123Subdomain (Cluster.run isDNS1123Subdomain p) op) :
    ShortChains (Cluster.run isDNS1123Subdomain ops) := by
  have hempty : ShortChains Cluster.empty := by
    intro n a b hpath
    cases n with
    | zero => exact Nat.zero_le _
    | succ n =>
        obtain ⟨_, ⟨_, hlookup, _⟩, _⟩ := hpath
        cases hlookup
  exact Histories.forall_prefix_of (P := fun p => ShortChains (Cluster.run isDNS1123Subdomain p))
    hempty (fun _ _ => shortChains_step isDNS1123Subdomain) hroom ops (List.prefix_refl ops)

end Run

/-! ## Loading the depends lists into the store -/

/-- One `SetDepends` for each listed resource. -/
def loadDepends (s : Store) (objects : List (Sigma fun _ : CrKey => List DependencyRef)) : Store :=
  objects.foldl (fun s e => s.setDepends e.1.kind e.1.name e.2) s

theorem loadDepends_lookup_of_notMem (s : Store) {key : CrKey}
    {objects : List (Sigma fun _ : CrKey => List DependencyRef)} (hkey : key ∉ objects.keys) :
    (loadDepends s objects).depends.lookup key = s.depends.lookup key := by
  induction objects generalizing s with
  | nil => rfl
  | cons e objects ih =>
      simp only [List.keys_cons, List.mem_cons, not_or] at hkey
      rw [loadDepends, List.foldl_cons, ← loadDepends, ih _ hkey.2]
      exact s.setDepends_lookup_of_ne e.2 hkey.1

theorem loadDepends_lookup (s : Store) {key : CrKey} {deps : List DependencyRef}
    {objects : List (Sigma fun _ : CrKey => List DependencyRef)} (hnodup : objects.NodupKeys)
    (hmem : ⟨key, deps⟩ ∈ objects) :
    ((loadDepends s objects).depends.lookup key).getD [] = deps := by
  induction objects generalizing s with
  | nil => cases hmem
  | cons e objects ih =>
      obtain ⟨hfresh, hnodup⟩ := List.nodupKeys_cons.mp hnodup
      rw [loadDepends, List.foldl_cons, ← loadDepends]
      rcases List.mem_cons.mp hmem with rfl | hmem
      · rw [loadDepends_lookup_of_notMem _ hfresh]
        exact s.setDepends_lookup key deps
      · exact ih _ hnodup hmem

/-- Loading the objects of a cluster into a store without depends lists gives
the store the graph of the cluster. -/
theorem needs_loadDepends {c : Cluster} {s : Store} (hs : s.depends = ∅)
    {objects : List (Sigma fun _ : CrKey => List DependencyRef)}
    (hobjects : (objects : Multiset _) = c.objects.entries) :
    Needs (loadDepends s objects) = Refers c := by
  have hnodup : objects.NodupKeys := by
    rw [← Multiset.coe_nodupKeys, hobjects]
    exact c.objects.nodupKeys
  have hmem : ∀ key deps, ⟨key, deps⟩ ∈ objects ↔ c.objects.lookup key = some deps := by
    intro key deps
    rw [Finmap.lookup_eq_some_iff, ← hobjects, Multiset.mem_coe]
  funext a b
  rw [eq_iff_iff, Needs, targets, List.mem_map]
  constructor
  · rintro ⟨dep, hdep, rfl⟩
    by_cases ha : a ∈ objects.keys
    · obtain ⟨deps, hdeps⟩ := List.exists_of_mem_keys ha
      rw [loadDepends_lookup s hnodup hdeps] at hdep
      exact ⟨deps, (hmem a deps).mp hdeps, dep, hdep, rfl⟩
    · rw [loadDepends_lookup_of_notMem s ha, hs] at hdep
      cases hdep
  · rintro ⟨deps, hlookup, dep, hdep, rfl⟩
    refine ⟨dep, ?_, rfl⟩
    rwa [loadDepends_lookup s hnodup ((hmem a deps).mpr hlookup)]

/-- After every sequence of requests whose accepted writes leave room, with the
depends lists loaded into a store in any order and any resources failing: the
walk from any resource answers exactly when a transitive dependency fails. -/
theorem findUnhealthyDep_isSome_iff_run (isDNS1123Subdomain : String → List String)
    (ops : List Op)
    (hroom : ∀ p op, p ++ [op] <+: ops →
      RoomyStep isDNS1123Subdomain (Cluster.run isDNS1123Subdomain p) op)
    (s : Store) (hs : s.depends = ∅)
    (objects : List (Sigma fun _ : CrKey => List DependencyRef))
    (hobjects : (objects : Multiset _) = (Cluster.run isDNS1123Subdomain ops).objects.entries)
    (now : Time) (origin : CrKey) :
    ((loadDepends s objects).findUnhealthyDep now origin.kind origin.name).isSome = true ↔
      ∃ b, TransGen (Refers (Cluster.run isDNS1123Subdomain ops)) origin b ∧
        Failing (loadDepends s objects) now b := by
  have hgraph := needs_loadDepends hs hobjects
  have hcap : WithinCap (loadDepends s objects) origin := by
    refine ⟨fun a _ => ?_, fun n b hpath => ?_⟩
    · rw [hgraph]
      exact Admission.acyclic_refers_run isDNS1123Subdomain ops a
    · rw [hgraph] at hpath
      exact shortChains_run isDNS1123Subdomain hroom n origin b hpath
  rw [hcap.isSome_iff now, hgraph]

/-! ## A chain admitted in two halves -/

/-- A name check without complaints. -/
def anyName (_ : String) : List String := []

theorem path_eq_zero {c : Cluster} (hno : ∀ e ∈ c.objects.entries, e.2 = []) {n : Nat}
    {a b : CrKey} (hpath : Path (Refers c) n a b) : n = 0 := by
  cases n with
  | zero => rfl
  | succ n =>
      obtain ⟨d, ⟨deps, hlookup, dep, hdep, _⟩, _⟩ := hpath
      have hnil : deps = [] := hno ⟨a, deps⟩ (Finmap.lookup_eq_some_iff.mp hlookup)
      rw [hnil] at hdep
      cases hdep

/-- Create `db`, then `web` that depends on it. -/
def webOnDb : List Op := [.write (probeKey "db") [], .write (probeKey "web") [probeRef "db"]]

theorem webOnDb_roomy :
    ∀ p op, p ++ [op] <+: webOnDb → RoomyStep anyName (Cluster.run anyName p) op := by
  intro p op hp owner deps hop _ _ m a hinto dep hdep n b hbelow
  rcases p with _ | ⟨x, _ | ⟨y, p⟩⟩
  · simp only [webOnDb, List.nil_append, List.cons_prefix_cons, hop, Op.write.injEq] at hp
    rw [hp.1.2] at hdep
    cases hdep
  · simp only [webOnDb, List.cons_append, List.cons_prefix_cons] at hp
    obtain ⟨rfl, _⟩ := hp
    have hno : ∀ e ∈ (Cluster.run anyName [.write (probeKey "db") []]).objects.entries,
        e.2 = [] := by
      decide +kernel
    rw [path_eq_zero hno hinto, path_eq_zero hno hbelow]
    decide
  · simp [webOnDb] at hp

theorem findUnhealthyDep_isSome_iff_webOnDb :
    ((loadDepends (probesStore ["db"] [])
        [⟨probeKey "db", []⟩, ⟨probeKey "web", [probeRef "db"]⟩]).findUnhealthyDep ⟨0⟩
          .httpProbe ⟨"default", "web"⟩).isSome = true ↔
      ∃ b, TransGen (Refers (Cluster.run anyName webOnDb)) (probeKey "web") b ∧
        Failing (loadDepends (probesStore ["db"] [])
          [⟨probeKey "db", []⟩, ⟨probeKey "web", [probeRef "db"]⟩]) ⟨0⟩ b :=
  findUnhealthyDep_isSome_iff_run anyName webOnDb webOnDb_roomy (probesStore ["db"] []) rfl
    _ (by decide +kernel) ⟨0⟩ (probeKey "web")

/-- The writes that create the probes from `n` with the number `first` to the one
with the number `last`, the last one first, each depending on the next. -/
def chainWrites (first last : Nat) : List Op :=
  .write (probeKey s!"n{last}") [] ::
    (List.range' first (last - first)).reverse.map fun i =>
      .write (probeKey s!"n{i}") [probeRef s!"n{i + 1}"]

/-- Two chains of nine probes, then the update that joins them. -/
def joinedChains : List Op :=
  chainWrites 9 17 ++ chainWrites 0 8 ++ [.write (probeKey "n8") [probeRef "n9"]]

/-- The chain of eighteen probes that results. -/
def joinedObjects : List (Sigma fun _ : CrKey => List DependencyRef) :=
  (List.range 18).map fun i =>
    ⟨probeKey s!"n{i}", if i = 17 then [] else [probeRef s!"n{i + 1}"]⟩

/-- Every write of `joinedChains` is accepted, and the walk from `n0` does not
reach its failing transitive dependency `n17`, seventeen edges away. -/
theorem joinedChains_out_of_reach :
    (joinedObjects : Multiset _) = (Cluster.run anyName joinedChains).objects.entries ∧
      (∃ b, TransGen (Refers (Cluster.run anyName joinedChains)) (probeKey "n0") b ∧
        Failing (loadDepends (probesStore ["n17"] []) joinedObjects) ⟨0⟩ b) ∧
      (loadDepends (probesStore ["n17"] []) joinedObjects).findUnhealthyDep ⟨0⟩
        .httpProbe ⟨"default", "n0"⟩ = none := by
  have hsteps : ∀ i < 17, Refers (Cluster.run anyName joinedChains)
      (probeKey s!"n{i}") (probeKey s!"n{i + 1}") := by
    decide +kernel
  have hpath := path_of_steps (f := fun i => probeKey s!"n{i}") hsteps
  exact ⟨by decide +kernel, ⟨_, hpath.transGen, by decide +kernel⟩, by decide +kernel⟩

end SyntheticsOperator.Proofs.DepthCaps
