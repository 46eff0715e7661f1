import SyntheticsOperator.Metrics.Suppression
import SyntheticsOperator.Support.Arrivals

/-!
# What the suppression walk finds

The walk is a capped search whose only exit is leaving a failing resource.  An
answer is therefore always a failing transitive dependency, and under the cap
in an acyclic graph it is a root cause.  Near the cap the walk is incomplete: a
resource first met at the last level is never expanded, also when a shorter
path leads to it.
-/

namespace SyntheticsOperator.Proofs.Suppression

open Relation
open SyntheticsOperator.Api (Kind NamespacedName CrKey DependencyRef)
open SyntheticsOperator.Metrics
open SyntheticsOperator.Support
open SyntheticsOperator.Support.Paths

/-- The resources a stored depends list points at. -/
def targets (s : Store) (key : CrKey) : List CrKey :=
  ((s.depends.lookup key).getD []).map (·.key key.name.ns)

/-- An edge of the stored depends graph. -/
def Needs (s : Store) (a b : CrKey) : Prop :=
  b ∈ targets s a

/-- `isFailingLocked` of a resource. -/
def Failing (s : Store) (now : Time) (key : CrKey) : Prop :=
  s.isFailingLocked now key.kind key.name = true

instance (s : Store) (now : Time) (key : CrKey) : Decidable (Failing s now key) :=
  inferInstanceAs (Decidable (_ = true))

instance (s : Store) (a b : CrKey) : Decidable (Needs s a b) :=
  inferInstanceAs (Decidable (_ ∈ _))

/-- What fails has an entry, and is not suspended. -/
theorem Failing.entry {s : Store} {now : Time} {key : CrKey} (h : Failing s now key) :
    (∃ state, s.probes.lookup key = some state) ∨ (∃ state, s.tests.lookup key = some state) ∨
      ∃ state, s.heartbeats.lookup key = some state ∧ state.suspended = false := by
  obtain ⟨kind, name⟩ := key
  cases kind with
  | other text => cases h
  | _ =>
      simp only [Failing, Store.isFailingLocked] at h
      split at h <;> simp_all

theorem Needs.ns_eq {s : Store} {a b : CrKey} (h : Needs s a b) :
    b.name.ns = a.name.ns := by
  obtain ⟨dep, _, rfl⟩ := List.mem_map.mp h
  rfl

theorem reachable_ns_eq {s : Store} {a b : CrKey} (h : TransGen (Needs s) a b) :
    b.name.ns = a.name.ns := by
  induction h with
  | single hab => exact hab.ns_eq
  | tail _ hbc ih => exact hbc.ns_eq.trans ih

/-! ## The walk as a search -/

/-- The search behind `walkDepsLocked`: it never ends on meeting a resource, the
cap is silent, and leaving a failing resource returns it. -/
def depSearch (s : Store) (now : Time) : Search CrKey DependencyRef where
  enter _ := none
  expand key := some (targets s key)
  leave key := if Failing s now key then some key.ref else none
  cut := none

theorem depSearch_edge {s : Store} {now : Time} :
    (depSearch s now).Edge = Needs s := by
  funext a b
  simp [Search.Edge, depSearch, Needs]

theorem depSearch_leave {s : Store} {now : Time} {key : CrKey} {d : DependencyRef} :
    (depSearch s now).leave key = some d ↔ Failing s now key ∧ key.ref = d := by
  simp [depSearch]

theorem depSearch_leave_none {s : Store} {now : Time} {key : CrKey} :
    (depSearch s now).leave key = none ↔ ¬ Failing s now key := by
  simp [depSearch]

theorem walkDepsLocked_eq_walk (s : Store) (now : Time) (ns : String) (room : Nat)
    (deps : List DependencyRef) (visited : Finset CrKey) :
    s.walkDepsLocked now ns room deps visited =
      (depSearch s now).walk room (deps.map (·.key ns)) visited := by
  induction room generalizing deps visited with
  | zero => rfl
  | succ room ih =>
      rw [Store.walkDepsLocked, Search.walk, List.foldlM_map]
      congr 1
      funext visited dep
      have henter : (depSearch s now).enter (dep.key ns) = none := rfl
      have hexpand : (depSearch s now).expand (dep.key ns) = some
        (((s.depends.lookup (dep.key ns)).getD []).map (·.key ns)) := rfl
      have hleave : (depSearch s now).leave (dep.key ns) =
        if s.isFailingLocked now dep.kind (dep.key ns).name then some dep else none := rfl
      simp only [Search.visit, henter, hexpand, hleave, ih]
      by_cases hseen : dep.key ns ∈ visited
      · simp only [if_pos hseen]
      · simp only [if_neg hseen]
        cases (depSearch s now).walk room _ (insert (dep.key ns) visited) with
        | error deeper => rfl
        | ok visited => cases s.isFailingLocked now dep.kind (dep.key ns).name <;> rfl

/-- `findUnhealthyDep` is the search below the origin. -/
theorem findUnhealthyDep_eq_some {s : Store} {now : Time} {origin : CrKey} {d : DependencyRef} :
    s.findUnhealthyDep now origin.kind origin.name = some d ↔
      (depSearch s now).walk maxDependsDepth (targets s origin) {origin} = .error d := by
  have hwalk : s.walkDepsLocked now origin.name.ns maxDependsDepth
      ((s.depends.lookup origin).getD []) {origin} =
        (depSearch s now).walk maxDependsDepth (targets s origin) {origin} :=
    walkDepsLocked_eq_walk ..
  rw [← hwalk]
  unfold Store.findUnhealthyDep
  split
  · rename_i failing hfailing
    rw [hfailing, Option.some.injEq, Except.error.injEq]
  · rename_i visited hvisited
    simp [hvisited]

theorem findUnhealthyDep_isSome {s : Store} {now : Time} {origin : CrKey} :
    (s.findUnhealthyDep now origin.kind origin.name).isSome = true ↔
      ∃ d, (depSearch s now).walk maxDependsDepth (targets s origin) {origin} = .error d := by
  simp [Option.isSome_iff_exists, findUnhealthyDep_eq_some]

/-! ## Answers are failing transitive dependencies -/

theorem findUnhealthyDep_sound {s : Store} {now : Time} {origin : CrKey} {d : DependencyRef}
    (h : s.findUnhealthyDep now origin.kind origin.name = some d) :
    d.key origin.name.ns ≠ origin ∧
      TransGen (Needs s) origin (d.key origin.name.ns) ∧
      Failing s now (d.key origin.name.ns) := by
  rcases Search.walk_error (findUnhealthyDep_eq_some.mp h) with
    hcut | ⟨t, ht, n, x, _, htx, henter | ⟨hx, hleave⟩⟩
  · cases hcut
  · cases henter
  · rw [depSearch_edge] at htx
    obtain ⟨hfailing, rfl⟩ := depSearch_leave.mp hleave
    have horigin : TransGen (Needs s) origin x := .head' ht htx.reflTransGen
    rw [CrKey.ref_key (reachable_ns_eq horigin)]
    exact ⟨by simpa using hx, horigin, hfailing⟩

/-! ## Under the cap, in an acyclic graph -/

/-- The part of the graph below `origin` is acyclic and no path from `origin`
is longer than the cap. -/
structure WithinCap (s : Store) (origin : CrKey) : Prop where
  acyclic : ∀ a, ReflTransGen (Needs s) origin a → ¬ TransGen (Needs s) a a
  short : ∀ n b, Path (Needs s) n origin b → n ≤ maxDependsDepth

theorem WithinCap.fits {s : Store} {origin : CrKey} (h : WithinCap s origin) (now : Time) :
    ∀ t ∈ targets s origin, (depSearch s now).Fits maxDependsDepth t := by
  intro t ht n y hty
  rw [depSearch_edge] at hty
  exact h.short (n + 1) y ⟨t, ht, hty⟩

/-- A walk that finds nothing has visited every transitive dependency. -/
theorem WithinCap.not_failing {s : Store} {origin : CrKey} (hcap : WithinCap s origin)
    {now : Time} {V : Finset CrKey}
    (hwalk : (depSearch s now).walk maxDependsDepth (targets s origin) {origin} = .ok V)
    {b : CrKey} (hb : TransGen (Needs s) origin b) : ¬ Failing s now b := by
  have hcovers := Search.walk_covers (.inr (hcap.fits now)) hwalk
  have hmem : b ∈ V := by
    refine hcovers.reach (x := origin) ?_ (hcovers.grows (by simp)) ?_
    · intro z hz w hzw
      rw [Finset.mem_singleton.mp hz, depSearch_edge] at hzw
      exact hcovers.mem w hzw
    · rw [depSearch_edge]
      exact hb.to_reflTransGen
  have hne : b ∉ ({origin} : Finset CrKey) := by
    rintro hb'
    rw [Finset.mem_singleton.mp hb'] at hb
    exact hcap.acyclic origin .refl hb
  exact depSearch_leave_none.mp (hcovers.closed b hmem hne _ rfl).1

theorem WithinCap.isSome_iff {s : Store} {origin : CrKey} (hcap : WithinCap s origin)
    (now : Time) :
    (s.findUnhealthyDep now origin.kind origin.name).isSome = true ↔
      ∃ b, TransGen (Needs s) origin b ∧ Failing s now b := by
  constructor
  · intro h
    obtain ⟨d, hd⟩ := Option.isSome_iff_exists.mp h
    obtain ⟨_, hreach, hfailing⟩ := findUnhealthyDep_sound hd
    exact ⟨_, hreach, hfailing⟩
  · rintro ⟨b, hb, hfailing⟩
    rw [findUnhealthyDep_isSome]
    rcases hwalk : (depSearch s now).walk maxDependsDepth (targets s origin) {origin} with d | V
    · exact ⟨d, rfl⟩
    · exact absurd hfailing (hcap.not_failing hwalk hb)

theorem WithinCap.root_cause {s : Store} {origin : CrKey} (hcap : WithinCap s origin)
    {now : Time} {d : DependencyRef}
    (h : s.findUnhealthyDep now origin.kind origin.name = some d) {b : CrKey}
    (hb : TransGen (Needs s) (d.key origin.name.ns) b) : ¬ Failing s now b := by
  -- the origin is the only open resource when the walk starts
  have hstart : ∀ x ∈ ({origin} : Finset CrKey),
      x ∈ ({origin} : Set CrKey) ∨ (depSearch s now).Settled {origin} x := by
    intro x hx
    exact .inl (by simpa using hx)
  have hacyclic : ∀ t ∈ targets s origin, ∀ x, ReflTransGen (depSearch s now).Edge t x →
      ¬ TransGen (depSearch s now).Edge x x := by
    rw [depSearch_edge]
    exact fun t ht x htx => hcap.acyclic x (.head ht htx)
  have hopen : ∀ a ∈ ({origin} : Set CrKey), ∀ t ∈ targets s origin,
      TransGen (depSearch s now).Edge a t := by
    rw [depSearch_edge]
    rintro a rfl t ht
    exact .single ht
  obtain ⟨t, ht, x, htx, hleave, hbelow⟩ :=
    Search.walk_error_deepest (fun _ => rfl) rfl (hcap.fits now) hacyclic hopen hstart
      (findUnhealthyDep_eq_some.mp h)
  rw [depSearch_edge] at htx hbelow
  obtain ⟨_, rfl⟩ := depSearch_leave.mp hleave
  have horigin : TransGen (Needs s) origin x := .head' ht htx
  rw [CrKey.ref_key (reachable_ns_eq horigin)] at hb
  exact depSearch_leave_none.mp (hbelow b hb _ rfl)

/-- Every answer is another resource, a transitive dependency and failing; and
where the graph below the origin is acyclic and fits under the cap, there is an
answer exactly when a transitive dependency fails, and it is a root cause. -/
theorem findUnhealthyDep_exact (s : Store) (now : Time) (origin : CrKey) :
    (∀ d, s.findUnhealthyDep now origin.kind origin.name = some d →
      d.key origin.name.ns ≠ origin ∧
        TransGen (Needs s) origin (d.key origin.name.ns) ∧
        Failing s now (d.key origin.name.ns)) ∧
    (WithinCap s origin →
      ((s.findUnhealthyDep now origin.kind origin.name).isSome = true ↔
        ∃ b, TransGen (Needs s) origin b ∧ Failing s now b) ∧
      ∀ d, s.findUnhealthyDep now origin.kind origin.name = some d →
        ∀ b, TransGen (Needs s) (d.key origin.name.ns) b → ¬ Failing s now b) :=
  ⟨fun _ => findUnhealthyDep_sound,
    fun hcap => ⟨hcap.isSome_iff now, fun _ h _ => hcap.root_cause h⟩⟩

/-! A chain of two hops -/

/-- The HTTPProbe called `name`, as a dependency. -/
def probeRef (name : String) : DependencyRef := ⟨.httpProbe, name⟩

/-- The HTTPProbe called `name` of the namespace `default`. -/
def probeKey (name : String) : CrKey := (probeRef name).key "default"

/-- A store with some refused probes and some depends lists. -/
def probesStore (refused : List String) (depends : List (String × List DependencyRef)) : Store :=
  { Store.empty with
    probes := refused.foldl
      (fun m name => m.insert (probeKey name) { kind := .httpProbe, result := .connectRefused }) ∅
    depends := depends.foldl (fun m d => m.insert (probeKey d.1) d.2) ∅ }

/-- `web` depends on `api`, which depends on `db`; all three are down. -/
def twoHops : Store :=
  probesStore ["web", "api", "db"] [("web", [probeRef "api"]), ("api", [probeRef "db"])]

/-- The number of hops below a probe of `twoHops`. -/
def hopsBelow (key : CrKey) : Nat :=
  if key = probeKey "web" then 2 else if key = probeKey "api" then 1 else 0

theorem hopsBelow_lt (a b : CrKey) (h : Needs twoHops a b) : hopsBelow b < hopsBelow a := by
  by_cases hweb : a = probeKey "web"
  · subst hweb
    have hb : b ∈ [probeKey "api"] := h
    rw [List.mem_singleton.mp hb]
    decide
  · by_cases hapi : a = probeKey "api"
    · subst hapi
      have hb : b ∈ [probeKey "db"] := h
      rw [List.mem_singleton.mp hb]
      decide
    · have hnone : twoHops.depends.lookup a = none := by
        simp [twoHops, probesStore, Finmap.lookup_insert_of_ne, hweb, hapi]
      simp [Needs, targets, hnone] at h

theorem twoHops_withinCap : WithinCap twoHops (probeKey "web") where
  acyclic a _ := acyclic_of_rank hopsBelow hopsBelow_lt a
  short n b hpath := by
    have hrank := hpath.add_rank_le hopsBelow hopsBelow_lt
    have hweb : hopsBelow (probeKey "web") = 2 := by decide
    simp only [maxDependsDepth]
    omega

/-- `web` and `api` are down too, but `db` is the answer and nothing below `db`
fails. -/
theorem findUnhealthyDep_exact_twoHops :
    WithinCap twoHops (probeKey "web") ∧
      twoHops.findUnhealthyDep ⟨0⟩ .httpProbe ⟨"default", "web"⟩ = some (probeRef "db") ∧
      ∀ b, TransGen (Needs twoHops) (probeKey "db") b → ¬ Failing twoHops ⟨0⟩ b :=
  ⟨twoHops_withinCap, by decide,
    ((findUnhealthyDep_exact twoHops ⟨0⟩ (probeKey "web")).2 twoHops_withinCap).2
      (probeRef "db") (by decide)⟩

/-! ## Near the cap -/

/-- The walk without its exits, which depends on the depends lists only. -/
def graphSearch (s : Store) : Search CrKey Empty where
  enter _ := none
  expand key := some (targets s key)
  leave _ := none
  cut := none

/-- The walk from `origin` first meets `key` at its last level, so it marks
`key` as visited without walking the dependencies of `key`. -/
def MetLate (s : Store) (origin key : CrKey) : Prop :=
  (graphSearch s).Late maxDependsDepth origin key

/-- An edge whose source is not met late. -/
def TimelyNeeds (s : Store) (origin a b : CrKey) : Prop :=
  Needs s a b ∧ ¬ MetLate s origin a

theorem depSearch_timelyEdge (s : Store) (now : Time) (origin : CrKey) :
    (depSearch s now).TimelyEdge maxDependsDepth origin = TimelyNeeds s origin := by
  have hexpand : (depSearch s now).expand = (graphSearch s).expand := rfl
  rw [Search.timelyEdge_congr hexpand]
  funext a b
  simp [Search.TimelyEdge, TimelyNeeds, MetLate, Search.Edge, graphSearch, Needs]

theorem findUnhealthyDep_isSome_iff_timely (s : Store) (now : Time) (origin : CrKey) :
    (s.findUnhealthyDep now origin.kind origin.name).isSome = true ↔
      ∃ x, x ≠ origin ∧ Failing s now x ∧
        ∃ n ≤ maxDependsDepth, Path (TimelyNeeds s origin) n origin x := by
  rw [findUnhealthyDep_isSome, ← depSearch_timelyEdge s now]
  have hfound := Search.walk_error_iff_timely (S := depSearch s now) origin
    (show 0 < maxDependsDepth by decide) (fun _ => rfl) rfl (fun _ => by simp [depSearch])
  simp only [ne_eq, depSearch_leave_none, not_not] at hfound
  exact hfound

/-- For every store and origin: a failing resource within the cap makes the walk
answer exactly when, if there is one, some failing resource can be reached
within the cap without following the edges of resources met late. -/
theorem findUnhealthyDep_complete_iff (s : Store) (now : Time) (origin : CrKey) :
    ((∃ x, x ≠ origin ∧ Failing s now x ∧
        ∃ n ≤ maxDependsDepth, Path (Needs s) n origin x) →
      (s.findUnhealthyDep now origin.kind origin.name).isSome = true) ↔
    ((∃ x, x ≠ origin ∧ Failing s now x ∧
        ∃ n ≤ maxDependsDepth, Path (Needs s) n origin x) →
      ∃ x, x ≠ origin ∧ Failing s now x ∧
        ∃ n ≤ maxDependsDepth, Path (TimelyNeeds s origin) n origin x) := by
  rw [findUnhealthyDep_isSome_iff_timely]

/-- The chain `n1`, …, `n17`, and `origin` that depends on `n1` and on `n16`.
Only `n17` is down. -/
def lateHop : Store :=
  probesStore ["n17"]
    (("origin", [probeRef "n1", probeRef "n16"]) ::
      (List.range' 1 16).map fun i => (s!"n{i}", [probeRef s!"n{i + 1}"]))

/-- The walk first meets `n16` at the end of the long path and then skips it, so
it misses `n17`, which is two edges away. -/
theorem findUnhealthyDep_misses_n17 :
    (∃ x, x ≠ probeKey "origin" ∧ Failing lateHop ⟨0⟩ x ∧
        ∃ n ≤ maxDependsDepth, Path (Needs lateHop) n (probeKey "origin") x) ∧
      lateHop.findUnhealthyDep ⟨0⟩ .httpProbe ⟨"default", "origin"⟩ = none := by
  have hfirst : Needs lateHop (probeKey "origin") (probeKey "n16") := by decide +kernel
  have hsecond : Needs lateHop (probeKey "n16") (probeKey "n17") := by decide +kernel
  refine ⟨⟨probeKey "n17", by decide, by decide +kernel, 2, by decide, ?_⟩, by decide +kernel⟩
  exact ⟨_, hfirst, _, hsecond, rfl⟩

end SyntheticsOperator.Proofs.Suppression
