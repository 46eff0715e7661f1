import SyntheticsOperator.Proofs.Admission

/-!
# Reads that fail during admission

The walk of `checkNoCycle` goes past a dependency whose `spec.depends` it cannot read, as
if it had none.  What a failed read hides is what matters: a write that passes closes a
cycle exactly when one of the resources that could not be read lies on it.
-/

namespace SyntheticsOperator.Proofs.ReadFailures

open Relation
open SyntheticsOperator.Api
open SyntheticsOperator.Support
open SyntheticsOperator.Support.Paths
open SyntheticsOperator.Proofs.Admission

/-- Every read returns the stored object or fails; NotFound is returned only for an object
that does not exist. -/
structure Honest (c : Cluster) (reader : Reader) : Prop where
  object_ok : ∀ key, reader.object key = .ok () → key ∈ c.objects
  object_notFound : ∀ key, reader.object key = .error .notFound → key ∉ c.objects
  depends_ok : ∀ key deps, reader.depends key = .ok deps → c.objects.lookup key = some deps
  depends_notFound : ∀ key, reader.depends key = .error .notFound → key ∉ c.objects

/-- The read of `fetchDepends` fails, other than with NotFound. -/
def Unreadable (reader : Reader) (key : CrKey) : Prop :=
  ∃ text, reader.depends key = .error (.failed text)

theorem honest_reader (c : Cluster) : Honest c c.reader where
  object_ok := by
    intro key h
    simp only [Cluster.reader] at h
    split at h
    · assumption
    · cases h
  object_notFound := by
    intro key h
    simp only [Cluster.reader] at h
    split at h
    · cases h
    · assumption
  depends_ok := by
    intro key deps h
    cases hlookup : c.objects.lookup key with
    | none => simp [Cluster.reader, hlookup] at h
    | some found => simpa [Cluster.reader, hlookup] using h
  depends_notFound := by
    intro key h
    cases hlookup : c.objects.lookup key with
    | none => exact Finmap.lookup_eq_none.mp hlookup
    | some found => simp [Cluster.reader, hlookup] at h

theorem Honest.failing {c : Cluster} {reader : Reader} (h : Honest c reader)
    (fails : CrKey → Prop) [DecidablePred fails] (text : String) :
    Honest c { reader with
      depends := fun key => if fails key then .error (.failed text) else reader.depends key } where
  object_ok := h.object_ok
  object_notFound := h.object_notFound
  depends_ok := by
    intro key deps hread
    dsimp only at hread
    split at hread
    · cases hread
    · exact h.depends_ok key deps hread
  depends_notFound := by
    intro key hread
    dsimp only at hread
    split at hread
    · cases hread
    · exact h.depends_notFound key hread

section Walk

variable {c : Cluster} {reader : Reader} {owner a b : CrKey} {deps : List DependencyRef}
variable {hserved : owner.kind.served = true}

theorem lookup_of_dependsOn_put (hne : a ≠ owner)
    (h : DependsOn (c.put owner deps hserved) a b) :
    ∃ deps', c.objects.lookup a = some deps' ∧ ∃ dep ∈ deps', dep.key a.name.ns = b :=
  refers_put_of_ne hne h.1

/-- An object that exists is read as it is stored, or its read fails. -/
theorem Honest.fetchDepends (h : Honest c reader) {deps' : List DependencyRef}
    (hlookup : c.objects.lookup a = some deps') :
    Unreadable reader a ∨ fetchDepends reader a.name.ns a.ref = .ok deps' := by
  have hmem : a ∈ c.objects := Finmap.mem_of_lookup_eq_some hlookup
  have hserved : a.ref.kind.served = true := c.served a hmem
  have hkey : a.ref.key a.name.ns = a := CrKey.ref_key rfl
  rw [Api.fetchDepends, if_pos hserved, hkey]
  cases hread : reader.depends a with
  | ok found =>
      have hfound : c.objects.lookup a = some found := h.depends_ok a found hread
      have heq : found = deps' := Option.some.inj (hfound.symm.trans hlookup)
      exact .inr (by rw [heq])
  | error err =>
      cases err with
      | notFound => exact absurd hmem (h.depends_notFound a hread)
      | failed text => exact .inl ⟨text, hread⟩

/-- A walk that returned nil has visited every resource on the way back to the owner, up to
the first one that it could not read. -/
theorem visited_of_readable (hreader : Honest c reader) {V : Finset DependencyRef}
    (hcovers : (cycleSearch reader owner.ref owner.name.ns).Covers deps ∅ V)
    (hreadable : ∀ key, Unreadable reader key →
      TransGen (DependsOn (c.put owner deps hserved)) owner key →
      ¬ TransGen (DependsOn (c.put owner deps hserved)) key owner)
    (hab : DependsOn (c.put owner deps hserved) owner a)
    (hpath : ReflTransGen (fun y z => y ≠ owner ∧ DependsOn (c.put owner deps hserved) y z) a b)
    (hback : ReflTransGen (DependsOn (c.put owner deps hserved)) b owner) :
    b.name.ns = owner.name.ns ∧ b.ref ∈ V ∧ b.ref ≠ owner.ref := by
  -- the owner is refused wherever the walk meets it
  have hrefused : ∀ dep, (cycleSearch reader owner.ref owner.name.ns).enter dep = none →
      dep ≠ owner.ref := by
    intro dep henter heq
    simp [cycleSearch, heq] at henter
  induction hpath with
  | refl =>
      obtain ⟨dep, hdep, rfl⟩ := refers_put_self hab.1
      exact ⟨rfl, hcovers.mem dep hdep, hrefused dep (hcovers.enter dep hdep)⟩
  | @tail y z hay hyz ih =>
      have hyback : TransGen (DependsOn (c.put owner deps hserved)) y owner := .head' hyz.2 hback
      obtain ⟨hns, hy, _⟩ := ih hyback.to_reflTransGen
      obtain ⟨deps', hlookup, dep, hdep, rfl⟩ := lookup_of_dependsOn_put hyz.1 hyz.2
      have hforth : TransGen (DependsOn (c.put owner deps hserved)) owner y :=
        .head' hab (ReflTransGen.mono (fun _ _ h => h.2) _ _ hay)
      have hfetch : fetchDepends reader y.name.ns y.ref = .ok deps' :=
        (hreader.fetchDepends hlookup).resolve_left fun hfailed =>
          hreadable y hfailed hforth hyback
      have hexpand : (cycleSearch reader owner.ref owner.name.ns).expand y.ref = some deps' := by
        rw [← hns]
        simp [cycleSearch, hfetch, Except.toOption]
      obtain ⟨hmem, henter⟩ := (hcovers.closed y.ref hy (by simp) deps' hexpand).2 dep hdep
      exact ⟨hns, hmem, hrefused dep henter⟩

end Walk

/-- For every stored graph, every owner and list and every pattern of failing reads: a
write that `ValidateDepends` lets through closes no cycle through its owner exactly when no
resource whose read failed lies on such a cycle. -/
theorem admitted_acyclic_iff (isDNS1123Subdomain : String → List String) (c : Cluster)
    (reader : Reader) (owner : CrKey) (deps : List DependencyRef) (path : String)
    (hserved : owner.kind.served = true) (hreader : Honest c reader)
    (hvalid : validateDepends isDNS1123Subdomain reader owner deps path = []) :
    ¬ TransGen (DependsOn (c.put owner deps hserved)) owner owner ↔
      ∀ key, Unreadable reader key →
        TransGen (DependsOn (c.put owner deps hserved)) owner key →
        ¬ TransGen (DependsOn (c.put owner deps hserved)) key owner := by
  constructor
  · intro hacyclic key _ hforth hback
    exact hacyclic (hforth.trans hback)
  · intro hreadable hcycle
    obtain ⟨a, hab, hback⟩ := TransGen.head'_iff.mp hcycle
    rcases checkNoCycle_of_validateDepends hvalid with rfl | hcheck
    · obtain ⟨_, hdep, _⟩ := refers_put_self hab.1
      cases hdep
    · obtain ⟨V, hcovers⟩ := checkNoCycle_covers hcheck
      have hpath := reflTransGen_first_arrival (fun _ _ _ h => h) hback
      exact (visited_of_readable hreader hcovers hreadable hab hpath .refl).2.2 rfl

/-! ## Two resources -/

def apiKey : CrKey := ⟨.httpProbe, ⟨"default", "api"⟩⟩

def webKey : CrKey := ⟨.httpProbe, ⟨"default", "web"⟩⟩

def pair (webDepends : List DependencyRef) : Cluster :=
  (Cluster.empty.put apiKey [] rfl).put webKey webDepends rfl

/-- The API server answers every read but one: that of the dependencies of `web` times
out. -/
def timingOut (c : Cluster) : Reader :=
  { c.reader with
    depends := fun key =>
      if key = webKey then .error (.failed "timeout") else c.reader.depends key }

theorem honest_timingOut (c : Cluster) : Honest c (timingOut c) :=
  (honest_reader c).failing (· = webKey) "timeout"

theorem unreadable_timingOut {c : Cluster} {key : CrKey} (h : Unreadable (timingOut c) key) :
    key = webKey := by
  obtain ⟨text, hread⟩ := h
  by_contra hne
  simp only [timingOut, if_neg hne, Cluster.reader] at hread
  split at hread <;> simp at hread

/-- The dependencies of `web` cannot be read, but there are none. -/
theorem unreadable_leaf_acyclic :
    ¬ TransGen (DependsOn ((pair []).put apiKey [webKey.ref] rfl)) apiKey apiKey := by
  refine (admitted_acyclic_iff (fun _ => []) (pair []) (timingOut (pair [])) apiKey [webKey.ref]
    dependsPath rfl (honest_timingOut _) (by decide +kernel)).mpr ?_
  intro key hkey _ hback
  obtain rfl := unreadable_timingOut hkey
  obtain ⟨z, hz, _⟩ := TransGen.head'_iff.mp hback
  obtain ⟨deps, hlookup, dep, hdep, _⟩ := hz.1
  have hnone : ((pair []).put apiKey [webKey.ref] rfl).objects.lookup webKey = some [] := by
    decide +kernel
  rw [hnone] at hlookup
  cases hlookup
  cases hdep

/-- `web` depends on `api`, which the read that fails hides: the write of `api` passes and
closes a cycle. -/
theorem timeout_admits_cycle :
    let c := pair [apiKey.ref]
    Honest c (timingOut c) ∧
      validateDepends (fun _ => []) (timingOut c) apiKey [webKey.ref] dependsPath = [] ∧
      TransGen (DependsOn (c.put apiKey [webKey.ref] rfl)) apiKey apiKey := by
  intro c
  have hforth : DependsOn (c.put apiKey [webKey.ref] rfl) apiKey webKey :=
    ⟨by decide +kernel, by decide +kernel⟩
  have hback : DependsOn (c.put apiKey [webKey.ref] rfl) webKey apiKey :=
    ⟨by decide +kernel, by decide +kernel⟩
  exact ⟨honest_timingOut c, by decide +kernel, .head hforth (.single hback)⟩

end SyntheticsOperator.Proofs.ReadFailures
