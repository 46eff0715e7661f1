import Mathlib.Data.Fintype.Order
import Mathlib.Data.Set.Finite.Basic
import Mathlib.Logic.Relation
import Mathlib.Order.WellFounded

/-!
# Counted paths and acyclic relations

Paths of a relation with their number of edges, and the two facts about
acyclicity that dependency checks rest on: replacing the out-edges of one node
keeps a graph acyclic when none of the new targets leads back to that node, and
a finite part of an acyclic graph has a member with no other member below it.
Nothing here knows what the nodes are.
-/

namespace SyntheticsOperator.Support.Paths

open Relation

variable {α : Type*} {E F : α → α → Prop} {a b c x : α} {m n : Nat}

/-- A chain of exactly `n` edges of `E` leads from `a` to `b`. -/
def Path (E : α → α → Prop) : Nat → α → α → Prop
  | 0, a, b => a = b
  | n + 1, a, b => ∃ c, E a c ∧ Path E n c b

/-- No node lies on a cycle. -/
def Acyclic (E : α → α → Prop) : Prop :=
  ∀ a, ¬ TransGen E a a

@[simp] theorem path_zero : Path E 0 a b ↔ a = b := Iff.rfl

theorem Path.append (hab : Path E m a b) (hbc : Path E n b c) :
    Path E (m + n) a c := by
  induction m generalizing a with
  | zero =>
      rw [path_zero] at hab
      subst hab
      simpa using hbc
  | succ m ih =>
      obtain ⟨d, had, hdb⟩ := hab
      rw [Nat.succ_add]
      exact ⟨d, had, ih hdb⟩

theorem Path.snoc (hab : Path E n a b) (hbc : E b c) : Path E (n + 1) a c :=
  hab.append ⟨c, hbc, rfl⟩

theorem Path.mono (hEF : ∀ x y, E x y → F x y) (h : Path E n a b) : Path F n a b := by
  induction n generalizing a with
  | zero => exact h
  | succ n ih =>
      obtain ⟨d, had, hdb⟩ := h
      exact ⟨d, hEF a d had, ih hdb⟩

theorem Path.reflTransGen (h : Path E n a b) : ReflTransGen E a b := by
  induction n generalizing a with
  | zero =>
      rw [path_zero] at h
      exact h ▸ .refl
  | succ n ih =>
      obtain ⟨d, had, hdb⟩ := h
      exact .head had (ih hdb)

theorem exists_path_of_reflTransGen (h : ReflTransGen E a b) : ∃ n, Path E n a b := by
  induction h with
  | refl => exact ⟨0, rfl⟩
  | tail _ hbc ih =>
      obtain ⟨n, hn⟩ := ih
      exact ⟨n + 1, hn.snoc hbc⟩

theorem Path.transGen (h : Path E (n + 1) a b) : TransGen E a b := by
  obtain ⟨d, had, hdb⟩ := h
  exact .head' had hdb.reflTransGen

theorem exists_path_of_transGen (h : TransGen E a b) : ∃ n, Path E (n + 1) a b := by
  obtain ⟨d, had, hdb⟩ := TransGen.head'_iff.mp h
  obtain ⟨n, hn⟩ := exists_path_of_reflTransGen hdb
  exact ⟨n, d, had, hn⟩

theorem path_of_steps {f : Nat → α} (h : ∀ i < n, E (f i) (f (i + 1))) :
    Path E n (f 0) (f n) := by
  induction n with
  | zero => rfl
  | succ n ih => exact (ih fun i hi => h i (by omega)).snoc (h n (by omega))

theorem Acyclic.mono (hFE : ∀ x y, F x y → E x y) (hE : Acyclic E) : Acyclic F :=
  fun a h => hE a (TransGen.mono hFE _ _ h)

/-- If a rank falls along every edge, it bounds the number of edges. -/
theorem Path.add_rank_le (rank : α → Nat) (hrank : ∀ x y, E x y → rank y < rank x)
    (h : Path E n a b) : n + rank b ≤ rank a := by
  induction n generalizing a with
  | zero =>
      rw [path_zero] at h
      rw [h, Nat.zero_add]
  | succ n ih =>
      obtain ⟨d, had, hdb⟩ := h
      have := hrank a d had
      have := ih hdb
      omega

theorem acyclic_of_rank (rank : α → Nat) (hrank : ∀ x y, E x y → rank y < rank x) :
    Acyclic E := by
  intro a hcycle
  obtain ⟨n, hpath⟩ := exists_path_of_transGen hcycle
  have := hpath.add_rank_le rank hrank
  omega

/-! ## Replacing the out-edges of one node

`F` is `E` with other edges leaving `x`.  A path of `F` either never leaves
`x`, and then it is a path of `E`, or it can be cut at `x`.
-/

theorem Path.avoids_or_through (hEF : ∀ y z, y ≠ x → F y z → E y z)
    (h : Path F n a b) :
    Path E n a b ∨ ∃ i j, i + j = n ∧ Path F i a x ∧ Path F j x b := by
  induction n generalizing a with
  | zero => exact .inl h
  | succ n ih =>
      by_cases hax : a = x
      · subst hax
        exact .inr ⟨0, n + 1, by omega, rfl, h⟩
      · obtain ⟨d, had, hdb⟩ := h
        rcases ih hdb with hE | ⟨i, j, hij, hdx, hxb⟩
        · exact .inl ⟨d, hEF a d hax had, hE⟩
        · exact .inr ⟨i + 1, j, by omega, ⟨d, had, hdx⟩, hxb⟩

/-- A path into `x` never leaves `x`, if `x` is on no cycle. -/
theorem Path.arrives (hEF : ∀ y z, y ≠ x → F y z → E y z) (hx : ¬ TransGen F x x)
    (h : Path F n a x) : Path E n a x := by
  induction n generalizing a with
  | zero => exact h
  | succ n ih =>
      obtain ⟨d, had, hdx⟩ := h
      have hne : a ≠ x := by
        rintro rfl
        exact hx (.head' had hdx.reflTransGen)
      exact ⟨d, hEF a d hne had, ih hdx⟩

/-- A path out of `x` does not come back to `x`, if `x` is on no cycle. -/
theorem Path.departs (hEF : ∀ y z, y ≠ x → F y z → E y z) (hx : ¬ TransGen F x x)
    (hxa : F x a) (h : Path F n a b) : Path E n a b := by
  rcases h.avoids_or_through hEF with hE | ⟨i, j, _, hax, _⟩
  · exact hE
  · exact absurd (.head' hxa hax.reflTransGen) hx

/-- The first arrival at `x` uses no edge that leaves `x`. -/
theorem reflTransGen_first_arrival (hEF : ∀ y z, y ≠ x → F y z → E y z)
    (h : ReflTransGen F b x) :
    ReflTransGen (fun y z => y ≠ x ∧ E y z) b x := by
  induction h using ReflTransGen.head_induction_on with
  | refl => exact .refl
  | @head b c hbc _ ih =>
      by_cases hbx : b = x
      · subst hbx
        exact .refl
      · exact .head ⟨hbx, hEF b c hbx hbc⟩ ih

/-- Rewriting the edges of `x` keeps a graph acyclic when no new target of `x`
leads back to `x` along the edges of the other nodes. -/
theorem Acyclic.replace (hE : Acyclic E) (hEF : ∀ y z, y ≠ x → F y z → E y z)
    (hback : ∀ z, F x z → ¬ ReflTransGen (fun y z => y ≠ x ∧ E y z) z x) :
    Acyclic F := by
  -- a cycle through `x` would start with one of its new edges
  have hx : ¬ TransGen F x x := by
    intro hcycle
    obtain ⟨z, hxz, hzx⟩ := TransGen.head'_iff.mp hcycle
    exact hback z hxz (reflTransGen_first_arrival hEF hzx)
  intro a hcycle
  obtain ⟨n, hpath⟩ := exists_path_of_transGen hcycle
  rcases hpath.avoids_or_through hEF with hold | ⟨i, j, hij, hax, hxa⟩
  · exact hE a hold.transGen
  · have hloop : Path F (j + i) x x := hxa.append hax
    rw [show j + i = n + 1 by omega] at hloop
    exact hx hloop.transGen

/-! ## Minimal members -/

/-- A non-empty finite set of nodes of an acyclic graph has a member from which
no member of the set is reachable. -/
theorem Acyclic.exists_minimal (hE : Acyclic E) {s : Set α} (hfin : s.Finite)
    (hne : s.Nonempty) : ∃ a ∈ s, ∀ b ∈ s, ¬ TransGen E a b := by
  have : Finite s := hfin
  let below : s → s → Prop := fun u v => TransGen E v.1 u.1
  have : IsTrans s below := ⟨fun _ _ _ huv hvw => hvw.trans huv⟩
  have : Std.Irrefl below := ⟨fun u => hE u.1⟩
  have hwf : WellFounded below := Finite.wellFounded_of_trans_of_irrefl below
  obtain ⟨a₀, ha₀⟩ := hne
  obtain ⟨a, _, hmin⟩ := hwf.has_min Set.univ ⟨⟨a₀, ha₀⟩, trivial⟩
  exact ⟨a.1, a.2, fun b hb hab => hmin ⟨b, hb⟩ trivial hab⟩

end SyntheticsOperator.Support.Paths
