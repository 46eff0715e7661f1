import Mathlib.Data.Finset.Insert
import SyntheticsOperator.Support.Paths

/-!
# Depth-capped depth-first search with one visited set

A search walks the successors of each node in list order, shares one visited
set between all branches, stops descending after a fixed number of levels, and
may leave early.  There are three places to leave: on meeting a node (before
the visited set is consulted), after a node's successors have been walked, and
on running into the cap.

`walk_covers` says what a search that ran to its end has seen, `walk_error`
where an early exit comes from, and `walk_error_deepest` that in an acyclic
graph that fits under the cap an exit on leaving a node has no further exit
below it.
-/

namespace SyntheticsOperator.Support

open Relation Paths

/-- What a search does at a node.  `some b` in `enter`, `leave` or `cut` ends
the whole search with `b`; `expand x = none` makes `x` a leaf. -/
structure Search (α β : Type*) where
  enter : α → Option β
  expand : α → Option (List α)
  leave : α → Option β
  cut : Option β

namespace Search

variable {α β : Type*} (S : Search α β)

/-- `y` is a successor of `x`. -/
def Edge (x y : α) : Prop :=
  ∃ next, S.expand x = some next ∧ y ∈ next

section Walk

variable [DecidableEq α]

/-- One iteration of the loop over a successor list; `descend` walks the next
level.  `.ok` carries the visited set on, `.error` is an early exit. -/
def visit (descend : List α → Finset α → Except β (Finset α))
    (visited : Finset α) (x : α) : Except β (Finset α) :=
  match S.enter x with
  | some b => .error b
  | none =>
      if x ∈ visited then .ok visited
      else
        match S.expand x with
        | none => .ok (insert x visited)
        | some next =>
            match descend next (insert x visited) with
            | .error b => .error b
            | .ok visited' =>
                match S.leave x with
                | some b => .error b
                | none => .ok visited'

/-- The search, with `room` levels left under the cap. -/
def walk : Nat → List α → Finset α → Except β (Finset α)
  | 0, _, visited =>
      match S.cut with
      | some b => .error b
      | none => .ok visited
  | room + 1, todo, visited => todo.foldlM (S.visit (walk room)) visited

variable {S}

theorem walk_zero (todo : List α) (visited : Finset α) :
    S.walk 0 todo visited =
      match S.cut with
      | some b => .error b
      | none => .ok visited := rfl

@[simp] theorem walk_nil (room : Nat) (visited : Finset α) :
    S.walk (room + 1) [] visited = .ok visited := rfl

theorem walk_cons (room : Nat) (x : α) (todo : List α) (visited : Finset α) :
    S.walk (room + 1) (x :: todo) visited =
      match S.visit (S.walk room) visited x with
      | .error b => .error b
      | .ok visited' => S.walk (room + 1) todo visited' := by
  simp only [walk, List.foldlM_cons]
  rcases S.visit (S.walk room) visited x with b | visited' <;> rfl

theorem walk_cons_ok {room : Nat} {x : α} {todo : List α} {V V' : Finset α}
    (h : S.walk (room + 1) (x :: todo) V = .ok V') :
    ∃ V₁, S.visit (S.walk room) V x = .ok V₁ ∧ S.walk (room + 1) todo V₁ = .ok V' := by
  rw [walk_cons] at h
  rcases hv : S.visit (S.walk room) V x with b | V₁
  · rw [hv] at h
    cases h
  · rw [hv] at h
    exact ⟨V₁, rfl, h⟩

theorem walk_cons_error {room : Nat} {x : α} {todo : List α} {V : Finset α} {b : β}
    (h : S.walk (room + 1) (x :: todo) V = .error b) :
    S.visit (S.walk room) V x = .error b ∨
      ∃ V₁, S.visit (S.walk room) V x = .ok V₁ ∧
        S.walk (room + 1) todo V₁ = .error b := by
  rw [walk_cons] at h
  rcases hv : S.visit (S.walk room) V x with b' | V₁
  · rw [hv] at h
    exact .inl h
  · rw [hv] at h
    exact .inr ⟨V₁, rfl, h⟩

/-- Everything a completed iteration can have done. -/
theorem visit_ok {descend : List α → Finset α → Except β (Finset α)}
    {V V' : Finset α} {x : α} (h : S.visit descend V x = .ok V') :
    S.enter x = none ∧
      ((x ∈ V ∧ V' = V) ∨
        (x ∉ V ∧ S.expand x = none ∧ V' = insert x V) ∨
        (x ∉ V ∧ ∃ next, S.expand x = some next ∧
          descend next (insert x V) = .ok V' ∧ S.leave x = none)) := by
  unfold visit at h
  split at h
  · cases h
  · rename_i henter
    refine ⟨henter, ?_⟩
    split at h
    · rename_i hmem
      cases h
      exact .inl ⟨hmem, rfl⟩
    · rename_i hmem
      split at h
      · rename_i hexpand
        cases h
        exact .inr (.inl ⟨hmem, hexpand, rfl⟩)
      · rename_i next hexpand
        split at h
        · cases h
        · rename_i V₁ hdescend
          split at h
          · cases h
          · rename_i hleave
            cases h
            exact .inr (.inr ⟨hmem, next, hexpand, hdescend, hleave⟩)

/-- Every way an iteration can end the search. -/
theorem visit_error {descend : List α → Finset α → Except β (Finset α)}
    {V : Finset α} {x : α} {b : β} (h : S.visit descend V x = .error b) :
    S.enter x = some b ∨
      (x ∉ V ∧ ∃ next, S.expand x = some next ∧
        (descend next (insert x V) = .error b ∨
          ∃ V', descend next (insert x V) = .ok V' ∧ S.leave x = some b)) := by
  unfold visit at h
  split at h
  · rename_i b' henter
    cases h
    exact .inl henter
  · split at h
    · cases h
    · rename_i hmem
      split at h
      · cases h
      · rename_i next hexpand
        split at h
        · rename_i b' hdescend
          cases h
          exact .inr ⟨hmem, next, hexpand, .inl hdescend⟩
        · rename_i V₁ hdescend
          split at h
          · rename_i b' hleave
            cases h
            exact .inr ⟨hmem, next, hexpand, .inr ⟨V₁, hdescend, hleave⟩⟩
          · cases h

theorem walk_singleton (room : Nat) (x : α) (visited : Finset α) :
    S.walk (room + 1) [x] visited = S.visit (S.walk room) visited x := by
  rw [walk_cons]
  rcases S.visit (S.walk room) visited x with b | visited' <;> rfl

/-- The visited set only grows. -/
theorem walk_grows {room : Nat} {todo : List α} {V V' : Finset α}
    (h : S.walk room todo V = .ok V') : V ⊆ V' := by
  induction room generalizing todo V V' with
  | zero =>
      rw [walk_zero] at h
      split at h <;> cases h
      exact Finset.Subset.refl _
  | succ room ihroom =>
      induction todo generalizing V with
      | nil =>
          cases h
          exact Finset.Subset.refl _
      | cons x todo ihtodo =>
          obtain ⟨V₁, hvisit, hrest⟩ := walk_cons_ok h
          refine Finset.Subset.trans ?_ (ihtodo hrest)
          obtain ⟨_, ⟨_, hV₁⟩ | ⟨_, _, hV₁⟩ | ⟨_, next, _, hdescend, _⟩⟩ := visit_ok hvisit
          · exact hV₁ ▸ Finset.Subset.refl V
          · exact hV₁ ▸ Finset.subset_insert x V
          · exact (Finset.subset_insert x V).trans (ihroom hdescend)

end Walk

/-! ## What a completed search has seen -/

/-- Every path from `x` has fewer than `room` edges, so a search that meets `x`
with `room` levels left is not cut below it. -/
def Fits (room : Nat) (x : α) : Prop :=
  ∀ n y, Path S.Edge n x y → n < room

/-- A completed search over `todo` took the visited set from `V` to `V'`: it
met all of `todo`, and everything it added has all its successors in `V'`. -/
structure Covers (todo : List α) (V V' : Finset α) : Prop where
  grows : V ⊆ V'
  enter : ∀ x ∈ todo, S.enter x = none
  mem : ∀ x ∈ todo, x ∈ V'
  closed : ∀ x ∈ V', x ∉ V → ∀ next, S.expand x = some next →
    S.leave x = none ∧ ∀ y ∈ next, y ∈ V' ∧ S.enter y = none

variable {S}

theorem Fits.pos {room : Nat} {x : α} (h : S.Fits room x) : 0 < room :=
  h 0 x rfl

theorem Fits.succ {room : Nat} {x y : α} (h : S.Fits (room + 1) x) (hxy : S.Edge x y) :
    S.Fits room y := by
  intro n z hyz
  have := h (n + 1) z ⟨y, hxy, hyz⟩
  omega

theorem Covers.nil (V : Finset α) : S.Covers [] V V :=
  ⟨Finset.Subset.refl V, by simp, by simp, fun _ hx hx' => absurd hx hx'⟩

theorem Covers.seen {x : α} {V : Finset α} (henter : S.enter x = none) (hx : x ∈ V) :
    S.Covers [x] V V :=
  ⟨Finset.Subset.refl V, by simpa using henter, by simpa using hx,
    fun _ hy hy' => absurd hy hy'⟩

variable [DecidableEq α]

theorem Covers.cons {x : α} {todo : List α} {V V₁ V' : Finset α}
    (hx : S.Covers [x] V V₁) (htodo : S.Covers todo V₁ V') :
    S.Covers (x :: todo) V V' := by
  refine ⟨hx.grows.trans htodo.grows, ?_, ?_, ?_⟩
  · intro y hy
    rcases List.mem_cons.mp hy with rfl | hy
    · exact hx.enter y (by simp)
    · exact htodo.enter y hy
  · intro y hy
    rcases List.mem_cons.mp hy with rfl | hy
    · exact htodo.grows (hx.mem y (by simp))
    · exact htodo.mem y hy
  · intro y hy hyV next hnext
    by_cases hyV₁ : y ∈ V₁
    · obtain ⟨hleave, hsucc⟩ := hx.closed y hyV₁ hyV next hnext
      exact ⟨hleave, fun z hz => ⟨htodo.grows (hsucc z hz).1, (hsucc z hz).2⟩⟩
    · exact htodo.closed y hy hyV₁ next hnext

/-- Marking `x` and then covering its successors covers `x`. -/
theorem Covers.single {x : α} {next : List α} {V V' : Finset α}
    (henter : S.enter x = none) (hexpand : S.expand x = some next)
    (hleave : S.leave x = none) (h : S.Covers next (insert x V) V') :
    S.Covers [x] V V' := by
  have hxV' : x ∈ V' := h.grows (Finset.mem_insert_self x V)
  refine ⟨(Finset.subset_insert x V).trans h.grows, by simpa using henter,
    by simpa using hxV', ?_⟩
  intro y hy hyV next' hnext'
  by_cases hyx : y = x
  · subst hyx
    rw [hexpand] at hnext'
    cases hnext'
    exact ⟨hleave, fun z hz => ⟨h.mem z hz, h.enter z hz⟩⟩
  · have hyins : y ∉ insert x V := by
      simp [hyx, hyV]
    exact h.closed y hy hyins next' hnext'

theorem Covers.leaf {x : α} (V : Finset α) (henter : S.enter x = none)
    (hexpand : S.expand x = none) : S.Covers [x] V (insert x V) := by
  refine ⟨Finset.subset_insert x V, by simpa using henter, by simp, ?_⟩
  intro y hy hyV next hnext
  rcases Finset.mem_insert.mp hy with rfl | hy
  · rw [hexpand] at hnext
    cases hnext
  · exact absurd hy hyV

/-- A search that runs to its end covers its list, provided the cap either
ends the search or is never reached. -/
theorem walk_covers {room : Nat} {todo : List α} {V V' : Finset α}
    (hcap : S.cut ≠ none ∨ ∀ x ∈ todo, S.Fits room x)
    (h : S.walk room todo V = .ok V') : S.Covers todo V V' := by
  -- outer induction on the levels left, inner on the list of the current level
  induction room generalizing todo V V' with
  | zero =>
      rw [walk_zero] at h
      rcases hcut : S.cut with _ | b
      · rw [hcut] at h
        cases h
        have hempty : todo = [] := by
          refine List.eq_nil_iff_forall_not_mem.mpr fun x hx => ?_
          have hfit := hcap.resolve_left (by simp [hcut]) x hx
          exact absurd hfit.pos (Nat.lt_irrefl 0)
        subst hempty
        exact .nil _
      · rw [hcut] at h
        cases h
  | succ room ihroom =>
      induction todo generalizing V with
      | nil =>
          rw [walk_nil] at h
          cases h
          exact .nil _
      | cons x todo ihtodo =>
          obtain ⟨V₁, hvisit, hrest⟩ := walk_cons_ok h
          have htail : S.cut ≠ none ∨ ∀ y ∈ todo, S.Fits (room + 1) y :=
            hcap.imp_right fun hfit y hy => hfit y (by simp [hy])
          refine Covers.cons ?_ (ihtodo htail hrest)
          obtain ⟨henter, ⟨hx, rfl⟩ | ⟨hx, hexpand, rfl⟩ | ⟨hx, next, hexpand, hdescend, hleave⟩⟩ :=
            visit_ok hvisit
          · exact .seen henter hx
          · exact .leaf _ henter hexpand
          · refine .single henter hexpand hleave (ihroom ?_ hdescend)
            refine hcap.imp_right fun hfit y hy => ?_
            exact (hfit x (by simp)).succ ⟨next, hexpand, hy⟩

/-- From a covered list, every node below it has been visited, provided no
node visited before has an unvisited successor. -/
theorem Covers.reach {todo : List α} {V V' : Finset α} {x y : α}
    (h : S.Covers todo V V') (hV : ∀ z ∈ V, ∀ w, S.Edge z w → w ∈ V')
    (hx : x ∈ V') (hxy : ReflTransGen S.Edge x y) : y ∈ V' := by
  induction hxy with
  | refl => exact hx
  | @tail b c _ hbc hb =>
      by_cases hbV : b ∈ V
      · exact hV b hbV c hbc
      · obtain ⟨next, hexpand, hc⟩ := hbc
        exact ((h.closed b hb hbV next hexpand).2 c hc).1

/-! ## Where an early exit comes from -/

/-- An exit is taken on meeting a node, on leaving a newly visited node, or at
the cap; the node lies fewer than `room` edges below the list. -/
theorem walk_error {room : Nat} {todo : List α} {V : Finset α} {b : β}
    (h : S.walk room todo V = .error b) :
    S.cut = some b ∨
      ∃ t ∈ todo, ∃ n x, n < room ∧ Path S.Edge n t x ∧
        (S.enter x = some b ∨ (x ∉ V ∧ S.leave x = some b)) := by
  induction room generalizing todo V with
  | zero =>
      rw [walk_zero] at h
      rcases hcut : S.cut with _ | b'
      · rw [hcut] at h
        cases h
      · rw [hcut] at h
        cases h
        exact .inl rfl
  | succ room ihroom =>
      induction todo generalizing V with
      | nil => cases h
      | cons x todo ihtodo =>
          rcases walk_cons_error h with hvisit | ⟨V₁, hvisit, hrest⟩
          · rcases visit_error hvisit with
              henter | ⟨hx, next, hexpand, hdescend | ⟨_, _, hleave⟩⟩
            · exact .inr ⟨x, by simp, 0, x, by omega, rfl, .inl henter⟩
            · refine (ihroom hdescend).imp_right ?_
              rintro ⟨t, ht, n, y, hn, hty, hexit⟩
              refine ⟨x, by simp, n + 1, y, by omega, ⟨t, ⟨next, hexpand, ht⟩, hty⟩, ?_⟩
              exact hexit.imp_right fun hy =>
                ⟨fun hyV => hy.1 (Finset.mem_insert_of_mem hyV), hy.2⟩
            · exact .inr ⟨x, by simp, 0, x, by omega, rfl, .inr ⟨hx, hleave⟩⟩
          · refine (ihtodo hrest).imp_right ?_
            rintro ⟨t, ht, n, y, hn, hty, hexit⟩
            have hgrows : V ⊆ V₁ := walk_grows (by rwa [walk_singleton])
            exact ⟨t, by simp [ht], n, y, hn, hty,
              hexit.imp_right fun hy => ⟨fun hyV => hy.1 (hgrows hyV), hy.2⟩⟩

/-! ## The deepest exit

In an acyclic graph the nodes still open above the current list can never be
below it, so everything visited below a node is settled by the time the search
leaves that node.
-/

variable (S) in
/-- `x` takes no exit on leaving, and all its successors are in `V`. -/
def Settled (V : Finset α) (x : α) : Prop :=
  ∀ next, S.expand x = some next → S.leave x = none ∧ ∀ y ∈ next, y ∈ V

omit [DecidableEq α] in
theorem Settled.mono {V V' : Finset α} {x : α} (hVV' : V ⊆ V') (h : S.Settled V x) :
    S.Settled V' x :=
  fun next hnext => ⟨(h next hnext).1, fun y hy => hVV' ((h next hnext).2 y hy)⟩

omit [DecidableEq α] in
theorem Covers.settled {todo : List α} {V V' : Finset α} {x : α}
    (h : S.Covers todo V V') (hx : x ∈ V') (hxV : x ∉ V) : S.Settled V' x :=
  fun next hnext =>
    ⟨(h.closed x hx hxV next hnext).1, fun y hy => ((h.closed x hx hxV next hnext).2 y hy).1⟩

omit [DecidableEq α] in
/-- Visited nodes are open or settled: adding a covered list keeps it so. -/
theorem Covers.open_or_settled {A : Set α} {todo : List α} {V V' : Finset α}
    (h : S.Covers todo V V') (hV : ∀ x ∈ V, x ∈ A ∨ S.Settled V x) :
    ∀ x ∈ V', x ∈ A ∨ S.Settled V' x := by
  intro x hx
  by_cases hxV : x ∈ V
  · exact (hV x hxV).imp_right (Settled.mono h.grows)
  · exact .inr (h.settled hx hxV)

/-- The same when a node is met and becomes open. -/
theorem open_or_settled_insert {A : Set α} {V : Finset α} (x : α)
    (hV : ∀ z ∈ V, z ∈ A ∨ S.Settled V z) :
    ∀ z ∈ insert x V, z ∈ insert x A ∨ S.Settled (insert x V) z := by
  intro z hz
  rcases Finset.mem_insert.mp hz with rfl | hz
  · exact .inl (Set.mem_insert z A)
  · exact (hV z hz).imp (Set.mem_insert_of_mem x) (Settled.mono (Finset.subset_insert x V))

omit [DecidableEq α] in
/-- Once the successors of `x` are covered, every node below `x` is settled:
it cannot be one of the open nodes, since those lie above `x`. -/
theorem Covers.settled_below {A : Set α} {next : List α} {V V' : Finset α} {x y : α}
    (h : S.Covers next V V') (hexpand : S.expand x = some next)
    (hopen : ∀ a ∈ A, ReflTransGen S.Edge a x) (hacyclic : ¬ TransGen S.Edge x x)
    (hV : ∀ z ∈ V, z ∈ A ∨ S.Settled V z) (hxy : TransGen S.Edge x y) :
    S.Settled V' y := by
  have hsettled : ∀ z, z ∈ V' → TransGen S.Edge x z → S.Settled V' z := by
    intro z hz hxz
    refine (h.open_or_settled hV z hz).resolve_left fun hzA => ?_
    exact hacyclic (hxz.trans_left (hopen z hzA))
  induction hxy with
  | @single y hxy =>
      obtain ⟨next', hnext', hy⟩ := hxy
      rw [hexpand] at hnext'
      cases hnext'
      exact hsettled y (h.mem y hy) (.single ⟨next, hexpand, hy⟩)
  | @tail y z hxy hyz ih =>
      obtain ⟨next', hnext', hz⟩ := hyz
      exact hsettled z ((ih next' hnext').2 z hz) (hxy.tail ⟨next', hnext', hz⟩)

/-- Under a cap that is never reached and in an acyclic graph, the node whose
leaving ends the search has no exit below it. `A` are the open nodes. -/
theorem walk_error_deepest {room : Nat} {todo : List α} {V : Finset α} {b : β}
    {A : Set α} (henter : ∀ x, S.enter x = none) (hcut : S.cut = none)
    (hfits : ∀ x ∈ todo, S.Fits room x)
    (hacyclic : ∀ t ∈ todo, ∀ x, ReflTransGen S.Edge t x → ¬ TransGen S.Edge x x)
    (hopen : ∀ a ∈ A, ∀ t ∈ todo, TransGen S.Edge a t)
    (hV : ∀ x ∈ V, x ∈ A ∨ S.Settled V x)
    (h : S.walk room todo V = .error b) :
    ∃ t ∈ todo, ∃ x, ReflTransGen S.Edge t x ∧ S.leave x = some b ∧
      ∀ y, TransGen S.Edge x y → ∀ next, S.expand y = some next → S.leave y = none := by
  induction room generalizing todo V A with
  | zero =>
      rw [walk_zero, hcut] at h
      cases h
  | succ room ihroom =>
      induction todo generalizing V with
      | nil => cases h
      | cons x todo ihtodo =>
          rcases walk_cons_error h with hvisit | ⟨V₁, hvisit, hrest⟩
          · -- the exit is taken at or below `x`, which becomes open
            rcases visit_error hvisit with hex | ⟨_, next, hexpand, hbelow⟩
            · rw [henter x] at hex
              cases hex
            have hedge : ∀ t ∈ next, S.Edge x t := fun t ht => ⟨next, hexpand, ht⟩
            have hfits' : ∀ t ∈ next, S.Fits room t :=
              fun t ht => (hfits x (by simp)).succ (hedge t ht)
            have hV' := open_or_settled_insert x hV
            rcases hbelow with hdescend | ⟨V', hdescend, hleave⟩
            · have hbelow : ∀ t ∈ next, ∀ y, ReflTransGen S.Edge t y → ¬ TransGen S.Edge y y :=
                fun t ht y hty => hacyclic x (by simp) y (.head (hedge t ht) hty)
              have hopen' : ∀ a ∈ insert x A, ∀ t ∈ next, TransGen S.Edge a t := by
                rintro a (rfl | ha) t ht
                · exact .single (hedge t ht)
                · exact (hopen a ha x (by simp)).tail (hedge t ht)
              obtain ⟨t, ht, y, hty, hy⟩ := ihroom hfits' hbelow hopen' hV' hdescend
              exact ⟨x, by simp, y, .head (hedge t ht) hty, hy⟩
            · refine ⟨x, by simp, x, .refl, hleave, fun y hxy next' hnext' => ?_⟩
              have hcovers := walk_covers (.inr hfits') hdescend
              have habove : ∀ a ∈ insert x A, ReflTransGen S.Edge a x := by
                rintro a (rfl | ha)
                · exact .refl
                · exact (hopen a ha x (by simp)).to_reflTransGen
              exact (hcovers.settled_below hexpand habove
                (hacyclic x (by simp) x .refl) hV' hxy next' hnext').1
          · have hwalk : S.walk (room + 1) [x] V = .ok V₁ := by rwa [walk_singleton]
            have hcovers : S.Covers [x] V V₁ := by
              refine walk_covers (.inr fun y hy => ?_) hwalk
              rw [List.mem_singleton.mp hy]
              exact hfits x (by simp)
            obtain ⟨t, ht, y, hy⟩ := ihtodo (fun y hy => hfits y (by simp [hy]))
              (fun t ht => hacyclic t (by simp [ht]))
              (fun a ha t ht => hopen a ha t (by simp [ht]))
              (hcovers.open_or_settled hV) hrest
            exact ⟨t, by simp [ht], y, hy⟩

end Search

end SyntheticsOperator.Support
