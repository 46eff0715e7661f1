import Mathlib.Data.Finset.Dedup
import SyntheticsOperator.Support.CappedSearch

/-!
# The arrival log of a capped search

The same traversal with every exit ignored, recording for each node how many
levels were left when it was first met.  A node that is first met with no level
left is marked visited but its successors are never looked at, not even when a
shorter path meets it again: `walk_error_iff_timely` says that what the search
finds is exactly what can be reached without following the edges of such nodes.
-/

namespace SyntheticsOperator.Support.Search

open Relation Paths

variable {α β : Type*} [DecidableEq α] (S : Search α β)

/-- The nodes of an arrival log. -/
def nodes (log : List (α × Nat)) : List α := log.map Prod.fst

/-- One iteration of the traversal: a new node is logged with the levels left
below it. -/
def arrive (descend : List α → List (α × Nat) → List (α × Nat)) (room : Nat)
    (log : List (α × Nat)) (x : α) : List (α × Nat) :=
  if x ∈ nodes log then log
  else
    match S.expand x with
    | none => (x, room) :: log
    | some next => descend next ((x, room) :: log)

/-- The arrival log of the traversal with `room` levels left. -/
def explore : Nat → List α → List (α × Nat) → List (α × Nat)
  | 0, _, log => log
  | room + 1, todo, log => todo.foldl (S.arrive (explore room) room) log

/-- `y` is a successor of `x`, and `x` was logged with a level left. -/
def OpenEdge (log : List (α × Nat)) (x y : α) : Prop :=
  S.Edge x y ∧ ∃ r, (x, r + 1) ∈ log

variable {S}

omit [DecidableEq α] in
theorem mem_nodes {log : List (α × Nat)} {x : α} :
    x ∈ nodes log ↔ ∃ r, (x, r) ∈ log := by
  simp [nodes]

omit [DecidableEq α] in
theorem OpenEdge.mono {log log' : List (α × Nat)} (hsub : log ⊆ log') {x y : α}
    (h : S.OpenEdge log x y) : S.OpenEdge log' x y := by
  obtain ⟨hxy, r, hr⟩ := h
  exact ⟨hxy, r, hsub hr⟩

theorem explore_cons (room : Nat) (x : α) (todo : List α) (log : List (α × Nat)) :
    S.explore (room + 1) (x :: todo) log =
      S.explore (room + 1) todo (S.arrive (S.explore room) room log x) := rfl

/-- Everything one iteration can do to the log. -/
theorem arrive_cases (descend : List α → List (α × Nat) → List (α × Nat)) (room : Nat)
    (log : List (α × Nat)) (x : α) :
    (x ∈ nodes log ∧ S.arrive descend room log x = log) ∨
      (x ∉ nodes log ∧ S.expand x = none ∧
        S.arrive descend room log x = (x, room) :: log) ∨
      (x ∉ nodes log ∧ ∃ next, S.expand x = some next ∧
        S.arrive descend room log x = descend next ((x, room) :: log)) := by
  by_cases hx : x ∈ nodes log
  · exact .inl ⟨hx, if_pos hx⟩
  · rcases hexpand : S.expand x with _ | next
    · exact .inr (.inl ⟨hx, rfl, by simp [arrive, hx, hexpand]⟩)
    · exact .inr (.inr ⟨hx, next, rfl, by simp [arrive, hx, hexpand]⟩)

theorem explore_subset (room : Nat) (todo : List α) (log : List (α × Nat)) :
    log ⊆ S.explore room todo log := by
  induction room generalizing todo log with
  | zero => exact List.Subset.refl log
  | succ room ihroom =>
      induction todo generalizing log with
      | nil => exact List.Subset.refl log
      | cons x todo ihtodo =>
          rw [explore_cons]
          refine List.Subset.trans ?_ (ihtodo _)
          rcases S.arrive_cases (S.explore room) room log x with
            ⟨_, heq⟩ | ⟨_, _, heq⟩ | ⟨_, next, _, heq⟩
          · rw [heq]
            exact List.Subset.refl log
          · rw [heq]
            exact List.subset_cons_self _ _
          · rw [heq]
            exact List.Subset.trans (List.subset_cons_self _ _) (ihroom next _)

/-- The induction the facts about the log follow: one iteration, given the
fact for the level below it, and then the rest of the list. -/
theorem explore_induct {P : Nat → List α → List (α × Nat) → List (α × Nat) → Prop}
    (hzero : ∀ todo log, P 0 todo log log)
    (hnil : ∀ room log, P (room + 1) [] log log)
    (hseen : ∀ room x todo log log', x ∈ nodes log → log ⊆ log' →
      P (room + 1) todo log log' → P (room + 1) (x :: todo) log log')
    (hleaf : ∀ room x todo log log', x ∉ nodes log → S.expand x = none →
      (x, room) :: log ⊆ log' → P (room + 1) todo ((x, room) :: log) log' →
      P (room + 1) (x :: todo) log log')
    (hnode : ∀ room x next todo log log₁ log', x ∉ nodes log → S.expand x = some next →
      (x, room) :: log ⊆ log₁ → log₁ ⊆ log' → P room next ((x, room) :: log) log₁ →
      P (room + 1) todo log₁ log' → P (room + 1) (x :: todo) log log')
    (room : Nat) (todo : List α) (log : List (α × Nat)) :
    P room todo log (S.explore room todo log) := by
  induction room generalizing todo log with
  | zero => exact hzero todo log
  | succ room ihroom =>
      induction todo generalizing log with
      | nil => exact hnil room log
      | cons x todo ihtodo =>
          rw [explore_cons]
          rcases S.arrive_cases (S.explore room) room log x with
            ⟨hx, heq⟩ | ⟨hx, hexpand, heq⟩ | ⟨hx, next, hexpand, heq⟩
          · rw [heq]
            exact hseen room x todo log _ hx (explore_subset ..) (ihtodo log)
          · rw [heq]
            exact hleaf room x todo log _ hx hexpand (explore_subset ..) (ihtodo _)
          · rw [heq]
            exact hnode room x next todo log _ _ hx hexpand (explore_subset ..)
              (explore_subset ..) (ihroom next _) (ihtodo _)

/-- A node is logged at most once. -/
theorem explore_nodup (room : Nat) (todo : List α) (log : List (α × Nat))
    (hlog : (nodes log).Nodup) : (nodes (S.explore room todo log)).Nodup := by
  revert hlog
  refine explore_induct (P := fun _ _ log log' => (nodes log).Nodup → (nodes log').Nodup)
    (fun _ _ h => h) (fun _ _ h => h) (fun _ _ _ _ _ _ _ h => h) ?_ ?_ room todo log
  · intro room x todo log log' hx _ _ hrest hlog
    exact hrest (List.nodup_cons.mpr ⟨hx, hlog⟩)
  · intro room x next todo log log₁ log' hx _ _ _ hbelow hrest hlog
    exact hrest (hbelow (List.nodup_cons.mpr ⟨hx, hlog⟩))

omit [DecidableEq α] in
theorem room_unique {log : List (α × Nat)} (hlog : (nodes log).Nodup) {x : α} {r r' : Nat}
    (hr : (x, r) ∈ log) (hr' : (x, r') ∈ log) : r = r' := by
  have hinj := List.inj_on_of_nodup_map hlog hr hr' rfl
  exact congrArg Prod.snd hinj

omit [DecidableEq α] in
theorem nodes_mono {log log' : List (α × Nat)} (hsub : log ⊆ log') {x : α}
    (hx : x ∈ nodes log) : x ∈ nodes log' := by
  obtain ⟨r, hr⟩ := mem_nodes.mp hx
  exact mem_nodes.mpr ⟨r, hsub hr⟩

variable (S) in
/-- With a level left the whole list is logged, and so are the successors of
every node that is newly logged with a level left. -/
structure Logged (room : Nat) (todo : List α) (log log' : List (α × Nat)) : Prop where
  mem : 0 < room → ∀ x ∈ todo, x ∈ nodes log'
  closed : ∀ x r, (x, r + 1) ∈ log' → (x, r + 1) ∉ log →
    ∀ y, S.Edge x y → y ∈ nodes log'

theorem explore_logged (room : Nat) (todo : List α) (log : List (α × Nat)) :
    S.Logged room todo log (S.explore room todo log) := by
  refine explore_induct (P := S.Logged) ?_ ?_ ?_ ?_ ?_ room todo log
  · intro todo log
    exact ⟨fun h => absurd h (Nat.lt_irrefl 0), fun _ _ h h' => absurd h h'⟩
  · intro room log
    exact ⟨by simp, fun _ _ h h' => absurd h h'⟩
  · intro room x todo log log' hx hsub hrest
    refine ⟨fun h y hy => ?_, hrest.closed⟩
    rcases List.mem_cons.mp hy with rfl | hy
    · exact nodes_mono hsub hx
    · exact hrest.mem h y hy
  · intro room x todo log log' _ hexpand hsub hrest
    refine ⟨fun h y hy => ?_, fun y r hy hylog z hyz => ?_⟩
    · rcases List.mem_cons.mp hy with rfl | hy
      · exact mem_nodes.mpr ⟨room, hsub (by simp)⟩
      · exact hrest.mem h y hy
    · by_cases hyx : (y, r + 1) = (x, room)
      · obtain ⟨next, hnext, _⟩ := hyz
        rw [(Prod.mk.inj hyx).1, hexpand] at hnext
        cases hnext
      · exact hrest.closed y r hy (by simp [hyx, hylog]) z hyz
  · intro room x next todo log log₁ log' _ hexpand hsub hsub' hbelow hrest
    refine ⟨fun h y hy => ?_, fun y r hy hylog z hyz => ?_⟩
    · rcases List.mem_cons.mp hy with rfl | hy
      · exact mem_nodes.mpr ⟨room, hsub' (hsub (by simp))⟩
      · exact hrest.mem h y hy
    · by_cases hy₁ : (y, r + 1) ∈ log₁
      · refine nodes_mono hsub' ?_
        by_cases hyx : (y, r + 1) = (x, room)
        · -- `x` itself: its successors were the list of the level below
          obtain ⟨hyx, hroom⟩ := Prod.mk.inj hyx
          obtain ⟨next', hnext, hz⟩ := hyz
          rw [hyx, hexpand] at hnext
          cases hnext
          exact hbelow.mem (by omega) z hz
        · exact hbelow.closed y r hy₁ (by simp [hyx, hylog]) z hyz
      · exact hrest.closed y r hy hy₁ z hyz

/-- A newly logged node is reached from the list by open edges only, one level
for each edge. -/
theorem explore_open_path (room : Nat) (todo : List α) (log : List (α × Nat)) :
    ∀ x r, (x, r) ∈ S.explore room todo log → (x, r) ∉ log →
      ∃ t ∈ todo, ∃ n, n + r + 1 = room ∧
        Path (S.OpenEdge (S.explore room todo log)) n t x := by
  refine explore_induct
    (P := fun room todo log log' => ∀ x r, (x, r) ∈ log' → (x, r) ∉ log →
      ∃ t ∈ todo, ∃ n, n + r + 1 = room ∧ Path (S.OpenEdge log') n t x)
    (fun _ _ _ _ h h' => absurd h h') (fun _ _ _ _ h h' => absurd h h')
    ?_ ?_ ?_ room todo log
  · intro room x todo log log' _ _ hrest y r hy hylog
    obtain ⟨t, ht, n, hn, hpath⟩ := hrest y r hy hylog
    exact ⟨t, by simp [ht], n, hn, hpath⟩
  · intro room x todo log log' _ _ hsub hrest y r hy hylog
    by_cases hyx : (y, r) = (x, room)
    · obtain ⟨rfl, rfl⟩ := Prod.mk.inj hyx
      exact ⟨y, by simp, 0, by omega, rfl⟩
    · obtain ⟨t, ht, n, hn, hpath⟩ := hrest y r hy (by simp [hyx, hylog])
      exact ⟨t, by simp [ht], n, hn, hpath⟩
  · intro room x next todo log log₁ log' _ hexpand hsub hsub' hbelow hrest y r hy hylog
    by_cases hy₁ : (y, r) ∈ log₁
    · by_cases hyx : (y, r) = (x, room)
      · obtain ⟨rfl, rfl⟩ := Prod.mk.inj hyx
        exact ⟨y, by simp, 0, by omega, rfl⟩
      · -- below `x`: a path from a successor, after the edge that leaves `x`
        obtain ⟨t, ht, n, hn, hpath⟩ := hbelow y r hy₁ (by simp [hyx, hylog])
        have hx : (x, n + r + 1) ∈ log' := by
          rw [hn]
          exact hsub' (hsub (by simp))
        refine ⟨x, by simp, n + 1, by omega, t, ⟨⟨next, hexpand, ht⟩, n + r, hx⟩, ?_⟩
        exact hpath.mono fun _ _ => OpenEdge.mono hsub'
    · obtain ⟨t, ht, n, hn, hpath⟩ := hrest y r hy hy₁
      exact ⟨t, by simp [ht], n, hn, hpath⟩

/-! ## The search and its log -/

theorem nodes_cons_toFinset (x : α) (room : Nat) (log : List (α × Nat)) :
    (nodes ((x, room) :: log)).toFinset = insert x (nodes log).toFinset := by
  simp [nodes]

/-- A search with a silent cap that runs to its end has visited what is
logged, and none of the newly logged nodes is an exit. -/
theorem walk_ok_explore {room : Nat} {todo : List α} {log : List (α × Nat)}
    {V' : Finset α} (hcut : S.cut = none)
    (h : S.walk room todo (nodes log).toFinset = .ok V') :
    V' = (nodes (S.explore room todo log)).toFinset ∧
      ∀ x ∈ nodes (S.explore room todo log), x ∉ nodes log →
        ∀ next, S.expand x = some next → S.leave x = none := by
  induction room generalizing todo log V' with
  | zero =>
      rw [walk_zero, hcut] at h
      cases h
      exact ⟨rfl, fun _ hx hx' => absurd hx hx'⟩
  | succ room ihroom =>
      induction todo generalizing log with
      | nil =>
          cases h
          exact ⟨rfl, fun _ hx hx' => absurd hx hx'⟩
      | cons x todo ihtodo =>
          obtain ⟨V₁, hvisit, hrest⟩ := walk_cons_ok h
          rw [explore_cons]
          obtain ⟨_, ⟨hx, hV₁⟩ | ⟨hx, hexpand, hV₁⟩ | ⟨hx, next, hexpand, hdescend, hleave⟩⟩ :=
            visit_ok hvisit
          · rw [arrive, if_pos (List.mem_toFinset.mp hx)]
            exact ihtodo (hV₁ ▸ hrest)
          · simp only [arrive, if_neg (mt List.mem_toFinset.mpr hx), hexpand]
            rw [hV₁, ← nodes_cons_toFinset x room] at hrest
            obtain ⟨hV', hclean⟩ := ihtodo hrest
            refine ⟨hV', fun y hy hylog next hnext => ?_⟩
            by_cases hyx : y = x
            · rw [hyx, hexpand] at hnext
              cases hnext
            · exact hclean y hy (by simpa [nodes, hyx] using hylog) next hnext
          · simp only [arrive, if_neg (mt List.mem_toFinset.mpr hx), hexpand]
            rw [← nodes_cons_toFinset x room] at hdescend
            obtain ⟨hV₁, hclean₁⟩ := ihroom hdescend
            rw [hV₁] at hrest
            obtain ⟨hV', hclean⟩ := ihtodo hrest
            refine ⟨hV', fun y hy hylog next' hnext' => ?_⟩
            by_cases hyx : y = x
            · exact hyx ▸ hleave
            · by_cases hy₁ : y ∈ nodes (S.explore room next ((x, room) :: log))
              · exact hclean₁ y hy₁ (by simpa [nodes, hyx] using hylog) next' hnext'
              · exact hclean y hy hy₁ next' hnext'

/-- If no node is an exit on meeting it and the cap is silent, a search ends
early only on leaving a newly logged node. -/
theorem walk_error_explore {room : Nat} {todo : List α} {log : List (α × Nat)} {b : β}
    (henter : ∀ x, S.enter x = none) (hcut : S.cut = none)
    (h : S.walk room todo (nodes log).toFinset = .error b) :
    ∃ x ∈ nodes (S.explore room todo log), x ∉ nodes log ∧ S.leave x = some b := by
  induction room generalizing todo log with
  | zero =>
      rw [walk_zero, hcut] at h
      cases h
  | succ room ihroom =>
      induction todo generalizing log with
      | nil => cases h
      | cons x todo ihtodo =>
          rw [explore_cons]
          rcases walk_cons_error h with hvisit | ⟨V₁, hvisit, hrest⟩
          · rcases visit_error hvisit with hex | ⟨hx, next, hexpand, hbelow⟩
            · rw [henter x] at hex
              cases hex
            have hxlog : x ∉ nodes log := mt List.mem_toFinset.mpr hx
            have hsub := explore_subset (S := S) (room + 1) todo
              (S.explore room next ((x, room) :: log))
            simp only [arrive, if_neg hxlog, hexpand]
            rcases hbelow with hdescend | ⟨_, _, hleave⟩
            · rw [← nodes_cons_toFinset x room] at hdescend
              obtain ⟨y, hy, hylog, hleave⟩ := ihroom hdescend
              refine ⟨y, nodes_mono hsub hy, fun hmem => hylog ?_, hleave⟩
              exact nodes_mono (List.subset_cons_self _ _) hmem
            · refine ⟨x, nodes_mono hsub ?_, hxlog, hleave⟩
              exact mem_nodes.mpr ⟨room, explore_subset room next _ (by simp)⟩
          · -- the first iteration ran to its end, so the log caught up with it
            have hsingle : S.walk (room + 1) [x] (nodes log).toFinset = .ok V₁ := by
              rwa [walk_singleton]
            obtain ⟨hV₁, _⟩ := walk_ok_explore hcut hsingle
            rw [hV₁] at hrest
            obtain ⟨y, hy, hylog, hleave⟩ := ihtodo hrest
            refine ⟨y, hy, fun hmem => hylog ?_, hleave⟩
            exact nodes_mono (explore_subset ..) hmem

/-! ## Searching below one node

The search marks its origin as visited and walks the origin's successors with
all `cap` levels left.
-/

variable (S) in
/-- The arrival log of a search below `origin`. -/
def arrivals (cap : Nat) (origin : α) : List (α × Nat) :=
  S.explore cap ((S.expand origin).getD []) [(origin, cap)]

variable (S) in
/-- `x` is first met at the last level, so its successors are not walked. -/
def Late (cap : Nat) (origin x : α) : Prop :=
  (x, 0) ∈ S.arrivals cap origin

instance (cap : Nat) (origin x : α) : Decidable (S.Late cap origin x) :=
  inferInstanceAs (Decidable (_ ∈ _))

variable (S) in
/-- An edge whose source is not met late. -/
def TimelyEdge (cap : Nat) (origin x y : α) : Prop :=
  S.Edge x y ∧ ¬ S.Late cap origin x

/-- Only the successors matter for the log. -/
theorem timelyEdge_congr {γ : Type*} {T : Search α γ} (hexpand : S.expand = T.expand)
    (cap : Nat) (origin : α) : S.TimelyEdge cap origin = T.TimelyEdge cap origin := by
  have hexplore : ∀ room todo log, S.explore room todo log = T.explore room todo log := by
    intro room
    induction room with
    | zero => exact fun _ _ => rfl
    | succ room ih =>
        intro todo log
        have harrive : S.arrive (S.explore room) room = T.arrive (T.explore room) room := by
          funext log x
          simp only [arrive, hexpand, ih]
        simp only [explore, harrive]
  funext x y
  simp only [TimelyEdge, Edge, Late, arrivals, hexpand, hexplore]

theorem arrivals_nodup (cap : Nat) (origin : α) : (nodes (S.arrivals cap origin)).Nodup :=
  explore_nodup _ _ _ (by simp [nodes])

theorem OpenEdge.timely {cap : Nat} {origin x y : α}
    (h : S.OpenEdge (S.arrivals cap origin) x y) : S.TimelyEdge cap origin x y := by
  obtain ⟨hxy, r, hr⟩ := h
  refine ⟨hxy, fun hlate => ?_⟩
  have := room_unique (arrivals_nodup cap origin) hr hlate
  omega

theorem origin_mem_arrivals (cap : Nat) (origin : α) :
    origin ∈ nodes (S.arrivals cap origin) :=
  mem_nodes.mpr ⟨cap, explore_subset _ _ _ (by simp)⟩

/-- A timely edge leads from a logged node to a logged node. -/
theorem TimelyEdge.mem_arrivals {cap : Nat} {origin x y : α} (hcap : 0 < cap)
    (hxy : S.TimelyEdge cap origin x y) (hx : x ∈ nodes (S.arrivals cap origin)) :
    y ∈ nodes (S.arrivals cap origin) := by
  obtain ⟨hedge, hlate⟩ := hxy
  have hlogged := S.explore_logged cap ((S.expand origin).getD []) [(origin, cap)]
  obtain ⟨r, hr⟩ := mem_nodes.mp hx
  cases r with
  | zero => exact absurd hr hlate
  | succ r =>
      by_cases horigin : (x, r + 1) ∈ [(origin, cap)]
      · obtain ⟨rfl, _⟩ := Prod.mk.inj (List.mem_singleton.mp horigin)
        obtain ⟨next, hnext, hy⟩ := hedge
        exact hlogged.mem hcap y (by simpa [hnext] using hy)
      · exact hlogged.closed x r hr horigin y hedge

theorem path_mem_arrivals {cap n : Nat} {origin x y : α} (hcap : 0 < cap)
    (hx : x ∈ nodes (S.arrivals cap origin))
    (hpath : Path (S.TimelyEdge cap origin) n x y) :
    y ∈ nodes (S.arrivals cap origin) := by
  induction n generalizing x with
  | zero => exact hpath ▸ hx
  | succ n ih =>
      obtain ⟨z, hxz, hzy⟩ := hpath
      exact ih (hxz.mem_arrivals hcap hx) hzy

/-- A logged node other than the origin is at the end of a path of timely edges
under the cap. -/
theorem path_of_mem_arrivals {cap : Nat} {origin x : α} (hcap : 0 < cap)
    (hx : x ∈ nodes (S.arrivals cap origin)) (hne : x ≠ origin) :
    ∃ n, n ≤ cap ∧ Path (S.TimelyEdge cap origin) n origin x := by
  obtain ⟨r, hr⟩ := mem_nodes.mp hx
  have hnew : (x, r) ∉ [(origin, cap)] := by
    simp [hne]
  obtain ⟨t, ht, n, hn, hpath⟩ := explore_open_path _ _ _ x r hr hnew
  obtain ⟨next, hnext, htnext⟩ : ∃ next, S.expand origin = some next ∧ t ∈ next := by
    rcases hexpand : S.expand origin with _ | next
    · simp [hexpand] at ht
    · exact ⟨next, rfl, by simpa [hexpand] using ht⟩
  have hfirst : S.OpenEdge (S.arrivals cap origin) origin t := by
    refine ⟨⟨next, hnext, htnext⟩, cap - 1, ?_⟩
    rw [Nat.sub_add_cancel hcap]
    exact explore_subset _ _ _ (by simp)
  refine ⟨n + 1, by omega, t, hfirst.timely, ?_⟩
  exact hpath.mono fun _ _ => OpenEdge.timely

/-- What the search below `origin` finds: it ends early exactly when some other
node that is an exit on leaving can be reached by timely edges under the cap. -/
theorem walk_error_iff_timely {cap : Nat} (origin : α) (hcap : 0 < cap)
    (henter : ∀ x, S.enter x = none) (hcut : S.cut = none)
    (hexpand : ∀ x, S.expand x ≠ none) :
    (∃ b, S.walk cap ((S.expand origin).getD []) {origin} = .error b) ↔
      ∃ x, x ≠ origin ∧ S.leave x ≠ none ∧
        ∃ n, n ≤ cap ∧ Path (S.TimelyEdge cap origin) n origin x := by
  have horigin : ({origin} : Finset α) = (nodes [(origin, cap)]).toFinset := rfl
  constructor
  · rintro ⟨b, hwalk⟩
    rw [horigin] at hwalk
    obtain ⟨x, hx, hxlog, hleave⟩ := walk_error_explore henter hcut hwalk
    have hne : x ≠ origin := by
      simpa [nodes] using hxlog
    exact ⟨x, hne, by simp [hleave], path_of_mem_arrivals hcap hx hne⟩
  · rintro ⟨x, hne, hleave, n, _, hpath⟩
    rcases hwalk : S.walk cap ((S.expand origin).getD []) {origin} with b | V'
    · exact ⟨b, rfl⟩
    · rw [horigin] at hwalk
      have hx := path_mem_arrivals hcap (S.origin_mem_arrivals cap origin) hpath
      obtain ⟨next, hnext⟩ := Option.ne_none_iff_exists'.mp (hexpand x)
      exact absurd ((walk_ok_explore hcut hwalk).2 x hx (by simpa [nodes] using hne) next hnext)
        hleave

end SyntheticsOperator.Support.Search
