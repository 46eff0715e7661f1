import SyntheticsOperator.Support.CappedSearch

/-!
# First paths

A depth-first search reaches a node along its first path: of the paths to it that repeat no
node, the one that takes, where it parts from any other, the successor that is listed
earlier.  The visited set hides every other path from the search, so a cap on its depth
bounds exactly the first paths; `walk_eq_ok_iff` says so.
-/

namespace SyntheticsOperator.Support.FirstPaths

variable {α : Type*} [DecidableEq α] (next : α → List α)

/-- The nodes of a path that begins in `todo`. -/
def Trail : List α → List α → Prop
  | _, [] => True
  | todo, x :: l => x ∈ todo ∧ Trail (next x) l

/-- Where the two paths part, the first takes a successor that is listed earlier. -/
def Before : List α → List α → List α → Prop
  | todo, x :: l, y :: l' =>
      if x = y then Before (next x) l l' else todo.idxOf x < todo.idxOf y
  | _, _, _ => False

/-- The path repeats no node, and no such path to the same node is before it. -/
structure First (todo l : List α) : Prop where
  trail : Trail next todo l
  nodup : l.Nodup
  least : ∀ l', Trail next todo l' → l'.Nodup → l'.getLast? = l.getLast? →
    ¬ Before next todo l' l

variable {next} {todo l l' : List α}

/-- Of two different paths to one node, one is before the other. -/
theorem before_or_before (h : Trail next todo l) (h' : Trail next todo l') (hnodup : l.Nodup)
    (hnodup' : l'.Nodup) (hlast : l'.getLast? = l.getLast?) (hne : l' ≠ l) :
    Before next todo l' l ∨ Before next todo l l' := by
  induction l generalizing todo l' with
  | nil => exact absurd (List.getLast?_eq_none_iff.mp hlast) hne
  | cons x l ih =>
      cases l' with
      | nil => exact absurd (List.getLast?_eq_none_iff.mp hlast.symm) (List.cons_ne_nil x l)
      | cons y l' =>
          by_cases heq : y = x
          · subst heq
            rw [Before, Before, if_pos rfl, if_pos rfl]
            rw [List.nodup_cons] at hnodup hnodup'
            cases l with
            | nil =>
                -- the other path would come back to `y`
                cases l' with
                | nil => exact absurd rfl hne
                | cons z l' =>
                    rw [List.getLast?_cons_cons, List.getLast?_singleton] at hlast
                    exact absurd (List.mem_of_getLast? hlast) hnodup'.1
            | cons z l =>
                cases l' with
                | nil =>
                    rw [List.getLast?_cons_cons, List.getLast?_singleton] at hlast
                    exact absurd (List.mem_of_getLast? hlast.symm) hnodup.1
                | cons z' l' =>
                    rw [List.getLast?_cons_cons, List.getLast?_cons_cons] at hlast
                    exact ih h.2 h'.2 hnodup.2 hnodup'.2 hlast fun hcons => hne (by rw [hcons])
          · rw [Before, Before, if_neg heq, if_neg (Ne.symm heq)]
            have hidx : todo.idxOf y ≠ todo.idxOf x := fun hidx =>
              heq ((List.idxOf_inj h'.1).mp hidx)
            omega

theorem First.unique (h : First next todo l) (h' : First next todo l')
    (hlast : l'.getLast? = l.getLast?) : l' = l := by
  by_contra hne
  rcases before_or_before h.trail h'.trail h.nodup h'.nodup hlast hne with hbefore | hbefore
  · exact h.least l' h'.trail h'.nodup hlast hbefore
  · exact h'.least l h.trail h.nodup hlast.symm hbefore

/-! ## The path of a search -/

/-- A search that is below the nodes `above` has entered the nodes of the list one after the
other.  When it entered `x`, what it had seen held all that is listed before `x`, and was
closed but for `above`; the rest of the path was not yet seen. -/
def Entered (next : α → List α) : Set α → List α → List α → Prop
  | _, _, [] => True
  | above, todo, x :: l =>
      x ∈ todo ∧
      (∃ seen : Set α, (∀ y ∈ todo, todo.idxOf y < todo.idxOf x → y ∈ seen) ∧
        (∀ z ∈ seen, z ∈ above ∨ ∀ w ∈ next z, w ∈ seen) ∧ ∀ y ∈ x :: l, y ∉ seen) ∧
      Entered next (insert x above) (next x) l

theorem Entered.trail {above : Set α} (h : Entered next above todo l) : Trail next todo l := by
  induction l generalizing above todo with
  | nil => trivial
  | cons x l ih => exact ⟨h.1, ih h.2.2⟩

omit [DecidableEq α] in
/-- A path that starts in a closed set stays there. -/
theorem Trail.mem_of_closed {above seen : Set α} {q : α} {r : List α}
    (hclosed : ∀ z ∈ seen, z ∈ above ∨ ∀ w ∈ next z, w ∈ seen) (hq : q ∈ seen)
    (habove : ∀ y ∈ q :: r, y ∉ above) (h : Trail next (next q) r) : ∀ y ∈ q :: r, y ∈ seen := by
  induction r generalizing q with
  | nil =>
      intro y hy
      rw [List.mem_singleton.mp hy]
      exact hq
  | cons w r ih =>
      have hnext : ∀ w ∈ next q, w ∈ seen :=
        (hclosed q hq).resolve_left (habove q List.mem_cons_self)
      intro y hy
      rcases List.mem_cons.mp hy with rfl | hy
      · exact hq
      · exact ih (hnext w h.1) (fun y hy => habove y (List.mem_cons_of_mem _ hy)) h.2 y hy

/-- No path to the same node is before the one that a search has entered. -/
theorem Entered.least {above : Set α} (h : Entered next above todo l)
    (h' : Trail next todo l') (hnodup : l'.Nodup) (habove : ∀ y ∈ l', y ∉ above)
    (hlast : l'.getLast? = l.getLast?) : ¬ Before next todo l' l := by
  induction l generalizing above todo l' with
  | nil =>
      cases l' <;> exact id
  | cons x l ih =>
      cases l' with
      | nil => exact id
      | cons q r =>
          obtain ⟨_, ⟨seen, hearlier, hclosed, hunseen⟩, hrest⟩ := h
          rw [Before]
          split
          · rename_i heq
            subst heq
            rw [List.nodup_cons] at hnodup
            cases r with
            | nil =>
                cases l <;> exact id
            | cons w r =>
                cases l with
                | nil => exact id
                | cons z l =>
                    rw [List.getLast?_cons_cons, List.getLast?_cons_cons] at hlast
                    apply ih hrest h'.2 hnodup.2 ?_ hlast
                    intro y hy hyabove
                    rcases hyabove with rfl | hyabove
                    · exact hnodup.1 hy
                    · exact habove y (List.mem_cons_of_mem _ hy) hyabove
          · -- the other path starts in what was seen, and ends outside of it
            intro hlt
            have hstays := Trail.mem_of_closed hclosed (hearlier q h'.1 hlt) habove h'.2
            obtain ⟨y, hy⟩ : ∃ y, (q :: r).getLast? = some y :=
              ⟨_, List.getLast?_eq_getLast_of_ne_nil (List.cons_ne_nil q r)⟩
            exact hunseen y (List.mem_of_getLast? (hlast ▸ hy))
              (hstays y (List.mem_of_getLast? hy))

/-! ## The search -/

section Search

variable {β : Type*} {S : Search α β}

/-- The successors of a node, none for a leaf. -/
def succs (S : Search α β) (x : α) : List α := (S.expand x).getD []

omit [DecidableEq α] in
theorem succs_eq {x : α} {next : List α} (h : S.expand x = some next) : succs S x = next := by
  rw [succs, h, Option.getD_some]

omit [DecidableEq α] in
theorem edge_of_mem_succs {x y : α} (h : y ∈ succs S x) : S.Edge x y := by
  cases hexpand : S.expand x with
  | none => simp [succs, hexpand] at h
  | some next => exact ⟨next, hexpand, succs_eq hexpand ▸ h⟩

/-- A search below the nodes `above`, with the visited set `V`, can enter these nodes. -/
structure Found (S : Search α β) (above : Set α) (todo : List α) (V : Finset α) (l : List α) :
    Prop where
  entered : Entered (succs S) above todo l
  nodup : l.Nodup
  unseen : ∀ y ∈ l, y ∉ V

variable {above : Set α} {before rest : List α} {V V' : Finset α} {x : α}

theorem Found.mono (h : Found S above todo V' l) (hV : V ⊆ V') : Found S above todo V l :=
  ⟨h.entered, h.nodup, fun y hy hyV => h.unseen y hy (hV hyV)⟩

/-- The search enters a new node, after all that is listed before it, and goes on below. -/
theorem Found.cons (hbefore : ∀ y ∈ before, y ∈ V) (hx : x ∉ V)
    (hV : ∀ z ∈ V, z ∈ above ∨ S.Settled V z)
    (h : Found S (insert x above) (succs S x) (insert x V) l) :
    Found S above (before ++ x :: rest) V (x :: l) := by
  have hunseen : ∀ y ∈ x :: l, y ∉ V := by
    intro y hy
    rcases List.mem_cons.mp hy with rfl | hy
    · exact hx
    · exact fun hyV => h.unseen y hy (Finset.mem_insert_of_mem hyV)
  refine ⟨⟨by simp, ⟨V, ?_, ?_, hunseen⟩, h.entered⟩, ?_, hunseen⟩
  · intro y _ hlt
    by_contra hy
    have hxidx : (before ++ x :: rest).idxOf x = before.length := by
      rw [List.idxOf_append_of_notMem fun hmem => hx (hbefore x hmem), List.idxOf_cons_self,
        Nat.add_zero]
    rw [hxidx, List.idxOf_append_of_notMem fun hmem => hy (hbefore y hmem)] at hlt
    omega
  · intro z hz
    refine (hV z hz).imp_right fun hsettled w hw => ?_
    obtain ⟨next, hexpand, hw⟩ := edge_of_mem_succs hw
    exact (hsettled next hexpand).2 w hw
  · refine List.nodup_cons.mpr ⟨fun hmem => ?_, h.nodup⟩
    exact h.unseen x hmem (Finset.mem_insert_self x V)

theorem Found.nil : Found S above todo V [] := ⟨trivial, List.nodup_nil, by simp⟩

omit [DecidableEq α] in
theorem seen_snoc (hcovers : S.Covers [x] V V') (hbefore : ∀ y ∈ before, y ∈ V) :
    ∀ y ∈ before ++ [x], y ∈ V' := by
  intro y hy
  rcases List.mem_append.mp hy with hy | hy
  · exact hcovers.grows (hbefore y hy)
  · exact hcovers.mem y hy

theorem Found.later (hcovers : S.Covers [x] V V') (h : Found S above (before ++ [x] ++ rest) V' l) :
    Found S above (before ++ x :: rest) V l := by
  rw [List.append_assoc, List.singleton_append] at h
  exact h.mono hcovers.grows

theorem walk_zero_ne_ok (hcut : S.cut ≠ none) : S.walk 0 todo V ≠ .ok V' := by
  intro h
  rw [Search.walk_zero] at h
  split at h
  · cases h
  · rename_i hnone
    exact hcut hnone

/-- A search that is cut has entered a path as long as it had room, to a node with
successors. -/
theorem exists_found_of_error (before : List α) {room : Nat} {b : β} (hcut : S.cut ≠ none)
    (hleave : ∀ x, S.leave x = none)
    (henter : ∀ t ∈ rest, ∀ x, Relation.ReflTransGen S.Edge t x → S.enter x = none)
    (hbefore : ∀ y ∈ before, y ∈ V) (hV : ∀ z ∈ V, z ∈ above ∨ S.Settled V z)
    (h : S.walk room rest V = .error b) :
    ∃ l, Found S above (before ++ rest) V l ∧ l.length = room ∧
      ∀ y ∈ l.getLast?, S.expand y ≠ none := by
  induction room generalizing above before rest V with
  | zero => exact ⟨[], .nil, rfl, by simp⟩
  | succ room ihroom =>
      induction rest generalizing before V with
      | nil => cases h
      | cons x rest ihrest =>
          have hx : S.enter x = none := henter x List.mem_cons_self x .refl
          rcases Search.walk_cons_error h with hvisit | ⟨V₁, hvisit, hrest⟩
          · rcases Search.visit_error hvisit with hexit | ⟨hnew, next, hexpand, hbelow⟩
            · rw [hx] at hexit
              cases hexit
            · have hdescend : S.walk room next (insert x V) = .error b := by
                rcases hbelow with hdescend | ⟨_, _, hexit⟩
                · exact hdescend
                · rw [hleave x] at hexit
                  cases hexit
              have henter' : ∀ t ∈ next, ∀ y, Relation.ReflTransGen S.Edge t y →
                  S.enter y = none := fun t ht y hty =>
                henter x List.mem_cons_self y (.head ⟨next, hexpand, ht⟩ hty)
              obtain ⟨l, hfound, hlength, hlast⟩ := ihroom [] henter' (by simp)
                (Search.open_or_settled_insert x hV) hdescend
              rw [← succs_eq hexpand] at hfound
              refine ⟨x :: l, .cons hbefore hnew hV hfound, by simp [hlength], ?_⟩
              cases l with
              | nil =>
                  intro y hy
                  cases hy
                  simp [hexpand]
              | cons z l =>
                  rw [List.getLast?_cons_cons]
                  exact hlast
          · have hcovers : S.Covers [x] V V₁ :=
              Search.walk_covers (.inl hcut) (by rw [Search.walk_singleton]; exact hvisit)
            obtain ⟨l, hfound, hrest'⟩ := ihrest (before ++ [x])
              (fun t ht => henter t (List.mem_cons_of_mem x ht)) (seen_snoc hcovers hbefore)
              (hcovers.open_or_settled hV) hrest
            exact ⟨l, .later hcovers hfound, hrest'⟩

/-- A search that runs to its end has entered a path to every node it has visited, with room
left below a node with successors. -/
theorem exists_found_of_ok (before : List α) {room : Nat} (hcut : S.cut ≠ none)
    (hbefore : ∀ y ∈ before, y ∈ V) (hV : ∀ z ∈ V, z ∈ above ∨ S.Settled V z)
    (h : S.walk room rest V = .ok V') {y : α} (hy : y ∈ V') (hnew : y ∉ V) :
    ∃ l, Found S above (before ++ rest) V l ∧ l.getLast? = some y ∧
      (S.expand y ≠ none → l.length < room) := by
  induction room generalizing above before rest V V' with
  | zero => exact absurd h (walk_zero_ne_ok hcut)
  | succ room ihroom =>
      induction rest generalizing before V with
      | nil =>
          cases h
          exact absurd hy hnew
      | cons x rest ihrest =>
          obtain ⟨V₁, hvisit, hrest⟩ := Search.walk_cons_ok h
          have hcovers : S.Covers [x] V V₁ :=
            Search.walk_covers (.inl hcut) (by rw [Search.walk_singleton]; exact hvisit)
          by_cases hy₁ : y ∈ V₁
          · -- `y` was met at `x` or below it
            have hself (hx : x ∉ V) : Found S above (before ++ x :: rest) V [x] :=
              .cons hbefore hx hV .nil
            obtain ⟨_, ⟨_, rfl⟩ | ⟨hx, hexpand, rfl⟩ | ⟨hx, next, hexpand, hdescend, _⟩⟩ :=
              Search.visit_ok hvisit
            · exact absurd hy₁ hnew
            · obtain rfl : y = x := (Finset.mem_insert.mp hy₁).resolve_right hnew
              exact ⟨[y], hself hx, rfl, fun hne => absurd hexpand hne⟩
            · by_cases heq : y = x
              · subst heq
                refine ⟨[y], hself hx, rfl, fun _ => ?_⟩
                cases room with
                | zero => exact absurd hdescend (walk_zero_ne_ok hcut)
                | succ room => simp
              · have hnew' : y ∉ insert x V := by simp [heq, hnew]
                obtain ⟨l, hfound, hlast, hroom⟩ := ihroom [] (by simp)
                  (Search.open_or_settled_insert x hV) hdescend hy₁ hnew'
                rw [← succs_eq hexpand] at hfound
                refine ⟨x :: l, .cons hbefore hx hV hfound, ?_, fun hne => ?_⟩
                · cases l with
                  | nil => cases hlast
                  | cons z l =>
                      rw [List.getLast?_cons_cons]
                      exact hlast
                · rw [List.length_cons]
                  exact Nat.succ_lt_succ (hroom hne)
          · obtain ⟨l, hfound, hrest'⟩ := ihrest (before ++ [x]) (seen_snoc hcovers hbefore)
              (hcovers.open_or_settled hV) hrest hy₁
            exact ⟨l, .later hcovers hfound, hrest'⟩

theorem Found.first (h : Found S ∅ todo V l) : First (succs S) todo l :=
  ⟨h.entered.trail, h.nodup, fun _ h' hnodup => h.entered.least h' hnodup (by simp)⟩

omit [DecidableEq α] in
theorem Trail.mem_of_covers (hcovers : S.Covers todo ∅ V') (h : Trail (succs S) rest l)
    (hrest : ∀ y ∈ rest, y ∈ V') : ∀ y ∈ l, y ∈ V' := by
  induction l generalizing rest with
  | nil => simp
  | cons x l ih =>
      have hx : x ∈ V' := hrest x h.1
      have hnext : ∀ y ∈ succs S x, y ∈ V' := by
        intro y hy
        obtain ⟨next, hexpand, hy⟩ := edge_of_mem_succs hy
        exact ((hcovers.closed x hx (by simp) next hexpand).2 y hy).1
      intro y hy
      rcases List.mem_cons.mp hy with rfl | hy
      · exact hx
      · exact ih h.2 hnext y hy

/-- A search that can only end at its cap ends there unless every first path to a node with
successors is shorter than the cap. -/
theorem walk_eq_ok_iff (room : Nat) (hcut : S.cut ≠ none) (hleave : ∀ x, S.leave x = none)
    (henter : ∀ t ∈ todo, ∀ x, Relation.ReflTransGen S.Edge t x → S.enter x = none) :
    (∃ V', S.walk (room + 1) todo ∅ = .ok V') ↔
      ∀ l, First (succs S) todo l → (∃ y ∈ l.getLast?, S.expand y ≠ none) →
        l.length < room + 1 := by
  have hstart : ∀ z ∈ (∅ : Finset α), z ∈ (∅ : Set α) ∨ S.Settled ∅ z := by simp
  constructor
  · intro hok l hfirst hlast
    obtain ⟨V', hwalk⟩ := hok
    obtain ⟨y, hy, hexpand⟩ := hlast
    have hcovers : S.Covers todo ∅ V' := Search.walk_covers (.inl hcut) hwalk
    have hyV : y ∈ V' :=
      hfirst.trail.mem_of_covers hcovers hcovers.mem y (List.mem_of_getLast? hy)
    obtain ⟨l', hfound, hlast', hroom⟩ :=
      exists_found_of_ok [] hcut (by simp) hstart hwalk hyV (by simp)
    have heq : l = l' := Found.first hfound |>.unique hfirst (hy.trans hlast'.symm)
    rw [heq]
    exact hroom hexpand
  · intro hshort
    cases hwalk : S.walk (room + 1) todo ∅ with
    | ok V' => exact ⟨V', rfl⟩
    | error b =>
        obtain ⟨l, hfound, hlength, hlast⟩ :=
          exists_found_of_error [] hcut hleave henter (by simp) hstart hwalk
        have hne : l ≠ [] := by
          intro hnil
          rw [hnil] at hlength
          cases hlength
        have hlt := hshort l (Found.first hfound)
          ⟨l.getLast hne, List.getLast?_eq_getLast_of_ne_nil hne,
            hlast _ (List.getLast?_eq_getLast_of_ne_nil hne)⟩
        omega

end Search

end SyntheticsOperator.Support.FirstPaths
