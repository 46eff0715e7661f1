import Mathlib.Data.List.Infix

/-!
# Histories

A history is a list that grows at its end.  `lastSome` is the last thing a
history says about a subject; `forall_prefix_of` and `forall_prefix_iff` turn
what one more element does to a property into what holds at every prefix.
-/

namespace SyntheticsOperator.Support.Histories

variable {α β : Type*}

/-- The last value `f` takes along a history. -/
def lastSome (f : α → Option β) (h : List α) : Option β :=
  (h.filterMap f).getLast?

@[simp] theorem lastSome_snoc (f : α → Option β) (h : List α) (m : α) :
    lastSome f (h ++ [m]) = (f m).or (lastSome f h) := by
  rcases hm : f m with _ | b <;> simp [lastSome, List.filterMap_append, hm]

theorem lastSome_cons (f : α → Option β) (m : α) (h : List α) :
    lastSome f (m :: h) = (lastSome f h).or (f m) := by
  rcases hm : f m with _ | b
  · simp [lastSome, hm]
  · simp [lastSome, hm, List.getLast?_cons, Option.or_some]

theorem lastSome_append (f : α → Option β) (h h' : List α) :
    lastSome f (h ++ h') = (lastSome f h').or (lastSome f h) := by
  rw [lastSome, List.filterMap_append, List.getLast?_append]
  rfl

theorem lastSome_eq_none {f : α → Option β} {h : List α} :
    lastSome f h = none ↔ ∀ m ∈ h, f m = none := by
  rw [lastSome, List.getLast?_eq_none_iff, List.filterMap_eq_nil_iff]

theorem exists_of_lastSome_eq_some {f : α → Option β} {h : List α} {b : β}
    (hb : lastSome f h = some b) : ∃ m ∈ h, f m = some b :=
  List.mem_filterMap.mp (List.mem_of_getLast? hb)

theorem exists_lastSome_eq_some {f : α → Option β} {h : List α} {m : α} {b : β} (hm : m ∈ h)
    (hb : f m = some b) : ∃ b', lastSome f h = some b' := by
  rw [← Option.ne_none_iff_exists']
  intro hnone
  rw [lastSome_eq_none.mp hnone m hm] at hb
  cases hb

/-- Where all that a history says agrees, its order plays no part. -/
theorem lastSome_eq_some_iff_of_agree {f : α → Option β} {h : List α}
    (hagree : ∀ m ∈ h, ∀ m' ∈ h, ∀ b b', f m = some b → f m' = some b' → b = b') (b : β) :
    lastSome f h = some b ↔ ∃ m ∈ h, f m = some b := by
  refine ⟨exists_of_lastSome_eq_some, ?_⟩
  rintro ⟨m, hm, hb⟩
  obtain ⟨b', hlast⟩ := exists_lastSome_eq_some hm hb
  obtain ⟨m', hm', hb'⟩ := exists_of_lastSome_eq_some hlast
  rw [hlast, hagree m hm m' hm' b b' hb hb']

/-- A property of histories that every step keeps where `Q` holds. -/
theorem forall_prefix_of {P : List α → Prop} {Q : List α → α → Prop} {h : List α}
    (hnil : P []) (hsnoc : ∀ p m, P p → Q p m → P (p ++ [m]))
    (hQ : ∀ p m, p ++ [m] <+: h → Q p m) : ∀ p, p <+: h → P p := by
  intro p
  induction p using List.reverseRecOn with
  | nil => exact fun _ => hnil
  | append_singleton p m ih =>
      intro hpm
      have hp : p <+: h := (List.prefix_append p [m]).trans hpm
      exact hsnoc p m (ih hp) (hQ p m hpm)

theorem forall_step_of_take {Q : List α → α → Prop} {h : List α}
    (hQ : ∀ i, (hi : i < h.length) → Q (h.take i) h[i]) : ∀ p m, p ++ [m] <+: h → Q p m := by
  rintro p m ⟨t, rfl⟩
  simpa using hQ p.length (by simp)

/-- If a property of histories survives one more element exactly when `Q`
holds there, it holds at every prefix exactly when `Q` holds at every step. -/
theorem forall_prefix_iff {P : List α → Prop} {Q : List α → α → Prop}
    (hnil : P []) (hsnoc : ∀ p m, P p → (P (p ++ [m]) ↔ Q p m)) (h : List α) :
    (∀ p, p <+: h → P p) ↔ ∀ p m, p ++ [m] <+: h → Q p m := by
  refine ⟨fun hP p m hpm => ?_, forall_prefix_of hnil fun p m hp => (hsnoc p m hp).mpr⟩
  have hp : p <+: h := (List.prefix_append p [m]).trans hpm
  exact (hsnoc p m (hP p hp)).mp (hP (p ++ [m]) hpm)

end SyntheticsOperator.Support.Histories
