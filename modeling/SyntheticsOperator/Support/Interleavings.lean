import Mathlib.Data.List.Basic

/-!
# Interleavings of streams

A list of events in which every event belongs to a stream is an interleaving of its
streams.  Where events of different streams commute, a fold over the list depends on the
order within each stream only (`foldl_of_sameStreams`).
-/

namespace SyntheticsOperator.Support.Interleavings

variable {α T σ : Type*} [DecidableEq T] (tag : α → T)

/-- The events of one stream, in their order. -/
def stream (t : T) (l : List α) : List α := l.filter fun a => tag a = t

/-- Two interleavings of the same streams. -/
def SameStreams (l l' : List α) : Prop := ∀ t, stream tag t l = stream tag t l'

variable {tag} {l l' : List α}

theorem SameStreams.mem_iff (h : SameStreams tag l l') (a : α) : a ∈ l ↔ a ∈ l' := by
  have hmem : ∀ l : List α, a ∈ l ↔ a ∈ stream tag (tag a) l := by simp [stream]
  rw [hmem l, hmem l', h]

/-- The first event of `l` comes before the other events of its stream in `l'` too. -/
theorem SameStreams.exists_split {a : α} (h : SameStreams tag (a :: l) l') :
    ∃ before after, l' = before ++ a :: after ∧ (∀ b ∈ before, tag b ≠ tag a) ∧
      SameStreams tag l (before ++ after) := by
  have hfirst : stream tag (tag a) l' = a :: stream tag (tag a) l := by
    rw [← h (tag a)]
    simp [stream]
  obtain ⟨before, after, rfl, hbefore, _, hafter⟩ := List.filter_eq_cons_iff.mp hfirst
  have hother : ∀ b ∈ before, tag b ≠ tag a := by simpa using hbefore
  refine ⟨before, after, rfl, hother, fun t => ?_⟩
  have hstreams := h t
  by_cases ht : tag a = t
  · subst ht
    have hnone : stream tag (tag a) before = [] := by
      simpa [stream] using hother
    simp only [stream, List.filter_append] at hnone ⊢
    rw [hnone, List.nil_append]
    exact hafter.symm
  · simpa [stream, List.filter_append, ht] using hstreams

theorem SameStreams.filter (h : SameStreams tag l l') (p : α → Bool) :
    SameStreams tag (l.filter p) (l'.filter p) := by
  intro t
  have ht := congrArg (List.filter p) (h t)
  simpa [stream, List.filter_filter, Bool.and_comm] using ht

theorem SameStreams.nil_iff (h : SameStreams tag l l') : l = [] ↔ l' = [] := by
  simp only [List.eq_nil_iff_forall_not_mem, h.mem_iff]

/-- Two interleavings that start with the same stream start with the same event. -/
theorem SameStreams.of_cons {a a' : α} (h : SameStreams tag (a :: l) (a' :: l'))
    (htag : tag a = tag a') : a = a' ∧ SameStreams tag l l' := by
  have hfirst := h (tag a)
  simp only [stream, List.filter_cons, decide_true, if_true, htag] at hfirst
  obtain rfl := (List.cons.inj hfirst).1
  refine ⟨rfl, fun t => ?_⟩
  have ht := h t
  simp only [stream, List.filter_cons] at ht ⊢
  split at ht
  · exact (List.cons.inj ht).2
  · exact ht

section Fold

variable {step : σ → α → σ} {R : σ → σ → Prop} {I : σ → Prop}

theorem foldl_related {l : List α} (hcongr : ∀ a ∈ l, ∀ s s', R s s' → R (step s a) (step s' a))
    {s s' : σ} (hs : R s s') : R (l.foldl step s) (l.foldl step s') := by
  induction l generalizing s s' with
  | nil => exact hs
  | cons a l ih =>
      exact ih (fun b hb => hcongr b (List.mem_cons_of_mem a hb))
        (hcongr a List.mem_cons_self s s' hs)

/-- An event moves to the front past events that it commutes with. -/
theorem foldl_move (hR : Equivalence R) {a : α} {before after : List α}
    (hcongr : ∀ b ∈ before ++ after, ∀ s s', R s s' → R (step s b) (step s' b))
    (hinv : ∀ b ∈ before, ∀ s, I s → I (step s b))
    (hcomm : ∀ b ∈ before, ∀ s, I s → R (step (step s b) a) (step (step s a) b)) {s : σ}
    (hs : I s) :
    R ((before ++ a :: after).foldl step s) ((a :: (before ++ after)).foldl step s) := by
  induction before generalizing s with
  | nil => exact hR.refl _
  | cons b before ih =>
      have hrest := ih (fun c hc => hcongr c (List.mem_cons_of_mem b hc))
        (fun c hc => hinv c (List.mem_cons_of_mem b hc))
        (fun c hc => hcomm c (List.mem_cons_of_mem b hc)) (hinv b List.mem_cons_self s hs)
      exact hR.trans hrest (foldl_related
        (fun c hc => hcongr c (List.mem_cons_of_mem b hc)) (hcomm b List.mem_cons_self s hs))

/-- Events of different streams have to commute where the invariant `I` holds, and only up
to `R`. -/
theorem foldl_of_sameStreams (hR : Equivalence R) (h : SameStreams tag l l')
    (hcongr : ∀ a ∈ l, ∀ s s', R s s' → R (step s a) (step s' a))
    (hinv : ∀ a ∈ l, ∀ s, I s → I (step s a))
    (hcomm : ∀ a ∈ l, ∀ b ∈ l, tag a ≠ tag b → ∀ s, I s →
      R (step (step s a) b) (step (step s b) a)) {s : σ} (hs : I s) :
    R (l.foldl step s) (l'.foldl step s) := by
  induction l generalizing l' s with
  | nil =>
      rw [h.nil_iff.mp rfl]
      exact hR.refl _
  | cons a l ih =>
      obtain ⟨before, after, rfl, hother, hrest⟩ := h.exists_split
      have hmem : ∀ b ∈ before ++ after, b ∈ a :: l := fun b hb =>
        List.mem_cons_of_mem a ((hrest.mem_iff b).mpr hb)
      have hbefore : ∀ b ∈ before, b ∈ a :: l := fun b hb =>
        hmem b (List.mem_append_left _ hb)
      have hmove := foldl_move hR (fun b hb => hcongr b (hmem b hb))
        (fun b hb => hinv b (hbefore b hb))
        (fun b hb => hcomm b (hbefore b hb) a List.mem_cons_self (hother b hb)) hs
      refine hR.trans ?_ (hR.symm hmove)
      exact ih hrest (fun b hb => hcongr b (List.mem_cons_of_mem a hb))
        (fun b hb => hinv b (List.mem_cons_of_mem a hb))
        (fun b hb c hc => hcomm b (List.mem_cons_of_mem a hb) c (List.mem_cons_of_mem a hc))
        (hinv a List.mem_cons_self s hs)

end Fold

end SyntheticsOperator.Support.Interleavings
