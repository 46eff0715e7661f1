import Mathlib.Data.List.Forall2
import Mathlib.Data.List.Infix

/-!
# Writers that send merge patches

A record has fields; a merge patch sets those in which a modified copy differs from the
original it was made from.  Several writers share one stored record: each reads a version
of it, perhaps an old one, modifies its copy and sends the patch, and nothing compares
versions.

`run_silence` is what makes this safe: when every field has one owner and no writer changes
a field of another, the fields of a group of writers that read nothing outside the group
come out as if the others had not written at all.
-/

namespace SyntheticsOperator.Support.MergePatch

variable {F : Type} {V : F → Type}

abbrev Patch (V : F → Type) : Type := ∀ f, Option (V f)

def diff [∀ f, DecidableEq (V f)] (original modified : ∀ f, V f) : Patch V := fun f =>
  if original f = modified f then none else some (modified f)

def apply (patch : Patch V) (stored : ∀ f, V f) : ∀ f, V f := fun f => (patch f).getD (stored f)

section Diff

variable [∀ f, DecidableEq (V f)] {original modified stored : ∀ f, V f} {f : F}

theorem apply_diff_of_eq (h : modified f = original f) :
    apply (diff original modified) stored f = stored f := by
  simp [apply, diff, h]

theorem apply_diff_of_current (h : stored f = original f) :
    apply (diff original modified) stored f = modified f := by
  unfold apply diff
  split
  · rename_i heq
    exact h.trans heq
  · rfl

end Diff

/-! ## Writers -/

/-- The writers of a record: what each of them makes of a version it has read, in a state of
its own.  `none` is no write, or one that fails. -/
structure Writers (V : F → Type) (W : Type) where
  State : W → Type
  Op : W → Type
  owner : F → W
  reads : W → F → Prop
  act : (w : W) → State w → Op w → (∀ f, V f) → State w × Option (∀ f, V f)
  owned : ∀ f, reads (owner f) f
  frame : ∀ w s op seen new, (act w s op seen).2 = some new → ∀ f, owner f ≠ w → new f = seen f
  congr : ∀ w s op seen seen', (∀ f, reads w f → seen f = seen' f) →
    (act w s op seen).1 = (act w s op seen').1 ∧
      Option.Rel (fun new new' => ∀ f, owner f = w → new f = new' f) (act w s op seen).2
        (act w s op seen').2

variable {W : Type} (ws : Writers V W)

/-- The stored record with all its past versions, the newest first. -/
structure Store where
  current : ∀ f, V f
  past : List (∀ f, V f)
  states : ∀ w, ws.State w

/-- A writer acts on the version of some age, or nothing happens for one instant. -/
inductive Event where
  | write (w : W) (op : ws.Op w) (age : Nat)
  | quiet

variable {ws}

namespace Store

/-- A version, the oldest one at most. -/
def read (s : Store ws) (age : Nat) : ∀ f, V f := (s.current :: s.past).getD age s.current

variable [∀ f, DecidableEq (V f)] [DecidableEq W]

def step (s : Store ws) : Event ws → Store ws
  | .write w op age =>
      let seen := s.read age
      let (state, new) := ws.act w (s.states w) op seen
      { current :=
          match new with
          | none => s.current
          | some new => apply (diff seen new) s.current
        past := s.current :: s.past
        states := Function.update s.states w state }
  | .quiet => { s with past := s.current :: s.past }

def run (s : Store ws) (events : List (Event ws)) : Store ws := events.foldl step s

theorem run_snoc (s : Store ws) (events : List (Event ws)) (e : Event ws) :
    s.run (events ++ [e]) = (s.run events).step e := by
  simp [run]

end Store

/-! ## A group of writers -/

section Group

variable (D : W → Prop)

/-- The event, if it is one of the group. -/
def silence [DecidablePred D] : Event ws → Event ws
  | .write w op age => if D w then .write w op age else .quiet
  | .quiet => .quiet

variable (ws) in
/-- Two versions have the same fields of the group. -/
def SameFields (r r' : ∀ f, V f) : Prop := ∀ f, D (ws.owner f) → r f = r' f

structure Agree (s s' : Store ws) : Prop where
  current : SameFields ws D s.current s'.current
  past : List.Forall₂ (SameFields ws D) s.past s'.past
  states : ∀ w, D w → s.states w = s'.states w

variable {D} {s s' : Store ws}

theorem getD_forall₂ {R : (∀ f, V f) → (∀ f, V f) → Prop} {l l' : List (∀ f, V f)}
    {d d' : ∀ f, V f} (h : List.Forall₂ R l l') (hd : R d d') (n : Nat) :
    R (l.getD n d) (l'.getD n d') := by
  induction h generalizing n with
  | nil => exact hd
  | cons hab _ ih =>
      cases n with
      | zero => exact hab
      | succ n => exact ih n

theorem Agree.read (h : Agree D s s') (age : Nat) :
    SameFields ws D (s.read age) (s'.read age) :=
  getD_forall₂ (.cons h.current h.past) h.current age

variable [∀ f, DecidableEq (V f)]

/-- The same patch, as far as the fields of the group go. -/
theorem sameFields_apply {w : W} {seen seen' new new' current current' : ∀ f, V f}
    (hseen : SameFields ws D seen seen') (hnew : ∀ f, ws.owner f = w → new f = new' f)
    (hframe : ∀ f, ws.owner f ≠ w → new f = seen f)
    (hframe' : ∀ f, ws.owner f ≠ w → new' f = seen' f)
    (hcurrent : SameFields ws D current current') :
    SameFields ws D (apply (diff seen new) current) (apply (diff seen' new') current') := by
  intro f hf
  have hsame : new f = new' f := by
    by_cases hw : ws.owner f = w
    · exact hnew f hw
    · rw [hframe f hw, hframe' f hw, hseen f hf]
  simp only [apply, diff, hseen f hf, hsame, hcurrent f hf]

variable [DecidableEq W]

/-- A step of the group is the same in both. -/
theorem Agree.write (h : Agree D s s') {w : W} (hw : D w) (op : ws.Op w) (age : Nat)
    (hclosed : ∀ f, ws.reads w f → D (ws.owner f)) :
    Agree D (s.step (.write w op age)) (s'.step (.write w op age)) := by
  have hseen := h.read age
  have hstate : s.states w = s'.states w := h.states w hw
  obtain ⟨hnext, hnew⟩ := ws.congr w (s.states w) op (s.read age) (s'.read age)
    fun f hf => hseen f (hclosed f hf)
  have hframe := ws.frame w (s.states w) op (s.read age)
  have hframe' := ws.frame w (s.states w) op (s'.read age)
  refine ⟨?_, .cons h.current h.past, fun w' hw' => ?_⟩
  · simp only [Store.step, ← hstate]
    cases hact : (ws.act w (s.states w) op (s.read age)).2 with
    | none =>
        cases hact' : (ws.act w (s.states w) op (s'.read age)).2 with
        | none => exact h.current
        | some new' => simp [hact, hact'] at hnew
    | some new =>
        cases hact' : (ws.act w (s.states w) op (s'.read age)).2 with
        | none => simp [hact, hact'] at hnew
        | some new' =>
            rw [hact, hact', Option.rel_some_some] at hnew
            exact sameFields_apply hseen hnew (hframe new hact) (hframe' new' hact') h.current
  · simp only [Store.step, ← hstate]
    by_cases heq : w' = w
    · subst heq
      simpa using hnext
    · simpa [heq] using h.states w' hw'

/-- A step of another writer leaves the fields of the group. -/
theorem Agree.other (h : Agree D s s') {w : W} (hw : ¬ D w) (op : ws.Op w) (age : Nat) :
    Agree D (s.step (.write w op age)) (s'.step .quiet) := by
  have hframe := ws.frame w (s.states w) op (s.read age)
  refine ⟨?_, .cons h.current h.past, fun w' hw' => ?_⟩
  · simp only [Store.step]
    cases hact : (ws.act w (s.states w) op (s.read age)).2 with
    | none => exact h.current
    | some new =>
        intro f hf
        have hne : ws.owner f ≠ w := fun heq => hw (heq ▸ hf)
        exact (apply_diff_of_eq (hframe new hact f hne)).trans (h.current f hf)
  · have hne : w' ≠ w := fun heq => hw (heq ▸ hw')
    simpa [Store.step, hne] using h.states w' hw'

variable [DecidablePred D]

theorem Agree.step (h : Agree D s s') (hclosed : ∀ w, D w → ∀ f, ws.reads w f → D (ws.owner f))
    (e : Event ws) : Agree D (s.step e) (s'.step (silence D e)) := by
  cases e with
  | quiet => exact ⟨h.current, .cons h.current h.past, h.states⟩
  | write w op age =>
      by_cases hw : D w
      · simpa only [silence, if_pos hw] using h.write hw op age (hclosed w hw)
      · simpa only [silence, if_neg hw] using h.other hw op age

/-- For every sequence of writes from reads of any age: the fields of the group, in every
version, and the states of its writers are those of the run without the other writers. -/
theorem run_silence (s : Store ws)
    (hclosed : ∀ w, D w → ∀ f, ws.reads w f → D (ws.owner f)) (events : List (Event ws)) :
    Agree D (s.run events) (s.run (events.map (silence D))) := by
  induction events using List.reverseRecOn with
  | nil =>
      refine ⟨fun _ _ => rfl, ?_, fun _ _ => rfl⟩
      exact List.forall₂_same.mpr fun _ _ _ _ => rfl
  | append_singleton events e ih =>
      rw [List.map_append, List.map_singleton, Store.run_snoc, Store.run_snoc]
      exact ih.step hclosed e

end Group

end SyntheticsOperator.Support.MergePatch
