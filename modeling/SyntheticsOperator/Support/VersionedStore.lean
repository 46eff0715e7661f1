import Mathlib.Data.Set.Basic
import Mathlib.Order.Defs.PartialOrder
import SyntheticsOperator.Support.MapLookup

/-!
# Reads of a store whose objects come, change and go

A store holds at most one object under a key.  An object is created, its value
grows along a preorder while it lives, it is removed, and another one may be
created under the same key.  A reading is what one read of a key saw, and when.
`Coherent` says how readings of one key fit together: what the later one sees is
the object the earlier one saw, not older than it was then, or an object created
in between.
-/

namespace SyntheticsOperator.Support

/-- A value and the instant its object was created, which tells the object from
every other one under its key. -/
structure Stored (υ : Type*) where
  created : Nat
  value : υ
deriving DecidableEq

/-- `clock` counts the steps so far; `creations` is a record of the keys under
which an object was created, and when. -/
structure VersionedStore (κ υ : Type*) where
  clock : Nat
  objects : Finmap fun _ : κ => Stored υ
  creations : List (κ × Nat)

structure Reading (κ υ : Type*) where
  key : κ
  stamp : Nat
  seen : Option (Stored υ)

namespace VersionedStore

variable {κ υ : Type*}

def empty : VersionedStore κ υ := ⟨0, ∅, []⟩

/-- A step that leaves the objects as they are. -/
def tick (s : VersionedStore κ υ) : VersionedStore κ υ := { s with clock := s.clock + 1 }

section Operations

variable [DecidableEq κ] (s : VersionedStore κ υ)

def create (k : κ) (v : υ) : VersionedStore κ υ :=
  if k ∈ s.objects then s.tick
  else
    { clock := s.clock + 1
      objects := s.objects.insert k ⟨s.clock, v⟩
      creations := s.creations ++ [(k, s.clock)] }

/-- A write of a value that cannot follow the stored one is refused. -/
def update [LE υ] [DecidableLE υ] (k : κ) (v : υ) : VersionedStore κ υ :=
  match s.objects.lookup k with
  | none => s.tick
  | some old =>
      if old.value ≤ v then { s.tick with objects := s.objects.insert k ⟨old.created, v⟩ }
      else s.tick

def remove (k : κ) : VersionedStore κ υ :=
  { s.tick with objects := s.objects.erase k }

def read (k : κ) : Reading κ υ := ⟨k, s.clock, s.objects.lookup k⟩

end Operations

/-! ## Facts about every stored value -/

/-- The predicate holds of every key and the value stored under it. -/
def Everywhere (P : κ → υ → Prop) [DecidableEq κ] (s : VersionedStore κ υ) : Prop :=
  ∀ k o, s.objects.lookup k = some o → P k o.value

section Everywhere

variable [DecidableEq κ] {P : κ → υ → Prop} {s : VersionedStore κ υ} {k : κ} {v : υ}

theorem everywhere_empty : (empty : VersionedStore κ υ).Everywhere P := by
  intro k o h
  simp [empty] at h

theorem Everywhere.insert (h : s.Everywhere P) (hv : P k v) (created : Nat) (k' : κ)
    (o : Stored υ) (ho : (s.objects.insert k ⟨created, v⟩).lookup k' = some o) :
    P k' o.value := by
  rw [lookup_insert_ite] at ho
  split at ho
  · rename_i heq
    cases ho
    exact heq ▸ hv
  · exact h k' o ho

theorem Everywhere.create (h : s.Everywhere P) (hv : P k v) : (s.create k v).Everywhere P := by
  unfold VersionedStore.create
  split
  · exact h
  · exact h.insert hv s.clock

theorem Everywhere.update [LE υ] [DecidableLE υ] (h : s.Everywhere P) (hv : P k v) :
    (s.update k v).Everywhere P := by
  unfold VersionedStore.update
  split
  · exact h
  · rename_i old _
    split
    · exact h.insert hv old.created
    · exact h

theorem Everywhere.remove (h : s.Everywhere P) : (s.remove k).Everywhere P := by
  intro k' o ho
  simp only [VersionedStore.remove, lookup_erase_ite] at ho
  split at ho
  · cases ho
  · exact h k' o ho

end Everywhere

variable [DecidableEq κ] [Preorder υ] {s s' : VersionedStore κ υ}

/-! ## What one step does to the objects -/

/-- One step: every object there is afterwards was there before and has not grown
older, or the step created it. -/
structure Advances (s s' : VersionedStore κ υ) : Prop where
  clock : s'.clock = s.clock + 1
  creations : s.creations ⊆ s'.creations
  objects : ∀ k o', s'.objects.lookup k = some o' →
    (∃ o, s.objects.lookup k = some o ∧ o.created = o'.created ∧ o.value ≤ o'.value) ∨
      (o'.created = s.clock ∧ (k, s.clock) ∈ s'.creations)

theorem advances_tick (s : VersionedStore κ υ) : Advances s s.tick where
  clock := rfl
  creations := List.Subset.refl _
  objects _ o' h := .inl ⟨o', h, rfl, le_rfl⟩

theorem advances_create (s : VersionedStore κ υ) (k : κ) (v : υ) :
    Advances s (s.create k v) := by
  unfold create
  split
  · exact advances_tick s
  · refine ⟨rfl, List.subset_append_left _ _, fun k' o' h => ?_⟩
    simp only [lookup_insert_ite] at h
    split at h
    · rename_i heq
      cases h
      exact .inr ⟨rfl, by simp [heq]⟩
    · exact .inl ⟨o', h, rfl, le_rfl⟩

theorem advances_update [DecidableLE υ] (s : VersionedStore κ υ) (k : κ) (v : υ) :
    Advances s (s.update k v) := by
  unfold update
  split
  · exact advances_tick s
  · rename_i old hold
    split
    · rename_i hle
      refine ⟨rfl, List.Subset.refl _, fun k' o' h => .inl ?_⟩
      simp only [lookup_insert_ite] at h
      split at h
      · rename_i heq
        cases h
        exact ⟨old, heq ▸ hold, rfl, hle⟩
      · exact ⟨o', h, rfl, le_rfl⟩
    · exact advances_tick s

theorem advances_remove (s : VersionedStore κ υ) (k : κ) : Advances s (s.remove k) := by
  refine ⟨rfl, List.Subset.refl _, fun k' o' h => .inl ⟨o', ?_, rfl, le_rfl⟩⟩
  simp only [remove, lookup_erase_ite] at h
  split at h
  · cases h
  · exact h

/-! ## Readings along a run -/

/-- An object seen after the reading `r` of its key: the one `r` saw, or one
created since. -/
def Continues (r : Reading κ υ) (o : Stored υ) : Prop :=
  r.stamp < o.created ∨ ∃ a, r.seen = some a ∧ a.created = o.created ∧ a.value ≤ o.value

/-- The readings in `R` were all taken along the run that led to `s`. -/
structure Coherent (s : VersionedStore κ υ) (R : Set (Reading κ υ)) : Prop where
  stamp_lt : ∀ r ∈ R, r.stamp < s.clock
  stored : ∀ k o, s.objects.lookup k = some o →
    o.created < s.clock ∧ (k, o.created) ∈ s.creations
  seen : ∀ r ∈ R, ∀ o, r.seen = some o → o.created < r.stamp ∧ (r.key, o.created) ∈ s.creations
  now : ∀ r ∈ R, ∀ o, s.objects.lookup r.key = some o → Continues r o
  later : ∀ r ∈ R, ∀ r' ∈ R, r.key = r'.key → r.stamp ≤ r'.stamp →
    ∀ o, r'.seen = some o → Continues r o

variable {R R' : Set (Reading κ υ)}

theorem coherent_empty : Coherent (empty : VersionedStore κ υ) ∅ := by
  refine ⟨?_, fun k o h => ?_, ?_, ?_, ?_⟩
  case refine_2 => simp [empty] at h
  all_goals exact fun _ hr => absurd hr (Set.notMem_empty _)

theorem Coherent.mono (h : Coherent s R) (hsub : R' ⊆ R) : Coherent s R' where
  stamp_lt r hr := h.stamp_lt r (hsub hr)
  stored := h.stored
  seen r hr := h.seen r (hsub hr)
  now r hr := h.now r (hsub hr)
  later r hr r' hr' := h.later r (hsub hr) r' (hsub hr')

theorem Coherent.advance (h : Coherent s R) (hstep : Advances s s') : Coherent s' R where
  stamp_lt r hr := by
    have := h.stamp_lt r hr
    have := hstep.clock
    omega
  stored k o' ho' := by
    have hclock := hstep.clock
    rcases hstep.objects k o' ho' with ⟨o, ho, hcreated, -⟩ | ⟨hcreated, hmem⟩
    · obtain ⟨hlt, hmem⟩ := h.stored k o ho
      rw [← hcreated]
      exact ⟨by omega, hstep.creations hmem⟩
    · rw [hcreated]
      exact ⟨by omega, hmem⟩
  seen r hr o ho := ⟨(h.seen r hr o ho).1, hstep.creations (h.seen r hr o ho).2⟩
  now r hr o' ho' := by
    rcases hstep.objects r.key o' ho' with ⟨o, ho, hcreated, hle⟩ | ⟨hcreated, -⟩
    · rcases h.now r hr o ho with hlt | ⟨a, ha, hsame, hale⟩
      · exact .inl (hcreated ▸ hlt)
      · exact .inr ⟨a, ha, hsame.trans hcreated, hale.trans hle⟩
    · exact .inl (hcreated ▸ h.stamp_lt r hr)
  later := h.later

/-- Reads add to the readings whatever keys they ask for. -/
theorem Coherent.read (h : Coherent s R) : Coherent s.tick (R ∪ Set.range s.read) := by
  have htick := h.advance (advances_tick s)
  refine ⟨?_, htick.stored, ?_, ?_, ?_⟩
  · rintro r (hr | ⟨k, rfl⟩)
    · exact htick.stamp_lt r hr
    · exact Nat.lt_succ_self _
  · rintro r (hr | ⟨k, rfl⟩) o ho
    · exact h.seen r hr o ho
    · exact h.stored k o ho
  · rintro r (hr | ⟨k, rfl⟩) o ho
    · exact h.now r hr o ho
    · exact .inr ⟨o, ho, rfl, le_rfl⟩
  · rintro r (hr | ⟨k, rfl⟩) r' (hr' | ⟨k', rfl⟩) hkey hle o ho
    · exact h.later r hr r' hr' hkey hle o ho
    · exact h.now r hr o (hkey ▸ ho)
    · -- a reading taken now is not older than one taken before
      exact absurd (h.stamp_lt r' hr') (Nat.not_lt.mpr hle)
    · obtain rfl : k = k' := hkey
      exact .inr ⟨o, ho, rfl, le_rfl⟩

end VersionedStore

end SyntheticsOperator.Support
