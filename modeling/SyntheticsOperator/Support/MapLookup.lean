import Mathlib.Data.Finmap
import SyntheticsOperator.Support.Histories

/-!
# Lookups after updates of a finite map

The two cases of each update in one equation, for maps whose values all have one
type, and what a run of inserts leaves behind: the last one for a key wins.
-/

namespace SyntheticsOperator.Support

variable {κ υ : Type*} [DecidableEq κ] (m : Finmap fun _ : κ => υ)

theorem lookup_insert_ite (k k' : κ) (v : υ) :
    (m.insert k v).lookup k' = if k' = k then some v else m.lookup k' := by
  split
  · rename_i heq
    rw [heq, Finmap.lookup_insert]
  · rename_i hne
    rw [Finmap.lookup_insert_of_ne m hne]

theorem lookup_erase_ite (k k' : κ) :
    (m.erase k).lookup k' = if k' = k then none else m.lookup k' := by
  split
  · rename_i heq
    rw [heq, Finmap.lookup_erase]
  · rename_i hne
    rw [Finmap.lookup_erase_ne hne]

/-- The last insert under a key decides what is found there. -/
theorem lookup_foldl_insert {ε : Type*} (key : ε → κ) (value : ε → υ) (l : List ε) (k : κ) :
    (l.foldl (fun m e => m.insert (key e) (value e)) m).lookup k =
      (Histories.lastSome (fun e => if key e = k then some (value e) else none) l).or
        (m.lookup k) := by
  induction l using List.reverseRecOn with
  | nil => rfl
  | append_singleton l e ih =>
      rw [List.foldl_concat, lookup_insert_ite, Histories.lastSome_snoc, ih]
      by_cases hkey : key e = k
      · simp [hkey]
      · simp [hkey, Ne.symm hkey]

end SyntheticsOperator.Support
