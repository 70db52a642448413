import Mathlib.Data.List.Nodup
import Mathlib.Data.List.Perm.Subperm
import Mathlib.Logic.Function.Iterate

/-!
# Free names

A walk through distinct names comes upon one that is free before it has taken more steps
than there are names in use.
-/

namespace Lib.Fresh

open Function

variable {α : Type} {f : α → α} {a : α} {n : Nat}

/-- The first `n` names of the walk from `a` are distinct. -/
def Distinct (f : α → α) (a : α) (n : Nat) : Prop :=
  ∀ i j, i < n → j < n → (f^[i]) a = (f^[j]) a → i = j

/-- Fewer names in use than there are in the walk: it comes upon one that is free. -/
theorem exists_notMem {used : List α} (h : Distinct f a n) (hlen : used.length < n) :
    ∃ i < n, (f^[i]) a ∉ used := by
  by_contra hnone
  have hall : ∀ i < n, (f^[i]) a ∈ used := by
    intro i hi
    by_contra hfree
    exact hnone ⟨i, hi, hfree⟩
  have hnodup : ((List.range n).map fun i => (f^[i]) a).Nodup := by
    refine List.Nodup.map_on ?_ List.nodup_range
    intro i hi j hj heq
    exact h i j (List.mem_range.mp hi) (List.mem_range.mp hj) heq
  have hsubset : ((List.range n).map fun i => (f^[i]) a) ⊆ used := by
    intro x hx
    obtain ⟨i, hi, rfl⟩ := List.mem_map.mp hx
    exact hall i (List.mem_range.mp hi)
  have hle := (hnodup.subperm hsubset).length_le
  rw [List.length_map, List.length_range] at hle
  exact Nat.not_lt.mpr hle hlen

end Lib.Fresh
