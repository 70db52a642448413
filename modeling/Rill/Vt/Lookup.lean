import Mathlib.Data.List.Chain
import Rill.Lib.Bisect
import Rill.Vt.Width

/-!
# The search of the width tables

The source looks a scalar up by bisection. The tables are in order and their ranges apart, so
wherever the bisection looks it finds the range that holds the scalar.
-/

namespace Rill.Vt

open Lib

/-- How the source compares a range with a scalar. -/
def rangeOrder (cp : Nat) (range : Nat × Nat) : Ordering :=
  if range.2 < cp then .lt else if range.1 > cp then .gt else .eq

theorem rangeOrder_cases (cp : Nat) (range : Nat × Nat) :
    (rangeOrder cp range = .lt ↔ range.2 < cp) ∧
      (rangeOrder cp range = .gt ↔ cp ≤ range.2 ∧ cp < range.1) ∧
        (rangeOrder cp range = .eq ↔ range.1 ≤ cp ∧ cp ≤ range.2) := by
  by_cases hafter : range.2 < cp
  · simp [rangeOrder, hafter]
  · by_cases hbefore : cp < range.1
    · simp [rangeOrder, hafter, hbefore, Nat.not_lt.mp hafter]
    · simp [rangeOrder, hafter, hbefore, Nat.not_lt.mp hafter, Nat.not_lt.mp hbefore]

theorem rangeOrder_eq_eq {cp : Nat} {range : Nat × Nat} :
    rangeOrder cp range = .eq ↔ range.1 ≤ cp ∧ cp ≤ range.2 := (rangeOrder_cases cp range).2.2

-- ---------------------------------------------------------------------------
-- The tables
-- ---------------------------------------------------------------------------

/-- The range `b` is behind `a`. -/
def Ascends (a b : Nat × Nat) : Prop := a.1 ≤ a.2 ∧ a.2 < b.1 ∧ b.1 ≤ b.2

instance (a b : Nat × Nat) : Decidable (Ascends a b) := inferInstanceAs (Decidable (_ ∧ _))

instance : Trans Ascends Ascends Ascends where
  trans h k := ⟨h.1, h.2.1.trans (h.2.2.trans_lt k.2.1), k.2.2⟩

/-- Ranges in order, apart from each other. -/
abbrev Ranges (ranges : List (Nat × Nat)) : Prop := ranges.IsChain Ascends

theorem ranges_wideRanges : Ranges wideRanges := by decide +kernel

theorem ranges_markRanges : Ranges markRanges := by decide +kernel

namespace Ranges

variable {ranges : List (Nat × Nat)}

theorem inOrder (h : Ranges ranges) (cp : Nat) : InOrder (rangeOrder cp) ranges := by
  refine (List.isChain_iff_pairwise.mp h).imp fun {a b} hab => ?_
  obtain ⟨ha, hapart, hb⟩ := hab
  obtain ⟨halt, hagt, -⟩ := rangeOrder_cases cp a
  obtain ⟨hblt, hbgt, -⟩ := rangeOrder_cases cp b
  rw [halt, hblt, hagt, hbgt]
  omega

/-- No scalar is in two ranges. -/
theorem one (h : Ranges ranges) (cp : Nat) :
    ∀ a ∈ ranges, ∀ b ∈ ranges, rangeOrder cp a = .eq → rangeOrder cp b = .eq → a = b := by
  have hapart : ∀ a b, Ascends a b → rangeOrder cp a = .eq → rangeOrder cp b = .eq → False := by
    intro a b hab ha hb
    rw [rangeOrder_eq_eq] at ha hb
    exact absurd (hab.2.1.trans_le hb.1) (Nat.not_lt.mpr ha.2)
  have hpairs := List.isChain_iff_pairwise.mp h
  refine List.Pairwise.forall_of_forall_of_flip (fun a _ _ _ => rfl) (hpairs.imp ?_) (hpairs.imp ?_)
  · exact fun hab ha hb => (hapart _ _ hab ha hb).elim
  · exact fun hab hb ha => (hapart _ _ hab ha hb).elim

theorem bisected (h : Ranges ranges) {cp : Nat} {found : Option (Nat × Nat)}
    (hfound : Bisection (rangeOrder cp) ranges found) :
    found = ranges.find? fun range => range.1 ≤ cp && cp ≤ range.2 := by
  rw [hfound.eq_find? (h.inOrder cp) (h.one cp)]
  congr 1
  funext range
  simp [rangeOrder_eq_eq]

end Ranges

/-- Wherever the bisections look, they find a range just for the scalars that are wide, or marks; and
it holds the scalar. -/
theorem width_bisected (cp : UInt32) {wide mark : Option (Nat × Nat)}
    (hwide : Bisection (rangeOrder cp.toNat) wideRanges wide)
    (hmark : Bisection (rangeOrder cp.toNat) markRanges mark) :
    (wide.isSome = isWide cp ∧ ∀ range ∈ wide, range.1 ≤ cp.toNat ∧ cp.toNat ≤ range.2) ∧
      (mark.isSome = isMark cp ∧ ∀ range ∈ mark, range.1 ≤ cp.toNat ∧ cp.toNat ≤ range.2) := by
  rw [ranges_wideRanges.bisected hwide, ranges_markRanges.bisected hmark]
  refine ⟨⟨List.isSome_find?, fun range h => ?_⟩, List.isSome_find?, fun range h => ?_⟩
  · simpa using List.find?_some h
  · simpa using List.find?_some h

/-- A scalar that is wide and a mark, by halving. -/
theorem width_bisected_voiced :
    (bisect (rangeOrder 0x3099) wideRanges.length wideRanges).isSome = isWide 0x3099 ∧
      (bisect (rangeOrder 0x3099) markRanges.length markRanges).isSome = isMark 0x3099 := by
  have h := width_bisected 0x3099 (bisection_bisect _ (Nat.le_refl _)) (bisection_bisect _ (Nat.le_refl _))
  exact ⟨h.1.1, h.2.1⟩

end Rill.Vt
