import Mathlib.Data.List.Chain
import Mathlib.Data.List.Nodup

/-!
# Logs

Lists that grow at their end, each entry coming after the ones before it, with
the mark of the last entry kept beside the list.
-/

namespace Lib

variable {α β κ : Type}

/-- The entries of `l` come one after the other, and the last is marked `last`. -/
structure Logged (before : α → α → Prop) (mark : α → β) (l : List α) (last : Option β) : Prop where
  sorted : l.Pairwise before
  last : last = l.getLast?.map mark

namespace Logged

variable {before : α → α → Prop} {mark : α → β}

theorem nil : Logged before mark [] none := ⟨.nil, rfl⟩

/-- An entry that comes after the last one comes after all of them. -/
theorem concat [IsTrans α before] {l : List α} {last : Option β} (h : Logged before mark l last)
    {a : α} (hafter : ∀ z, last = some (mark z) → before z a) :
    Logged before mark (l ++ [a]) (some (mark a)) := by
  refine ⟨?_, by rw [List.getLast?_concat, Option.map_some]⟩
  rw [← List.isChain_iff_pairwise, List.isChain_append]
  refine ⟨h.sorted.isChain, .singleton a, fun z hz b hb => ?_⟩
  obtain rfl : a = b := by simpa using hb
  refine hafter z ?_
  rw [h.last, Option.mem_def.mp hz, Option.map_some]

end Logged

theorem nodup_map_concat {l : List α} {f : α → κ} {a : α} (h : (l.map f).Nodup)
    (ha : f a ∉ l.map f) : ((l ++ [a]).map f).Nodup := by
  rw [List.map_append, List.map_cons, List.map_nil]
  exact h.append (List.nodup_singleton _) (List.disjoint_singleton.mpr ha)

theorem getElem?_concat_eq_of_ne {l : List α} {a b : α} (h : a ≠ b) (i : Nat) :
    (l ++ [b])[i]? = some a ↔ l[i]? = some a := by
  rw [List.getElem?_append]
  split
  case isTrue => rfl
  case isFalse hi =>
    rw [List.getElem?_eq_none (Nat.not_lt.mp hi)]
    refine iff_of_false (fun hb => h ?_) nofun
    exact List.mem_singleton.mp (List.mem_of_getElem? hb)

theorem getElem?_concat_eq_of_notMem {l : List α} {a : α} (h : a ∉ l) (i : Nat) :
    (l ++ [a])[i]? = some a ↔ l.length = i := by
  constructor
  · intro hi
    rcases Nat.lt_trichotomy i l.length with hlt | rfl | hgt
    · rw [List.getElem?_append_left hlt] at hi
      exact absurd (List.mem_of_getElem? hi) h
    · rfl
    · have hnone : (l ++ [a])[i]? = none :=
        List.getElem?_eq_none (by rw [List.length_append]; exact hgt)
      rw [hnone] at hi
      cases hi
  · rintro rfl
    exact List.getElem?_concat_length

end Lib
