import Mathlib.Algebra.BigOperators.Group.List.Basic
import Mathlib.Algebra.GroupWithZero.Nat
import Rill.Lib.Mask

/-!
# Texts by the byte

Offsets into a text count its UTF-8 bytes. A text is cut between two characters, or
not at all.
-/

namespace Lib

def byteLen (l : List Char) : Nat := (l.map Char.utf8Size).sum

/-- What is in front of the byte `i` and what begins there; `none` inside a character and past
the end. -/
def cutAt? : Nat → List Char → Option (List Char × List Char)
  | 0, l => some ([], l)
  | _ + 1, [] => none
  | i + 1, c :: l =>
    if c.utf8Size ≤ i + 1 then
      (cutAt? (i + 1 - c.utf8Size) l).map fun parts => (c :: parts.1, parts.2)
    else none

/-- The byte at which the first `p` begins. -/
def byteOf? (p l : List Char) : Option Nat := (cut? p l).map fun parts => byteLen parts.1

/-- The text can be cut at the byte `i`. -/
def Boundary (i : Nat) (l : List Char) : Prop := ∃ a b, l = a ++ b ∧ byteLen a = i

@[simp] theorem byteLen_nil : byteLen [] = 0 := rfl

@[simp] theorem byteLen_cons (c : Char) (l : List Char) : byteLen (c :: l) = c.utf8Size + byteLen l := rfl

@[simp] theorem byteLen_append (a b : List Char) : byteLen (a ++ b) = byteLen a + byteLen b := by
  rw [byteLen, List.map_append, List.sum_append, byteLen, byteLen]

theorem cutAt?_append (a b : List Char) : cutAt? (byteLen a) (a ++ b) = some (a, b) := by
  induction a with
  | nil => cases b <;> rfl
  | cons c a ih =>
    have hc := c.utf8Size_pos
    obtain ⟨i, hi⟩ : ∃ i, c.utf8Size + byteLen a = i + 1 := ⟨c.utf8Size + byteLen a - 1, by omega⟩
    have hrest : i + 1 - c.utf8Size = byteLen a := by omega
    rw [byteLen_cons, List.cons_append, hi, cutAt?, if_pos (by omega), hrest, ih, Option.map_some]

theorem of_cutAt? {i : Nat} {l a b : List Char} (h : cutAt? i l = some (a, b)) :
    l = a ++ b ∧ byteLen a = i := by
  induction l generalizing i a with
  | nil =>
    cases i with
    | zero => cases h; exact ⟨rfl, rfl⟩
    | succ i => cases h
  | cons c l ih =>
    cases i with
    | zero => cases h; exact ⟨rfl, rfl⟩
    | succ i =>
      rw [cutAt?] at h
      split at h
      case isTrue hc =>
        obtain ⟨⟨a', b'⟩, hcut, hparts⟩ := Option.map_eq_some_iff.mp h
        cases hparts
        obtain ⟨rfl, hlen⟩ := ih hcut
        exact ⟨rfl, by rw [byteLen_cons, hlen]; omega⟩
      case isFalse => cases h

theorem cutAt?_isSome_iff {i : Nat} {l : List Char} : (cutAt? i l).isSome ↔ Boundary i l := by
  constructor
  · intro h
    obtain ⟨⟨a, b⟩, hcut⟩ := Option.isSome_iff_exists.mp h
    exact ⟨a, b, of_cutAt? hcut⟩
  · rintro ⟨a, b, rfl, rfl⟩
    rw [cutAt?_append]
    rfl

instance (i : Nat) (l : List Char) : Decidable (Boundary i l) := decidable_of_iff _ cutAt?_isSome_iff

-- ---------------------------------------------------------------------------
-- Lower case
-- ---------------------------------------------------------------------------

theorem utf8Size_toLower (c : Char) : c.toLower.utf8Size = c.utf8Size := by
  by_cases h : c.val ≥ 'A'.val ∧ c.val ≤ 'Z'.val
  · have hhi : c.val.toNat ≤ 90 := UInt32.le_iff_toNat_le.mp h.2
    have hlower : c.toLower.val = c.val + ('a'.val - 'A'.val) :=
      congrArg Char.val (dif_pos h : c.toLower = _)
    have hsum : (c.val + ('a'.val - 'A'.val)).toNat = c.val.toNat + 32 := by
      rw [UInt32.toNat_add]
      exact Nat.mod_eq_of_lt (Nat.lt_of_le_of_lt (Nat.add_le_add_right hhi 32) (by decide))
    have hone : c.utf8Size = 1 := Char.utf8Size_eq_one_iff.mpr (UInt32.le_iff_toNat_le.mpr
      (Nat.le_trans hhi (by decide)))
    rw [hone, Char.utf8Size_eq_one_iff, hlower, UInt32.le_iff_toNat_le, hsum]
    exact Nat.le_trans (Nat.add_le_add_right hhi 32) (by decide)
  · exact congrArg Char.utf8Size (dif_neg h : c.toLower = c)

theorem byteLen_map_toLower (l : List Char) : byteLen (l.map Char.toLower) = byteLen l := by
  rw [byteLen, List.map_map, byteLen]
  congr 1
  exact List.map_congr_left fun c _ => utf8Size_toLower c

end Lib
