import Mathlib.Data.List.DropRight

/-!
# Windows

A window so many entries high that ends some entries above the last of a list,
rows fitted to a width, and lists that keep their newest entries.
-/

namespace Lib

variable {α β : Type}

/-- The `height` entries of `l` that end `up` entries above its last. -/
def window (l : List α) (height up : Nat) : List α := (l.rdrop up).rtake height

/-- `row` cut to `width`, or padded to it with `blank`. -/
def fitted (blank : α) (width : Nat) (row : List α) : List α :=
  row.take width ++ List.replicate (width - row.length) blank

theorem length_fitted (blank : α) (width : Nat) (row : List α) :
    (fitted blank width row).length = width := by
  rw [fitted, List.length_append, List.length_take, List.length_replicate]
  omega

theorem fitted_of_length {width : Nat} {row : List α} (h : row.length = width) (blank : α) :
    fitted blank width row = row := by
  rw [fitted, ← h, List.take_length, Nat.sub_self, List.replicate_zero, List.append_nil]

theorem length_flatMap_fitted (blank : α) (width : Nat) (rows : List (List α)) :
    (rows.flatMap (fitted blank width)).length = width * rows.length := by
  induction rows with
  | nil => rfl
  | cons row rows ih =>
    rw [List.flatMap_cons, List.length_append, ih, length_fitted, List.length_cons, Nat.mul_succ,
      Nat.add_comm]

-- ---------------------------------------------------------------------------
-- Windows
-- ---------------------------------------------------------------------------

/-- A window inside the list is a slice of it. -/
theorem window_eq {l : List α} {height up : Nat} (h : height + up ≤ l.length) :
    window l height up = (l.drop (l.length - up - height)).take height := by
  have hheight : l.length - up - (l.length - up - height) = height := by omega
  rw [window, List.rtake, List.rdrop, List.length_take, Nat.min_eq_left (Nat.sub_le _ _),
    List.drop_take, hheight]

theorem length_window {l : List α} {height up : Nat} (h : height + up ≤ l.length) :
    (window l height up).length = height := by
  rw [window_eq h, List.length_take, List.length_drop]
  omega

theorem window_append_zero (l tail : List α) : window (l ++ tail) tail.length 0 = tail := by
  rw [window_eq (by rw [List.length_append]; omega), List.length_append, Nat.sub_zero,
    Nat.add_sub_cancel, List.drop_left', List.take_length]
  rfl

/-- One entry up from the last stands the one before it. -/
theorem window_one_up (l : List α) (a b : α) : window (l ++ [a] ++ [b]) 1 1 = [a] := by
  rw [window, List.rdrop_concat_succ, List.rdrop_zero, List.rtake_concat_succ, List.rtake_zero,
    List.nil_append]

theorem flatMap_range' {l : List α} {start n : Nat} (h : start + n ≤ l.length) (f : α → List β)
    (g : Nat → List β) (hg : ∀ i (hi : i < l.length), g i = f l[i]) :
    (List.range' start n).flatMap g = ((l.drop start).take n).flatMap f := by
  induction n generalizing start with
  | zero => rfl
  | succ n ih =>
    have hlt : start < l.length := by omega
    rw [List.range'_succ, List.flatMap_cons, hg start hlt, ih (by omega),
      List.drop_eq_getElem_cons hlt, List.take_succ_cons, List.flatMap_cons]

-- ---------------------------------------------------------------------------
-- Chunks
-- ---------------------------------------------------------------------------

/-- The first `n` chunks of `width` entries. -/
def chunks (l : List α) (width n : Nat) : List (List α) :=
  (List.range n).map fun i => (l.drop (i * width)).take width

theorem length_chunks (l : List α) (width n : Nat) : (chunks l width n).length = n := by
  rw [chunks, List.length_map, List.length_range]

theorem length_of_mem_chunks {l : List α} {width n : Nat} (h : n * width ≤ l.length) {row : List α}
    (hrow : row ∈ chunks l width n) : row.length = width := by
  obtain ⟨i, hi, rfl⟩ := List.mem_map.mp hrow
  have hend : (i + 1) * width ≤ n * width := Nat.mul_le_mul_right width (List.mem_range.mp hi)
  rw [Nat.succ_mul] at hend
  rw [List.length_take, List.length_drop]
  omega

theorem flatten_chunks (l : List α) (width n : Nat) : (chunks l width n).flatten = l.take (n * width) := by
  induction n with
  | zero => rw [Nat.zero_mul, List.take_zero]; rfl
  | succ n ih =>
    have hsucc : chunks l width (n + 1) = chunks l width n ++ [(l.drop (n * width)).take width] := by
      rw [chunks, List.range_succ, List.map_append]
      rfl
    rw [hsucc, List.flatten_append, ih, List.flatten_singleton, Nat.succ_mul, List.take_add]

theorem flatMap_fitted_chunks {l : List α} {width n : Nat} (h : l.length = n * width) (blank : α) :
    (chunks l width n).flatMap (fitted blank width) = l := by
  have hfit : ∀ row ∈ chunks l width n, fitted blank width row = id row := fun row hrow =>
    fitted_of_length (length_of_mem_chunks (Nat.le_of_eq h.symm) hrow) blank
  rw [List.flatMap_congr hfit, List.flatMap_id, flatten_chunks, ← h, List.take_length]

-- ---------------------------------------------------------------------------
-- The newest entries
-- ---------------------------------------------------------------------------

theorem rtake_of_length_le {l : List α} {n : Nat} (h : l.length ≤ n) : l.rtake n = l := by
  rw [List.rtake, Nat.sub_eq_zero_of_le h, List.drop_zero]

/-- What the newest entries leave out, none of the newest of a longer list needs. -/
theorem rtake_append_rtake (l m : List α) (n : Nat) : (l.rtake n ++ m).rtake n = (l ++ m).rtake n := by
  have hle : l.length - n ≤ l.length := Nat.sub_le _ _
  rw [List.rtake, List.rtake, List.rtake, ← List.drop_append_of_le_length hle, List.drop_drop,
    List.length_drop]
  congr 1
  rw [List.length_append]
  omega

/-- An entry at a time, over batches, the oldest dropped as the newest come. -/
theorem foldl_newest {keep : List α → α → List α} {n : Nat}
    (hkeep : ∀ l a, l.length ≤ n → keep l a = (l ++ [a]).rtake n) {l : List α} (h : l.length ≤ n)
    (m : List α) : m.foldl keep l = (l ++ m).rtake n := by
  induction m generalizing l with
  | nil => rw [List.append_nil, rtake_of_length_le h]; rfl
  | cons a m ih =>
    have hlen : ((l ++ [a]).rtake n).length ≤ n := by
      rw [List.rtake, List.length_drop]
      omega
    rw [List.foldl_cons, hkeep l a h, ih hlen, rtake_append_rtake, List.append_assoc,
      List.singleton_append]

end Lib
