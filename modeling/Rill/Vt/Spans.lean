import Mathlib.Data.List.Basic
import Rill.Vt.Rows

/-!
# Spans of cells

Inserting, deleting and erasing cells on a grid without wide glyphs: the row of
the cursor as a list, and the span of the grid that an erasure blanks.
-/

namespace Rill.Vt

open Lib

namespace Screen

variable {s t : Screen} {cols rows : Nat}

/-- No cell of the grid is half of a wide glyph. -/
def NoWide (s : Screen) : Prop :=
  ∀ c ∈ s.cells, c.attrs &&& attrWideLead = 0 ∧ c.attrs &&& attrWideTail = 0

instance (s : Screen) : Decidable s.NoWide :=
  inferInstanceAs (Decidable (∀ c ∈ s.cells, c.attrs &&& attrWideLead = 0 ∧ c.attrs &&& attrWideTail = 0))

-- ---------------------------------------------------------------------------
-- What editing leaves alone
-- ---------------------------------------------------------------------------

namespace Edits

theorem smashHalf (s : Screen) (found : Bool) (other : Nat) (attr : UInt16) :
    Edits s (s.smashHalf found other attr) := ite (ite rfl rfl) rfl

theorem smashWideAt (s : Screen) (col row : UInt16) : Edits s (s.smashWideAt col row) :=
  ite rfl (((show Edits s (s.touch (s.idx col row)) from rfl).trans (smashHalf _ _ _ _)).trans
    (smashHalf _ _ _ _))

theorem blankCells (s : Screen) (lo hi : Nat) : Edits s (s.blankCells lo hi) := rfl

theorem copyWithin (s : Screen) (lo hi dst : Nat) : Edits s (s.copyWithin lo hi dst) := rfl

theorem smashCols (s : Screen) (row : UInt16) (col n : Nat) : Edits s (s.smashCols row col n) :=
  foldl (fun t c => smashWideAt t (UInt16.ofNat c) row) _ s

theorem smashSpan (s : Screen) (lo hi : Nat) : Edits s (s.smashSpan lo hi) :=
  foldl (fun t _ => smashWideAt t _ _) _ s

theorem eraseSpan (s : Screen) (start stop : Nat) : Edits s (s.eraseSpan start stop) := by
  have hblank := (smashSpan s (min start (min stop s.cells.length)) (min stop s.cells.length)).trans
    (blankCells _ (min start (min stop s.cells.length)) (min stop s.cells.length))
  exact ite (hblank.trans (dirtyRows _ _ _)) hblank

theorem eraseDisplay (s : Screen) (mode : UInt16) : Edits s (s.eraseDisplay mode) :=
  ite (eraseSpan s _ _) (ite (eraseSpan s _ _) ((eraseSpan s _ _).trans rfl))

theorem eraseLine (s : Screen) (mode : UInt16) : Edits s (s.eraseLine mode) :=
  ite (eraseSpan s _ _) (ite (eraseSpan s _ _) (eraseSpan s _ _))

theorem insertCells (s : Screen) (n : UInt16) : Edits s (s.insertCells n) :=
  ite rfl (((ite (copyWithin s _ _ _) (refl s)).trans (blankCells _ _ _)).trans (dirty _ _))

theorem deleteCells (s : Screen) (n : UInt16) : Edits s (s.deleteCells n) := by
  have hsmash := smashCols s s.cursorRow s.cursorCol.toNat (min n (satSub16 s.cols s.cursorCol)).toNat
  exact ite rfl (((ite (hsmash.trans (copyWithin _ _ _ _)) hsmash).trans (blankCells _ _ _)).trans
    (dirty _ _))

end Edits

-- ---------------------------------------------------------------------------
-- No half to look for
-- ---------------------------------------------------------------------------

theorem touch_of_lt (h : s.panicked = false) {i : Nat} (hi : i < s.cells.length) : s.touch i = s := by
  have hin : (s.panicked || !decide (i < s.cells.length)) = s.panicked := by
    rw [h, decide_eq_true hi]
    rfl
  rw [touch, check, hin]

theorem smashWideAt_of_noWide (h : Sound True cols rows s) (hw : s.NoWide) (col row : UInt16) :
    s.smashWideAt col row = s := by
  unfold smashWideAt
  split
  case isTrue => rfl
  case isFalse hin =>
    simp only [Bool.or_eq_true, decide_eq_true_eq, not_or, UInt16.not_le, ge_iff_le,
      UInt16.lt_iff_toNat_lt, h.cols_eq, h.rows_eq] at hin
    have hlt := h.idx_lt hin.1 hin.2
    have hmem : s.cellAt (s.idx col row) ∈ s.cells := by
      rw [cellAt, List.getD_eq_getElem?_getD, List.getElem?_eq_getElem hlt]
      exact List.getElem_mem hlt
    obtain ⟨hlead, htail⟩ := hw _ hmem
    simp only [hlead, htail, ne_eq, not_true_eq_false, decide_false, Bool.false_and, smashHalf,
      Bool.false_eq_true, if_false]
    exact touch_of_lt h.panicked hlt

theorem smashSpan_of_noWide (h : Sound True cols rows s) (hw : s.NoWide) (lo hi : Nat) :
    s.smashSpan lo hi = s := List.foldl_fixed' (fun _ => smashWideAt_of_noWide h hw _ _) _

theorem smashCols_of_noWide (h : Sound True cols rows s) (hw : s.NoWide) (row : UInt16) (col n : Nat) :
    s.smashCols row col n = s := List.foldl_fixed' (fun _ => smashWideAt_of_noWide h hw _ _) _

-- ---------------------------------------------------------------------------
-- Erasing
-- ---------------------------------------------------------------------------

theorem cells_eraseSpan (h : Sound True cols rows s) (hw : s.NoWide) {start stop : Nat}
    (hstop : stop ≤ s.cells.length) (i : Nat) :
    (s.eraseSpan start stop).cells[i]? =
      if start ≤ i ∧ i < stop then some (Cell.blank s.penBg) else s.cells[i]? := by
  have hblank : (s.blankCells (min start stop) stop).cells[i]? =
      if start ≤ i ∧ i < stop then some (Cell.blank s.penBg) else s.cells[i]? := by
    refine (getElem?_fillCells hstop _ i).trans (if_congr ?_ rfl rfl)
    omega
  rw [eraseSpan, Nat.min_eq_left hstop, smashSpan_of_noWide h hw]
  split
  · rw [cells_dirtyRows, hblank]
  · exact hblank

/-- The cells an erasure of the display blanks. -/
def displaySpan (s : Screen) (mode : UInt16) (c r : Nat) : Prop :=
  if mode = 0 then s.cursorRow.toNat < r ∨ r = s.cursorRow.toNat ∧ s.cursorCol.toNat ≤ c
  else if mode = 1 then r < s.cursorRow.toNat ∨ r = s.cursorRow.toNat ∧ c ≤ s.cursorCol.toNat
  else True

def lineSpan (s : Screen) (mode : UInt16) (c r : Nat) : Prop :=
  r = s.cursorRow.toNat ∧
    if mode = 0 then s.cursorCol.toNat ≤ c else if mode = 1 then c ≤ s.cursorCol.toNat else True

instance (s : Screen) (mode : UInt16) (c r : Nat) : Decidable (s.displaySpan mode c r) := by
  unfold displaySpan
  infer_instance

instance (s : Screen) (mode : UInt16) (c r : Nat) : Decidable (s.lineSpan mode c r) := by
  unfold lineSpan
  infer_instance

/-- The order of the positions in the grid is that of reading. -/
theorem position_le_iff {c cols r c' r' : Nat} (hc : c < cols) (hc' : c' < cols) :
    r * cols + c ≤ r' * cols + c' ↔ r < r' ∨ r' = r ∧ c ≤ c' := by
  obtain hlt | rfl | hgt := Nat.lt_trichotomy r r'
  · have hspan := Nat.mul_le_mul_right cols hlt
    rw [Nat.succ_mul] at hspan
    omega
  · omega
  · have hspan := Nat.mul_le_mul_right cols hgt
    rw [Nat.succ_mul] at hspan
    omega

theorem getElem?_rowCells_lt (h : Sound True cols rows s) {c : Nat} (hc : c < cols) (r : Nat) :
    (s.rowCells r)[c]? = s.cells[r * cols + c]? := by
  rw [getElem?_rowCells, h.cols_eq, if_pos hc]

theorem rowCells_eraseDisplay (h : Sound True cols rows s) (hw : s.NoWide) (mode : UInt16) {c r : Nat}
    (hc : c < cols) (hr : r < rows) :
    ((s.eraseDisplay mode).rowCells r)[c]? =
      if s.displaySpan mode c r then some (Cell.blank s.penBg) else (s.rowCells r)[c]? := by
  have hcur := h.cursorCol_lt
  have hpos := cell_lt hc hr
  have hcurpos := cell_lt hcur h.cursorRow_lt
  have hlen := h.length_cells
  have hidx : s.idx s.cursorCol s.cursorRow = s.cursorRow.toNat * cols + s.cursorCol.toNat := by
    rw [idx, h.cols_eq]
  rw [getElem?_rowCells_lt (h.eraseDisplay mode) hc, getElem?_rowCells_lt h hc, eraseDisplay]
  by_cases h0 : mode = 0
  · have hspan : s.displaySpan mode c r ↔
        s.cursorRow.toNat < r ∨ r = s.cursorRow.toNat ∧ s.cursorCol.toNat ≤ c := by
      rw [displaySpan, if_pos h0]
    rw [if_pos h0, cells_eraseSpan h hw (Nat.le_refl _), hidx]
    refine if_congr (Iff.trans ?_ hspan.symm) rfl rfl
    rw [position_le_iff hcur hc, and_iff_left (by omega)]
  · by_cases h1 : mode = 1
    · have hspan : s.displaySpan mode c r ↔
          r < s.cursorRow.toNat ∨ r = s.cursorRow.toNat ∧ c ≤ s.cursorCol.toNat := by
        rw [displaySpan, if_neg h0, if_pos h1]
      rw [if_neg h0, if_pos h1, cells_eraseSpan h hw (by omega), hidx]
      refine if_congr (Iff.trans ?_ hspan.symm) rfl rfl
      rw [Nat.lt_succ_iff, position_le_iff hc hcur, and_iff_right (Nat.zero_le _), eq_comm]
    · have hspan : s.displaySpan mode c r := by
        rw [displaySpan, if_neg h0, if_neg h1]
        trivial
      rw [if_neg h0, if_neg h1, if_pos hspan]
      exact (cells_eraseSpan h hw (Nat.le_refl _) _).trans (if_pos (by omega))

theorem rowCells_eraseLine (h : Sound True cols rows s) (hw : s.NoWide) (mode : UInt16) {c r : Nat}
    (hc : c < cols) :
    ((s.eraseLine mode).rowCells r)[c]? =
      if s.lineSpan mode c r then some (Cell.blank s.penBg) else (s.rowCells r)[c]? := by
  have hcur := h.cursorCol_lt
  have hspan := row_span_le cols h.cursorRow_lt
  have hlen := h.length_cells
  have hidx : s.idx s.cursorCol s.cursorRow = s.cursorRow.toNat * cols + s.cursorCol.toNat := by
    rw [idx, h.cols_eq]
  have hstart : s.idx 0 s.cursorRow = s.cursorRow.toNat * cols := by
    rw [idx, h.cols_eq]
    rfl
  rw [getElem?_rowCells_lt (h.eraseLine mode) hc, getElem?_rowCells_lt h hc, eraseLine]
  rw [hstart, h.cols_eq]
  by_cases h0 : mode = 0
  · have hline : s.lineSpan mode c r ↔ r = s.cursorRow.toNat ∧ s.cursorCol.toNat ≤ c := by
      rw [lineSpan, if_pos h0]
    rw [if_pos h0, cells_eraseSpan h hw (by omega), hidx]
    refine if_congr (Iff.trans ?_ hline.symm) rfl rfl
    rw [position_le_iff hcur hc, lt_row_end_iff hc]
    omega
  · by_cases h1 : mode = 1
    · have hline : s.lineSpan mode c r ↔ r = s.cursorRow.toNat ∧ c ≤ s.cursorCol.toNat := by
        rw [lineSpan, if_neg h0, if_pos h1]
      rw [if_neg h0, if_pos h1, cells_eraseSpan h hw (by omega), hidx]
      refine if_congr (Iff.trans ?_ hline.symm) rfl rfl
      rw [Nat.lt_succ_iff, position_le_iff hc hcur, row_start_le_iff hc]
      omega
    · have hline : s.lineSpan mode c r ↔ r = s.cursorRow.toNat := by
        rw [lineSpan, if_neg h0, if_neg h1, and_true]
      rw [if_neg h0, if_neg h1, cells_eraseSpan h hw (by omega)]
      exact if_congr ((in_row_iff hc).trans hline.symm) rfl rfl

-- ---------------------------------------------------------------------------
-- The row of the cursor
-- ---------------------------------------------------------------------------

theorem rowList_eq_set (h : Sound True cols rows s) (ht : Sound True cols rows t) {r : Nat} (hr : r < rows)
    {row : List Cell} (hrow : row.length = cols)
    (hin : ∀ c < cols, t.cells[r * cols + c]? = row[c]?)
    (hout : ∀ i, i < r * cols ∨ r * cols + cols ≤ i → t.cells[i]? = s.cells[i]?) :
    t.rowList = s.rowList.set r row := by
  refine List.ext_getElem? fun j => ?_
  rw [List.getElem?_set, length_rowList h]
  by_cases hj : j < rows
  · rw [getElem?_rowList ht hj]
    by_cases hjr : r = j
    · rw [if_pos hjr, if_pos hr, ← hjr]
      refine congrArg some (List.ext_getElem? fun c => ?_)
      by_cases hc : c < cols
      · rw [getElem?_rowCells_lt ht hc, hin c hc]
      · rw [List.getElem?_eq_none (by rw [length_rowCells ht hr]; omega),
          List.getElem?_eq_none (by omega)]
    · rw [if_neg hjr, getElem?_rowList h hj]
      refine congrArg some (List.ext_getElem? fun c => ?_)
      by_cases hc : c < cols
      · have hne : ¬ (r * cols ≤ j * cols + c ∧ j * cols + c < r * cols + cols) :=
          fun hin => hjr ((in_row_iff hc).mp hin).symm
        rw [getElem?_rowCells_lt ht hc, getElem?_rowCells_lt h hc, hout _ (by omega)]
      · rw [List.getElem?_eq_none (by rw [length_rowCells ht hj]; omega),
          List.getElem?_eq_none (by rw [length_rowCells h hj]; omega)]
  · rw [List.getElem?_eq_none (by rw [length_rowList ht]; omega), if_neg (by omega),
      List.getElem?_eq_none (by rw [length_rowList h]; omega)]

theorem toNat_room (h : Sound True cols rows s) (n : UInt16) :
    (min n (satSub16 s.cols s.cursorCol)).toNat = min n.toNat (cols - s.cursorCol.toNat) := by
  rw [toNat_min16, toNat_satSub16, h.cols_eq]

theorem idx_zero (h : Sound True cols rows s) (row : UInt16) : s.idx 0 row = row.toNat * cols := by
  rw [idx, h.cols_eq]
  rfl

theorem cells_dirty (s : Screen) (row : UInt16) : (s.dirty row).cells = s.cells := by
  unfold dirty
  split
  · rfl
  · split <;> rfl

variable {n : UInt16}

theorem rowList_eraseChars (h : Sound True cols rows s) (hw : s.NoWide) (n : UInt16) :
    (s.eraseChars n).rowList = s.rowList.set s.cursorRow.toNat
      ((s.rowCells s.cursorRow.toNat).take s.cursorCol.toNat ++
        (List.replicate (min n.toNat (cols - s.cursorCol.toNat)) (Cell.blank s.penBg) ++
          (s.rowCells s.cursorRow.toNat).drop
            (s.cursorCol.toNat + min n.toNat (cols - s.cursorCol.toNat)))) := by
  have hcur := h.cursorCol_lt
  have hspan := row_span_le cols h.cursorRow_lt
  have hlen := h.length_cells
  have hline := length_rowCells h h.cursorRow_lt
  have hidx : s.idx s.cursorCol s.cursorRow = s.cursorRow.toNat * cols + s.cursorCol.toNat := by
    rw [idx, h.cols_eq]
  have hcells : ∀ i, (s.eraseChars n).cells[i]? =
      if s.cursorRow.toNat * cols + s.cursorCol.toNat ≤ i ∧
          i < s.cursorRow.toNat * cols + s.cursorCol.toNat + min n.toNat (cols - s.cursorCol.toNat) then
        some (Cell.blank s.penBg) else s.cells[i]? := by
    intro i
    rw [eraseChars, toNat_room h, cells_eraseSpan h hw (by omega), hidx]
  refine rowList_eq_set h (show Sound True cols rows (s.eraseChars n) from h.eraseSpan _ _) h.cursorRow_lt
    ?_ (fun c hc => ?_) fun i hi => ?_
  · rw [List.length_append, List.length_append, List.length_take, List.length_replicate,
      List.length_drop]
    omega
  · rw [hcells, getElem?_take_append (by omega), getElem?_replicate_append, List.getElem?_drop,
      ← getElem?_rowCells_lt h hc]
    by_cases hleft : c < s.cursorCol.toNat
    · rw [if_neg (by omega), if_pos hleft]
    · rw [if_neg hleft]
      by_cases hblank : c < s.cursorCol.toNat + min n.toNat (cols - s.cursorCol.toNat)
      · rw [if_pos (by omega), if_pos (by omega)]
      · rw [if_neg (by omega), if_neg (by omega)]
        exact congrArg ((s.rowCells s.cursorRow.toNat)[·]?) (by omega)
  · exact (hcells i).trans (if_neg (by omega))

/-- What `ICH` makes of the cells from the cursor on. -/
theorem cells_insertCells (h : Sound True cols rows s) (n : UInt16) (i : Nat) :
    (s.insertCells n).cells[i]? =
      if s.cursorRow.toNat * cols + s.cursorCol.toNat ≤ i ∧ i < s.cursorRow.toNat * cols + cols then
        if i < s.cursorRow.toNat * cols + s.cursorCol.toNat + min n.toNat (cols - s.cursorCol.toNat) then
          some (Cell.blank s.penBg)
        else s.cells[i - min n.toNat (cols - s.cursorCol.toNat)]?
      else s.cells[i]? := by
  have hcur := h.cursorCol_lt
  have hspan := row_span_le cols h.cursorRow_lt
  have hlen := h.length_cells
  rw [insertCells]
  dsimp only
  rw [toNat_room h, idx_zero h, h.cols_eq]
  have hm : min n.toNat (cols - s.cursorCol.toNat) ≤ cols - s.cursorCol.toNat := Nat.min_le_right _ _
  generalize min n.toNat (cols - s.cursorCol.toNat) = m at hm ⊢
  by_cases hzero : m = 0
  · subst hzero
    rw [if_pos rfl]
    split
    · rw [if_neg (by omega), Nat.sub_zero]
    · rfl
  · rw [if_neg hzero, cells_dirty]
    refine (getElem?_fillCells ?_ _ _).trans ?_
    · split
      · rw [show (s.copyWithin _ _ _).cells.length = s.cells.length from List.length_mapIdx]
        omega
      · omega
    by_cases hmoves : s.cursorCol.toNat + m < cols
    · rw [if_pos hmoves, getElem?_copyWithin (by omega) (by omega)]
      by_cases hin : s.cursorRow.toNat * cols + s.cursorCol.toNat ≤ i ∧ i < s.cursorRow.toNat * cols + cols
      · rw [if_pos hin]
        by_cases hblank : i < s.cursorRow.toNat * cols + s.cursorCol.toNat + m
        · rw [if_pos ⟨hin.1, hblank⟩, if_pos hblank]
          rfl
        · rw [if_neg (by omega), if_neg hblank, if_pos (by omega)]
          exact congrArg (s.cells[·]?) (by omega)
      · rw [if_neg (by omega), if_neg hin, if_neg (by omega)]
    · rw [if_neg hmoves]
      by_cases hin : s.cursorRow.toNat * cols + s.cursorCol.toNat ≤ i ∧ i < s.cursorRow.toNat * cols + cols
      · rw [if_pos (by omega), if_pos hin, if_pos (by omega)]
      · rw [if_neg (by omega), if_neg hin]

/-- What `DCH` makes of them. -/
theorem cells_deleteCells (h : Sound True cols rows s) (hw : s.NoWide) (n : UInt16) (i : Nat) :
    (s.deleteCells n).cells[i]? =
      if s.cursorRow.toNat * cols + s.cursorCol.toNat ≤ i ∧ i < s.cursorRow.toNat * cols + cols then
        if i + min n.toNat (cols - s.cursorCol.toNat) < s.cursorRow.toNat * cols + cols then
          s.cells[i + min n.toNat (cols - s.cursorCol.toNat)]?
        else some (Cell.blank s.penBg)
      else s.cells[i]? := by
  have hcur := h.cursorCol_lt
  have hspan := row_span_le cols h.cursorRow_lt
  have hlen := h.length_cells
  rw [deleteCells]
  dsimp only
  rw [toNat_room h, idx_zero h, h.cols_eq, smashCols_of_noWide h hw]
  have hm : min n.toNat (cols - s.cursorCol.toNat) ≤ cols - s.cursorCol.toNat := Nat.min_le_right _ _
  generalize min n.toNat (cols - s.cursorCol.toNat) = m at hm ⊢
  by_cases hzero : m = 0
  · subst hzero
    rw [if_pos rfl]
    split
    · rw [if_pos (by omega), Nat.add_zero]
    · rfl
  · rw [if_neg hzero, cells_dirty]
    refine (getElem?_fillCells ?_ _ _).trans ?_
    · split
      · rw [show (s.copyWithin _ _ _).cells.length = s.cells.length from List.length_mapIdx]
        omega
      · omega
    by_cases hmoves : s.cursorCol.toNat + m < cols
    · rw [if_pos hmoves, getElem?_copyWithin (by omega) (by omega)]
      by_cases hin : s.cursorRow.toNat * cols + s.cursorCol.toNat ≤ i ∧ i < s.cursorRow.toNat * cols + cols
      · rw [if_pos hin]
        by_cases hkept : i + m < s.cursorRow.toNat * cols + cols
        · rw [if_neg (by omega), if_pos hkept, if_pos (by omega)]
          exact congrArg (s.cells[·]?) (by omega)
        · rw [if_pos (by omega), if_neg hkept]
          rfl
      · rw [if_neg (by omega), if_neg hin, if_neg (by omega)]
    · rw [if_neg hmoves]
      by_cases hin : s.cursorRow.toNat * cols + s.cursorCol.toNat ≤ i ∧ i < s.cursorRow.toNat * cols + cols
      · rw [if_pos (by omega), if_pos hin, if_neg (by omega)]
      · rw [if_neg (by omega), if_neg hin]

theorem rowList_insertCells (h : Sound True cols rows s) (n : UInt16) :
    (s.insertCells n).rowList = s.rowList.set s.cursorRow.toNat
      (((s.rowCells s.cursorRow.toNat).take s.cursorCol.toNat ++
        (List.replicate (min n.toNat (cols - s.cursorCol.toNat)) (Cell.blank s.penBg) ++
          (s.rowCells s.cursorRow.toNat).drop s.cursorCol.toNat)).take cols) := by
  have hcur := h.cursorCol_lt
  have hline := length_rowCells h h.cursorRow_lt
  refine rowList_eq_set h (h.insertCells n) h.cursorRow_lt ?_ (fun c hc => ?_) fun i hi => ?_
  · rw [List.length_take, List.length_append, List.length_append, List.length_take,
      List.length_replicate, List.length_drop]
    omega
  · rw [cells_insertCells h, List.getElem?_take_of_lt hc, getElem?_take_append (by omega),
      getElem?_replicate_append, List.getElem?_drop, ← getElem?_rowCells_lt h hc]
    by_cases hleft : c < s.cursorCol.toNat
    · rw [if_neg (by omega), if_pos hleft]
    · rw [if_pos (by omega), if_neg hleft]
      by_cases hblank : c < s.cursorCol.toNat + min n.toNat (cols - s.cursorCol.toNat)
      · rw [if_pos (by omega), if_pos (by omega)]
      · rw [if_neg (by omega), if_neg (by omega), getElem?_rowCells_lt h (by omega)]
        exact congrArg (s.cells[·]?) (by omega)
  · rw [cells_insertCells h, if_neg (by omega)]

theorem rowList_deleteCells (h : Sound True cols rows s) (hw : s.NoWide) (n : UInt16) :
    (s.deleteCells n).rowList = s.rowList.set s.cursorRow.toNat
      ((s.rowCells s.cursorRow.toNat).take s.cursorCol.toNat ++
        ((s.rowCells s.cursorRow.toNat).drop
            (s.cursorCol.toNat + min n.toNat (cols - s.cursorCol.toNat)) ++
          List.replicate (min n.toNat (cols - s.cursorCol.toNat)) (Cell.blank s.penBg))) := by
  have hcur := h.cursorCol_lt
  have hline := length_rowCells h h.cursorRow_lt
  refine rowList_eq_set h (h.deleteCells n) h.cursorRow_lt ?_ (fun c hc => ?_) fun i hi => ?_
  · rw [List.length_append, List.length_append, List.length_take, List.length_replicate,
      List.length_drop]
    omega
  · rw [cells_deleteCells h hw, getElem?_take_append (by omega), ← getElem?_rowCells_lt h hc]
    by_cases hleft : c < s.cursorCol.toNat
    · rw [if_neg (by omega), if_pos hleft]
    · rw [if_pos (by omega), if_neg hleft]
      by_cases hkept : c + min n.toNat (cols - s.cursorCol.toNat) < cols
      · rw [if_pos (by omega), List.getElem?_append_left (by rw [List.length_drop]; omega),
          List.getElem?_drop, getElem?_rowCells_lt h (by omega)]
        exact congrArg (s.cells[·]?) (by omega)
      · rw [if_neg (by omega), List.getElem?_append_right (by rw [List.length_drop]; omega),
          List.getElem?_replicate_of_lt (by rw [List.length_drop]; omega)]
  · rw [cells_deleteCells h hw, if_neg (by omega)]

/-- On a grid without wide glyphs ICH inserts blanks at the cursor and cuts the row,
DCH deletes cells and pads it, ECH blanks cells in place, and ED and EL blank their
span, each as many as fit; nothing else changes. -/
theorem cells_shift (h : Sound True cols rows s) (hw : s.NoWide) (params : List UInt16) :
    let row := s.cursorRow.toNat
    let col := s.cursorCol.toNat
    let line := s.rowCells row
    let n := min (csiN params 0 1).toNat (cols - col)
    let blanks := List.replicate n (Cell.blank s.penBg)
    let inserted := s.csiDispatch params '@'
    let deleted := s.csiDispatch params 'P'
    let erased := s.csiDispatch params 'X'
    let display := s.csiDispatch params 'J'
    let inLine := s.csiDispatch params 'K'
    (inserted.rowList = s.rowList.set row ((line.take col ++ (blanks ++ line.drop col)).take cols) ∧
      Edits s inserted) ∧
    (deleted.rowList = s.rowList.set row (line.take col ++ (line.drop (col + n) ++ blanks)) ∧
      Edits s deleted) ∧
    (erased.rowList = s.rowList.set row (line.take col ++ (blanks ++ line.drop (col + n))) ∧
      Edits s erased) ∧
    ((∀ r < rows, ∀ c < cols, (display.rowCells r)[c]? =
      if s.displaySpan (csiN params 0 0) c r then some (Cell.blank s.penBg) else (s.rowCells r)[c]?) ∧
      Edits s display) ∧
    ((∀ r < rows, ∀ c < cols, (inLine.rowCells r)[c]? =
      if s.lineSpan (csiN params 0 0) c r then some (Cell.blank s.penBg) else (s.rowCells r)[c]?) ∧
      Edits s inLine) :=
  ⟨⟨rowList_insertCells h _, Edits.insertCells s _⟩, ⟨rowList_deleteCells h hw _, Edits.deleteCells s _⟩,
    ⟨rowList_eraseChars h hw _, Edits.eraseSpan s _ _⟩,
    ⟨fun _ hr _ hc => rowCells_eraseDisplay h hw _ hc hr, Edits.eraseDisplay s _⟩,
    ⟨fun _ _ _ hc => rowCells_eraseLine h hw _ hc, Edits.eraseLine s _⟩⟩

/-- A blank inserted at the first column of a row with a letter in it. -/
theorem cells_shift_insert :
    let s := (((Screen.new 2 1).toOption.get rfl).print 'A').execute 0x0d
    (s.csiDispatch [1] '@').rowList = [[Cell.blank .default, ⟨65, .default, .default, 0⟩]] := by
  have hnew : Sound True 2 1 ((Screen.new 2 1).toOption.get rfl) :=
    sound_new (show Screen.new 2 1 = .ok _ from rfl)
  have h := cells_shift ((hnew.writeChar 'A').execute 0x0d) (by decide) [1]
  exact h.1.1.trans (by decide)

end Screen

end Rill.Vt
