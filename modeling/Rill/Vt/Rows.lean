import Rill.Lib.Segment
import Rill.Vt.Line
import Rill.Vt.Sound

/-!
# Rows

The grid as the list of its rows. Scrolling and the insertion and deletion of
lines shift blank rows into a segment of it.
-/

namespace Rill.Vt

open Lib

theorem row_start_le_iff {c cols j r : Nat} (hc : c < cols) : r * cols ≤ j * cols + c ↔ r ≤ j := by
  refine ⟨fun h => ?_, fun h => ?_⟩
  · by_contra hlt
    have hspan := Nat.mul_le_mul_right cols (Nat.not_le.mp hlt)
    rw [Nat.succ_mul] at hspan
    omega
  · have hspan := Nat.mul_le_mul_right cols h
    omega

theorem lt_row_end_iff {c cols j r : Nat} (hc : c < cols) : j * cols + c < r * cols + cols ↔ j ≤ r := by
  rw [← Nat.succ_mul, ← not_iff_not, Nat.not_lt, row_start_le_iff hc]
  omega

theorem in_row_iff {c cols j r : Nat} (hc : c < cols) :
    (r * cols ≤ j * cols + c ∧ j * cols + c < r * cols + cols) ↔ j = r := by
  rw [row_start_le_iff hc, lt_row_end_iff hc]
  omega

namespace Screen

variable {s t u : Screen}

def rowList (s : Screen) : List (List Cell) := (List.range s.rows.toNat).map s.rowCells

def blankLine (s : Screen) : List Cell := List.replicate s.cols.toNat (Cell.blank s.penBg)

-- ---------------------------------------------------------------------------
-- What editing leaves alone
-- ---------------------------------------------------------------------------

/-- `t` is `s` but for the cells, the damage and the rows scrolled off. -/
def Edits (s t : Screen) : Prop :=
  { s with
    cells := t.cells
    fullDamage := t.fullDamage
    damageRow0 := t.damageRow0
    damageRow1 := t.damageRow1
    scrolledOff := t.scrolledOff
    panicked := t.panicked } = t

namespace Edits

theorem refl (s : Screen) : Edits s s := rfl

theorem trans (h : Edits s t) (k : Edits t u) : Edits s u := by
  unfold Edits at h k ⊢
  rw [← k, ← h]

theorem ite {c : Prop} [Decidable c] (h : Edits s t) (k : Edits s u) :
    Edits s (if c then t else u) := by
  split
  case isTrue => exact h
  case isFalse => exact k

theorem foldl {f : Screen → α → Screen} (hf : ∀ t a, Edits t (f t a)) (l : List α) (s : Screen) :
    Edits s (l.foldl f s) :=
  List.foldlRecOn l f (refl s) fun t h a _ => h.trans (hf t a)

theorem iterate {f : Screen → Screen} (hf : ∀ t, Edits t (f t)) (s : Screen) (n : Nat) :
    Edits s (n.repeat f s) :=
  repeat_keeps (fun t h => h.trans (hf t)) (refl s) n

theorem congr (h : Edits s t) (g : Screen → α)
    (hg : ∀ s cells full row0 row1 off panicked, g { s with
      cells, fullDamage := full, damageRow0 := row0, damageRow1 := row1, scrolledOff := off, panicked } =
        g s) : g t = g s := by
  rw [← h]
  exact hg _ _ _ _ _ _ _

theorem cols (h : Edits s t) : t.cols = s.cols := h.congr Screen.cols fun _ _ _ _ _ _ _ => rfl

theorem penBg (h : Edits s t) : t.penBg = s.penBg := h.congr Screen.penBg fun _ _ _ _ _ _ _ => rfl

theorem scrollTop (h : Edits s t) : t.scrollTop = s.scrollTop :=
  h.congr Screen.scrollTop fun _ _ _ _ _ _ _ => rfl

theorem scrollBottom (h : Edits s t) : t.scrollBottom = s.scrollBottom :=
  h.congr Screen.scrollBottom fun _ _ _ _ _ _ _ => rfl

theorem inAlt (h : Edits s t) : t.inAlt = s.inAlt := h.congr Screen.inAlt fun _ _ _ _ _ _ _ => rfl

theorem copyRow (s : Screen) (src r : Nat) : Edits s (s.copyRow src r) := rfl

theorem copyRows (s : Screen) (moves : List (Nat × Nat)) : Edits s (s.copyRows moves) := by
  unfold Screen.copyRows
  refine foldl (fun t move => ?_) moves s
  exact copyRow t move.1 move.2

theorem blankRow (s : Screen) (r : Nat) : Edits s (s.blankRow r) := rfl

theorem blankRows (s : Screen) (first n : Nat) : Edits s (s.blankRows first n) :=
  foldl (fun t r => blankRow t r) _ s

theorem retireRow (s : Screen) (r : Nat) : Edits s (s.retireRow r) := ite rfl rfl

theorem dirty (s : Screen) (r : UInt16) : Edits s (s.dirty r) := ite rfl (ite rfl rfl)

theorem dirtyRows (s : Screen) (first last : Nat) : Edits s (s.dirtyRows first last) :=
  foldl (fun t r => dirty t (UInt16.ofNat r)) _ s

theorem scrollUp (s : Screen) : Edits s s.scrollUp :=
  (((retireRow s _).trans (copyRows _ _)).trans (blankRow _ _)).trans rfl

theorem scrollDown (s : Screen) : Edits s s.scrollDown := ((copyRows s _).trans (blankRow _ _)).trans rfl

end Edits

-- ---------------------------------------------------------------------------
-- Cells
-- ---------------------------------------------------------------------------

variable {strict : Prop} {cols rows : Nat}

theorem getElem?_copyWithin {lo hi dst : Nat} (hhi : hi ≤ s.cells.length)
    (hdst : dst + (hi - lo) ≤ s.cells.length) (i : Nat) :
    (s.copyWithin lo hi dst).cells[i]? =
      if dst ≤ i ∧ i < dst + (hi - lo) then s.cells[lo + (i - dst)]? else s.cells[i]? := by
  have hmap : (s.copyWithin lo hi dst).cells[i]? = (s.cells[i]?).map fun cell =>
      if dst ≤ i ∧ i < dst + (hi - lo) then s.cellAt (lo + (i - dst)) else cell :=
    List.getElem?_mapIdx
  rw [hmap]
  split
  case isTrue h =>
    have hsome : s.cells[lo + (i - dst)]? = some (s.cellAt (lo + (i - dst))) := by
      rw [cellAt, List.getD_eq_getElem?_getD, List.getElem?_eq_getElem (by omega)]
      rfl
    rw [List.getElem?_eq_getElem (by omega), hsome]
    rfl
  case isFalse => exact Option.map_id'

theorem getElem?_fillCells {lo hi : Nat} (hhi : hi ≤ s.cells.length) (c : Cell) (i : Nat) :
    (s.fillCells lo hi c).cells[i]? = if lo ≤ i ∧ i < hi then some c else s.cells[i]? := by
  have hmap : (s.fillCells lo hi c).cells[i]? = (s.cells[i]?).map fun cell =>
      if lo ≤ i ∧ i < hi then c else cell := List.getElem?_mapIdx
  rw [hmap]
  split
  case isTrue h =>
    rw [List.getElem?_eq_getElem (by omega)]
    rfl
  case isFalse => exact Option.map_id'

theorem getElem?_rowCells (s : Screen) (r c : Nat) :
    (s.rowCells r)[c]? = if c < s.cols.toNat then s.cells[r * s.cols.toNat + c]? else none := by
  rw [rowCells]
  split
  case isTrue h => rw [List.getElem?_take_of_lt h, List.getElem?_drop]
  case isFalse h => rw [List.getElem?_take_eq_none (Nat.not_lt.mp h)]

theorem length_rowCells (h : Sound strict cols rows s) {r : Nat} (hr : r < rows) :
    (s.rowCells r).length = cols := by
  have hspan := row_span_le cols hr
  rw [rowCells, List.length_take, List.length_drop, h.cols_eq, h.length_cells]
  omega

theorem rowCells_congr (hcells : t.cells = s.cells) (hcols : t.cols = s.cols) (r : Nat) :
    t.rowCells r = s.rowCells r := by
  rw [rowCells, rowCells, hcells, hcols]

theorem cells_dirtyRows (s : Screen) (first last : Nat) : (s.dirtyRows first last).cells = s.cells := by
  unfold dirtyRows
  induction List.range' first (last + 1 - first) generalizing s with
  | nil => rfl
  | cons r l ih =>
    refine (ih (s.dirty (UInt16.ofNat r))).trans ?_
    unfold dirty
    split
    · rfl
    · split <;> rfl

-- ---------------------------------------------------------------------------
-- Rows
-- ---------------------------------------------------------------------------

theorem rowCells_copyRow (h : Sound strict cols rows s) {src r j : Nat} (hsrc : src < rows) (hr : r < rows) :
    (s.copyRow src r).rowCells j = if j = r then s.rowCells src else s.rowCells j := by
  have hspan := row_span_le cols hr
  have hsrc := row_span_le cols hsrc
  refine List.ext_getElem? fun c => ?_
  rw [getElem?_rowCells]
  change (if c < s.cols.toNat then _ else _) = _
  by_cases hc : c < s.cols.toNat
  · rw [if_pos hc]
    change (s.copyWithin _ _ _).cells[j * s.cols.toNat + c]? = _
    rw [h.cols_eq] at hc ⊢
    rw [getElem?_copyWithin (by rw [h.length_cells]; exact hsrc) (by rw [h.length_cells]; omega),
      Nat.add_sub_cancel_left]
    by_cases hj : j = r
    · rw [if_pos ((in_row_iff hc).mpr hj), if_pos hj, getElem?_rowCells, h.cols_eq, if_pos hc, hj,
        Nat.add_sub_cancel_left]
    · rw [if_neg (fun hin => hj ((in_row_iff hc).mp hin)), if_neg hj, getElem?_rowCells, h.cols_eq,
        if_pos hc]
  · rw [if_neg hc]
    split
    all_goals rw [getElem?_rowCells, if_neg hc]

theorem rowCells_blankRow (h : Sound strict cols rows s) {r j : Nat} (hr : r < rows) :
    (s.blankRow r).rowCells j = if j = r then s.blankLine else s.rowCells j := by
  have hspan := row_span_le cols hr
  refine List.ext_getElem? fun c => ?_
  rw [getElem?_rowCells]
  change (if c < s.cols.toNat then _ else _) = _
  by_cases hc : c < s.cols.toNat
  · rw [if_pos hc]
    change (s.fillCells _ _ _).cells[j * s.cols.toNat + c]? = _
    rw [h.cols_eq, getElem?_fillCells (by rw [h.length_cells]; exact hspan)]
    rw [h.cols_eq] at hc
    by_cases hj : j = r
    · rw [if_pos ((in_row_iff hc).mpr hj), if_pos hj, blankLine, h.cols_eq,
        List.getElem?_replicate_of_lt hc]
    · rw [if_neg (fun hin => hj ((in_row_iff hc).mp hin)), if_neg hj, getElem?_rowCells, h.cols_eq,
        if_pos hc]
  · rw [if_neg hc]
    split
    · rw [blankLine, List.getElem?_eq_none (by rw [List.length_replicate]; omega)]
    · rw [getElem?_rowCells, if_neg hc]

/-- Rows copied up, from the top one on, come from where they were. -/
theorem rowCells_copyUp (h : Sound strict cols rows s) {first k n : Nat} (hn : first + k + n ≤ rows) (j : Nat) :
    (s.copyRows ((List.range' first k).map fun r => (r + n, r))).rowCells j =
      if first ≤ j ∧ j < first + k then s.rowCells (j + n) else s.rowCells j := by
  induction k generalizing j with
  | zero => rw [if_neg (by omega)]; rfl
  | succ k ih =>
    have hsound : Sound strict cols rows (s.copyRows ((List.range' first k).map fun r => (r + n, r))) := by
      refine h.copyRows fun m hm => ?_
      obtain ⟨r, hr, rfl⟩ := List.mem_map.mp hm
      rw [List.mem_range'_1] at hr
      dsimp only
      omega
    have hlast : s.copyRows ((List.range' first (k + 1)).map fun r => (r + n, r)) =
        (s.copyRows ((List.range' first k).map fun r => (r + n, r))).copyRow (first + k + n) (first + k) := by
      rw [List.range'_1_concat, List.map_append, copyRows, List.foldl_append]
      rfl
    rw [hlast, rowCells_copyRow hsound (by omega) (by omega), ih (by omega), ih (by omega)]
    by_cases hj : j = first + k
    · rw [if_pos hj, if_neg (by omega), if_pos (by omega), hj]
    · rw [if_neg hj]
      exact if_congr (by omega) rfl rfl

/-- Rows copied down, from the bottom one on, come from where they were. -/
theorem rowCells_copyDown (h : Sound strict cols rows s) {first k n : Nat} (hn : first + k + n ≤ rows)
    (hpos : 0 < n) (j : Nat) :
    (s.copyRows ((List.range' first k).reverse.map fun r => (r, r + n))).rowCells j =
      if first + n ≤ j ∧ j < first + n + k then s.rowCells (j - n) else s.rowCells j := by
  induction k generalizing first j with
  | zero => rw [if_neg (by omega)]; rfl
  | succ k ih =>
    have hsound : Sound strict cols rows
        (s.copyRows ((List.range' (first + 1) k).reverse.map fun r => (r, r + n))) := by
      refine h.copyRows fun m hm => ?_
      obtain ⟨r, hr, rfl⟩ := List.mem_map.mp hm
      rw [List.mem_reverse, List.mem_range'_1] at hr
      dsimp only
      omega
    have hlast : s.copyRows ((List.range' first (k + 1)).reverse.map fun r => (r, r + n)) =
        (s.copyRows ((List.range' (first + 1) k).reverse.map fun r => (r, r + n))).copyRow first
          (first + n) := by
      rw [List.range'_succ, List.reverse_cons, List.map_append, copyRows, List.foldl_append]
      rfl
    rw [hlast, rowCells_copyRow hsound (by omega) (by omega), ih (by omega), ih (by omega)]
    by_cases hj : j = first + n
    · rw [if_pos hj, if_neg (by omega), if_pos (by omega), hj, Nat.add_sub_cancel]
    · rw [if_neg hj]
      exact if_congr (by omega) rfl rfl

theorem rowCells_blankRows (h : Sound strict cols rows s) {first n : Nat} (hn : first + n ≤ rows) (j : Nat) :
    (s.blankRows first n).rowCells j = if first ≤ j ∧ j < first + n then s.blankLine else s.rowCells j := by
  induction n with
  | zero => rw [if_neg (by omega)]; rfl
  | succ n ih =>
    have hlast : s.blankRows first (n + 1) = (s.blankRows first n).blankRow (first + n) := by
      rw [blankRows, List.range'_1_concat, List.foldl_append]
      rfl
    have hedits := Edits.blankRows s first n
    have hblank : (s.blankRows first n).blankLine = s.blankLine := by
      rw [blankLine, blankLine, hedits.cols, hedits.penBg]
    rw [hlast, rowCells_blankRow (h.blankRows (by omega)) (by omega), ih (by omega), hblank]
    by_cases hj : j = first + n
    · rw [if_pos hj, if_pos (by omega)]
    · rw [if_neg hj]
      exact if_congr (by omega) rfl rfl

-- ---------------------------------------------------------------------------
-- Segments of the grid
-- ---------------------------------------------------------------------------

theorem length_rowList (h : Sound strict cols rows s) : s.rowList.length = rows := by
  rw [rowList, List.length_map, List.length_range, h.rows_eq]

theorem getElem?_rowList (h : Sound strict cols rows s) {j : Nat} (hj : j < rows) :
    s.rowList[j]? = some (s.rowCells j) := by
  rw [rowList, List.getElem?_map, List.getElem?_range (by rw [h.rows_eq]; exact hj)]
  rfl

theorem rowList_eq_onSegment (h : Sound strict cols rows s) (ht : Sound strict cols rows t) {lo k : Nat}
    (hlo : lo + k ≤ rows) {f : List (List Cell) → List (List Cell)}
    (hf : ∀ seg : List (List Cell), (f seg).length = seg.length)
    (hin : ∀ i < k, (f ((s.rowList.drop lo).take k))[i]? = some (t.rowCells (lo + i)))
    (hout : ∀ j < rows, j < lo ∨ lo + k ≤ j → t.rowCells j = s.rowCells j) :
    t.rowList = onSegment lo k f s.rowList := by
  have hlen := length_rowList h
  refine List.ext_getElem? fun j => ?_
  rw [getElem?_onSegment (by omega) hf]
  by_cases hj : j < rows
  · rw [getElem?_rowList ht hj]
    split
    case isTrue hseg =>
      rw [hin (j - lo) (by omega), Nat.add_sub_cancel' hseg.1]
    case isFalse hseg =>
      rw [getElem?_rowList h hj, hout j hj (by omega)]
  · rw [if_neg (by omega), List.getElem?_eq_none (by rw [length_rowList ht]; omega),
      List.getElem?_eq_none (by omega)]

theorem getElem?_segment (h : Sound strict cols rows s) {lo k i : Nat} (hlo : lo + k ≤ rows) (hi : i < k) :
    ((s.rowList.drop lo).take k)[i]? = some (s.rowCells (lo + i)) := by
  rw [List.getElem?_take_of_lt hi, List.getElem?_drop, getElem?_rowList h (by omega)]

-- ---------------------------------------------------------------------------
-- Scrolling
-- ---------------------------------------------------------------------------

theorem rowCells_scrollUp (h : Sound True cols rows s) (j : Nat) :
    s.scrollUp.rowCells j =
      if j = s.scrollBottom.toNat then s.blankLine
      else if s.scrollTop.toNat ≤ j ∧ j < s.scrollBottom.toNat then s.rowCells (j + 1)
      else s.rowCells j := by
  have hle := h.region_le trivial
  have hlt := h.bottom_lt
  have hretired := Edits.retireRow s s.scrollTop.toNat
  have hmoved := hretired.trans (Edits.copyRows _
    ((List.range' s.scrollTop.toNat (s.scrollBottom.toNat - s.scrollTop.toNat)).map fun r => (r + 1, r)))
  have hsame : ∀ j, (s.retireRow s.scrollTop.toNat).rowCells j = s.rowCells j := by
    refine fun j => rowCells_congr ?_ hretired.cols j
    unfold retireRow
    dsimp only
    split <;> rfl
  have hblank : ((s.retireRow s.scrollTop.toNat).copyRows ((List.range' s.scrollTop.toNat
      (s.scrollBottom.toNat - s.scrollTop.toNat)).map fun r => (r + 1, r))).blankLine = s.blankLine := by
    rw [blankLine, blankLine, hmoved.cols, hmoved.penBg]
  change (((s.retireRow s.scrollTop.toNat).copyRows _).blankRow s.scrollBottom.toNat).rowCells j = _
  rw [rowCells_blankRow ((h.retireRow h.top_lt).copyRows h.scrollUp_moves) h.bottom_lt, hblank,
    rowCells_copyUp (h.retireRow h.top_lt) (by omega), Nat.add_sub_cancel' hle, hsame, hsame]

theorem rowCells_scrollDown (h : Sound True cols rows s) (j : Nat) :
    s.scrollDown.rowCells j =
      if j = s.scrollTop.toNat then s.blankLine
      else if s.scrollTop.toNat < j ∧ j ≤ s.scrollBottom.toNat then s.rowCells (j - 1)
      else s.rowCells j := by
  have hle := h.region_le trivial
  have hlt := h.bottom_lt
  have hmoves : (List.range' (s.scrollTop.toNat + 1)
      (s.scrollBottom.toNat - s.scrollTop.toNat)).reverse.map (fun r => (r - 1, r)) =
      (List.range' s.scrollTop.toNat
        (s.scrollBottom.toNat - s.scrollTop.toNat)).reverse.map fun r => (r, r + 1) := by
    rw [List.range'_succ_left, ← List.map_reverse, List.map_map]
    rfl
  have hmoved := Edits.copyRows s
    ((List.range' s.scrollTop.toNat (s.scrollBottom.toNat - s.scrollTop.toNat)).reverse.map
      fun r => (r, r + 1))
  have hblank : (s.copyRows ((List.range' s.scrollTop.toNat
      (s.scrollBottom.toNat - s.scrollTop.toNat)).reverse.map fun r => (r, r + 1))).blankLine =
      s.blankLine := by
    rw [blankLine, blankLine, hmoved.cols, hmoved.penBg]
  have hsound := h.copyRows h.scrollDown_moves
  rw [hmoves] at hsound
  change ((s.copyRows _).blankRow s.scrollTop.toNat).rowCells j = _
  rw [hmoves, rowCells_blankRow hsound h.top_lt, hblank, rowCells_copyDown h (by omega) Nat.one_pos]
  refine if_congr Iff.rfl rfl (if_congr ?_ rfl rfl)
  omega

theorem rowList_scrollUp (h : Sound True cols rows s) :
    s.scrollUp.rowList = onSegment s.scrollTop.toNat (s.scrollBottom.toNat + 1 - s.scrollTop.toNat)
      (shiftLeft 1 s.blankLine) s.rowList := by
  have hle := h.region_le trivial
  have hlt := h.bottom_lt
  have hlen := length_rowList h
  refine rowList_eq_onSegment h h.scrollUp (by omega) (length_shiftLeft _ _) (fun i hi => ?_)
    fun j hj hout => ?_
  · rw [getElem?_shiftLeft (by rw [length_segment (by omega)]; exact hi), length_segment (by omega),
      rowCells_scrollUp h]
    by_cases hlast : i + 1 < s.scrollBottom.toNat + 1 - s.scrollTop.toNat
    · rw [if_pos hlast, getElem?_segment h (by omega) hlast, if_neg (by omega), if_pos (by omega),
        Nat.add_assoc]
    · rw [if_neg hlast, if_pos (by omega)]
  · rw [rowCells_scrollUp h, if_neg (by omega), if_neg (by omega)]

theorem rowList_scrollDown (h : Sound True cols rows s) :
    s.scrollDown.rowList = onSegment s.scrollTop.toNat (s.scrollBottom.toNat + 1 - s.scrollTop.toNat)
      (shiftRight 1 s.blankLine) s.rowList := by
  have hle := h.region_le trivial
  have hlt := h.bottom_lt
  have hlen := length_rowList h
  refine rowList_eq_onSegment h h.scrollDown (by omega) (length_shiftRight _ _) (fun i hi => ?_)
    fun j hj hout => ?_
  · rw [getElem?_shiftRight (by rw [length_segment (by omega)]; exact hi), rowCells_scrollDown h]
    by_cases hfirst : i < 1
    · rw [if_pos hfirst, if_pos (by omega)]
    · rw [if_neg hfirst, getElem?_segment h (by omega) (by omega), if_neg (by omega), if_pos (by omega),
        Nat.add_sub_assoc (by omega)]
  · rw [rowCells_scrollDown h, if_neg (by omega), if_neg (by omega)]

theorem blankLine_of_edits (h : Edits s t) : t.blankLine = s.blankLine := by
  rw [blankLine, blankLine, h.cols, h.penBg]

theorem rowList_repeat {f : Screen → Screen} {shift : Nat → List Cell → List (List Cell) → List (List Cell)}
    (hedits : ∀ s, Edits s (f s))
    (hsound : ∀ s, Sound True cols rows s → Sound True cols rows (f s))
    (hlen : ∀ n a l, (shift n a l).length = l.length) (hzero : ∀ a l, shift 0 a l = l)
    (hsucc : ∀ n a l, shift 1 a (shift n a l) = shift (n + 1) a l)
    (hone : ∀ s, Sound True cols rows s → (f s).rowList =
      onSegment s.scrollTop.toNat (s.scrollBottom.toNat + 1 - s.scrollTop.toNat) (shift 1 s.blankLine)
        s.rowList)
    (h : Sound True cols rows s) (n : Nat) :
    (n.repeat f s).rowList =
      onSegment s.scrollTop.toNat (s.scrollBottom.toNat + 1 - s.scrollTop.toNat) (shift n s.blankLine)
        s.rowList := by
  have hle := h.region_le trivial
  have hlt := h.bottom_lt
  have hrows := length_rowList h
  induction n with
  | zero =>
    refine rowList_eq_onSegment h h (by omega) (hlen _ _) (fun i hi => ?_) fun _ _ _ => rfl
    rw [hzero, getElem?_segment h (by omega) hi]
  | succ n ih =>
    have hkept := Edits.iterate hedits s n
    change (f (n.repeat f s)).rowList = _
    rw [hone _ (h.iterate hsound n), ih, blankLine_of_edits hkept, hkept.scrollTop, hkept.scrollBottom,
      onSegment_onSegment (by omega) (hlen _ _)]
    exact congrArg (fun g => onSegment _ _ g _) (funext fun seg => hsucc n _ seg)

theorem scrolledOff_copyRows (s : Screen) (moves : List (Nat × Nat)) :
    (s.copyRows moves).scrolledOff = s.scrolledOff := by
  unfold copyRows
  induction moves generalizing s with
  | nil => rfl
  | cons m moves ih => exact ih (s.copyRow m.1 m.2)

/-- Of the region at the top of the primary screen the rows that leave are reported. -/
theorem scrolledOff_scrollUp (h : Sound True cols rows s) :
    s.scrollUp.scrolledOff =
      s.scrolledOff ++ if s.inAlt = false ∧ s.scrollTop.toNat = 0 then [s.rowCells 0] else [] := by
  have hcols := h.cols_pos
  change ((s.retireRow s.scrollTop.toNat).copyRows _).scrolledOff = _
  rw [scrolledOff_copyRows, retireRow]
  dsimp only
  rw [h.cols_eq]
  by_cases halt : s.inAlt = false
  · by_cases htop : s.scrollTop.toNat = 0
    · rw [if_pos (by simp [halt, htop, hcols]), if_pos ⟨halt, htop⟩, htop, rowCells, h.cols_eq]
    · rw [if_neg (by simp [htop]), if_neg (fun hc => htop hc.2), List.append_nil]
  · rw [if_neg (by simp [halt]), if_neg (fun hc => halt hc.1), List.append_nil]

theorem scrolledOff_repeat (h : Sound True cols rows s) (n : Nat) :
    (n.repeat scrollUp s).scrolledOff =
      s.scrolledOff ++ if s.inAlt = false ∧ s.scrollTop.toNat = 0 then
        driven n s.blankLine (s.rowList.take (s.scrollBottom.toNat + 1))
      else [] := by
  have hlt := h.bottom_lt
  have hrows := length_rowList h
  by_cases hc : s.inAlt = false ∧ s.scrollTop.toNat = 0
  · rw [if_pos hc]
    induction n with
    | zero => rw [driven, List.take_zero, List.append_nil]; rfl
    | succ n ih =>
      have hkept := Edits.iterate Edits.scrollUp s n
      have hsound := h.iterate (fun _ h => h.scrollUp) n
      have hlist := rowList_repeat Edits.scrollUp (fun _ h => h.scrollUp) length_shiftLeft shiftLeft_zero
        shiftLeft_succ (fun _ h => rowList_scrollUp h) h n
      rw [hc.2, onSegment, List.take_zero, List.nil_append, List.drop_zero, Nat.sub_zero, Nat.zero_add]
        at hlist
      have hfirst : [(n.repeat scrollUp s).rowCells 0] =
          (shiftLeft n s.blankLine (s.rowList.take (s.scrollBottom.toNat + 1))).take 1 := by
        have hhead : (n.repeat scrollUp s).rowList.take 1 = [(n.repeat scrollUp s).rowCells 0] := by
          rw [List.take_one, List.head?_eq_getElem?, getElem?_rowList hsound h.rows_pos]
          rfl
        rw [← hhead, hlist, List.take_append_of_le_length]
        rw [length_shiftLeft, List.length_take]
        omega
      change (n.repeat scrollUp s).scrollUp.scrolledOff = _
      rw [scrolledOff_scrollUp hsound, hkept.inAlt, hkept.scrollTop, if_pos hc, ih, hfirst,
        List.append_assoc, driven_succ]
      intro hnil
      have hlen := congrArg List.length hnil
      rw [List.length_take, List.length_nil] at hlen
      omega
  · rw [if_neg hc, List.append_nil]
    induction n with
    | zero => rfl
    | succ n ih =>
      have hkept := Edits.iterate Edits.scrollUp s n
      change (n.repeat scrollUp s).scrollUp.scrolledOff = _
      rw [scrolledOff_scrollUp (h.iterate (fun _ h => h.scrollUp) n), hkept.inAlt, hkept.scrollTop,
        if_neg hc, List.append_nil, ih]

-- ---------------------------------------------------------------------------
-- Inserting and deleting lines
-- ---------------------------------------------------------------------------

def inRegion (s : Screen) : Prop := s.scrollTop ≤ s.cursorRow ∧ s.cursorRow ≤ s.scrollBottom

theorem lineCount_eq_some (h : Sound True cols rows s) (hin : s.inRegion) {n : UInt16} (hn : 0 < n.toNat) :
    s.lineCount n = some (min n.toNat (s.scrollBottom.toNat + 1 - s.cursorRow.toNat)) := by
  obtain ⟨htop, hbot⟩ := hin
  have hlt := h.bottom_lt
  have hrows := h.rows_eq
  have hle := UInt16.le_iff_toNat_le.mp hbot
  have hroom : (satSub16 s.scrollBottom s.cursorRow + 1).toNat =
      s.scrollBottom.toNat - s.cursorRow.toNat + 1 := by
    rw [toNat_succ16 (b := s.rows) (by rw [toNat_satSub16]; omega), toNat_satSub16]
  have hmin : (min n (satSub16 s.scrollBottom s.cursorRow + 1)).toNat =
      min n.toNat (s.scrollBottom.toNat + 1 - s.cursorRow.toNat) := by
    rw [toNat_min16, hroom]
    omega
  have hne : min n (satSub16 s.scrollBottom s.cursorRow + 1) ≠ 0 := by
    intro hzero
    have h0 := congrArg UInt16.toNat hzero
    rw [hmin, UInt16.toNat_zero] at h0
    omega
  have hout : ¬ (decide (s.cursorRow < s.scrollTop) || decide (s.cursorRow > s.scrollBottom)) = true := by
    simp only [Bool.or_eq_true, decide_eq_true_eq, not_or, UInt16.not_lt, gt_iff_lt]
    exact ⟨htop, hbot⟩
  rw [lineCount, if_neg hout]
  dsimp only
  rw [if_neg hne, hmin]

theorem lineCount_eq_none (hout : ¬ s.inRegion) (n : UInt16) : s.lineCount n = none := by
  rw [lineCount, if_pos]
  simp only [Bool.or_eq_true, decide_eq_true_eq, gt_iff_lt]
  by_cases htop : s.cursorRow < s.scrollTop
  · exact .inl htop
  · exact .inr (UInt16.not_le.mp fun hbot => hout ⟨UInt16.not_lt.mp htop, hbot⟩)

/-- The rows IL and DL move are those that stay in the region. -/
theorem moved_rows (first last m : Nat) :
    (if last ≥ first + m then List.range' first (last - m + 1 - first) else []) =
      List.range' first (last + 1 - first - m) := by
  split
  case isTrue h => exact congrArg (List.range' first) (by omega)
  case isFalse h =>
    rw [show last + 1 - first - m = 0 by omega]
    rfl

theorem rowList_copyDown (h : Sound True cols rows s) {first last m : Nat} (hm : 0 < m)
    (hle : first + m ≤ last + 1) (hlast : last < rows) :
    (((s.copyRows ((List.range' first (last + 1 - first - m)).reverse.map fun r =>
      (r, r + m))).blankRows first m).dirtyRows first last).rowList =
      onSegment first (last + 1 - first) (shiftRight m s.blankLine) s.rowList := by
  have hlen := length_rowList h
  have hmoved : Sound True cols rows
      (s.copyRows ((List.range' first (last + 1 - first - m)).reverse.map fun r => (r, r + m))) := by
    refine h.copyRows fun mv hmv => ?_
    obtain ⟨r, hr, rfl⟩ := List.mem_map.mp hmv
    rw [List.mem_reverse, List.mem_range'_1] at hr
    dsimp only
    omega
  have hblanked := hmoved.blankRows (show first + m ≤ rows by omega)
  have hrow : ∀ j, (((s.copyRows ((List.range' first (last + 1 - first - m)).reverse.map fun r =>
      (r, r + m))).blankRows first m).dirtyRows first last).rowCells j =
        if first ≤ j ∧ j < first + m then s.blankLine
        else if first + m ≤ j ∧ j < first + m + (last + 1 - first - m) then s.rowCells (j - m)
        else s.rowCells j := by
    intro j
    rw [rowCells_congr (cells_dirtyRows _ _ _) (Edits.dirtyRows _ _ _).cols,
      rowCells_blankRows hmoved (by omega), blankLine_of_edits (Edits.copyRows _ _),
      rowCells_copyDown h (by omega) hm]
  refine rowList_eq_onSegment h (hblanked.dirtyRows _ _) (by omega) (length_shiftRight _ _)
    (fun i hi => ?_) fun j hj hout => ?_
  · rw [getElem?_shiftRight (by rw [length_segment (by omega)]; exact hi), hrow]
    by_cases him : i < m
    · rw [if_pos him, if_pos (by omega)]
    · rw [if_neg him, getElem?_segment h (by omega) (by omega), if_neg (by omega), if_pos (by omega),
        Nat.add_sub_assoc (by omega)]
  · rw [hrow, if_neg (by omega), if_neg (by omega)]

theorem rowList_copyUp (h : Sound True cols rows s) {first last m : Nat}
    (hle : first + m ≤ last + 1) (hlast : last < rows) :
    (((s.copyRows ((List.range' first (last + 1 - first - m)).map fun r =>
      (r + m, r))).blankRows (last + 1 - m) m).dirtyRows first last).rowList =
      onSegment first (last + 1 - first) (shiftLeft m s.blankLine) s.rowList := by
  have hlen := length_rowList h
  have hmoved : Sound True cols rows
      (s.copyRows ((List.range' first (last + 1 - first - m)).map fun r => (r + m, r))) := by
    refine h.copyRows fun mv hmv => ?_
    obtain ⟨r, hr, rfl⟩ := List.mem_map.mp hmv
    rw [List.mem_range'_1] at hr
    dsimp only
    omega
  have hblanked := hmoved.blankRows (show last + 1 - m + m ≤ rows by omega)
  have hrow : ∀ j, (((s.copyRows ((List.range' first (last + 1 - first - m)).map fun r =>
      (r + m, r))).blankRows (last + 1 - m) m).dirtyRows first last).rowCells j =
        if last + 1 - m ≤ j ∧ j < last + 1 - m + m then s.blankLine
        else if first ≤ j ∧ j < first + (last + 1 - first - m) then s.rowCells (j + m)
        else s.rowCells j := by
    intro j
    rw [rowCells_congr (cells_dirtyRows _ _ _) (Edits.dirtyRows _ _ _).cols,
      rowCells_blankRows hmoved (by omega), blankLine_of_edits (Edits.copyRows _ _),
      rowCells_copyUp h (by omega)]
  refine rowList_eq_onSegment h (hblanked.dirtyRows _ _) (by omega) (length_shiftLeft _ _)
    (fun i hi => ?_) fun j hj hout => ?_
  · rw [getElem?_shiftLeft (by rw [length_segment (by omega)]; exact hi), length_segment (by omega), hrow]
    by_cases him : i + m < last + 1 - first
    · rw [if_pos him, getElem?_segment h (by omega) him, if_neg (by omega), if_pos (by omega),
        Nat.add_assoc]
    · rw [if_neg him, if_pos (by omega)]
  · rw [hrow, if_neg (by omega), if_neg (by omega)]

theorem rowList_insertLines (h : Sound True cols rows s) (hin : s.inRegion) {n : UInt16} (hn : 0 < n.toNat) :
    (s.insertLines n).rowList =
      onSegment s.cursorRow.toNat (s.scrollBottom.toNat + 1 - s.cursorRow.toNat)
        (shiftRight n.toNat s.blankLine) s.rowList := by
  have hrow := UInt16.le_iff_toNat_le.mp hin.2
  have hlt := h.bottom_lt
  rw [insertLines, lineCount_eq_some h hin hn]
  dsimp only
  rw [moved_rows, rowList_copyDown h (by omega) (by omega) hlt,
    onSegment_shiftRight_min (by rw [length_rowList h]; omega)]

theorem rowList_deleteLines (h : Sound True cols rows s) (hin : s.inRegion) {n : UInt16} (hn : 0 < n.toNat) :
    (s.deleteLines n).rowList =
      onSegment s.cursorRow.toNat (s.scrollBottom.toNat + 1 - s.cursorRow.toNat)
        (shiftLeft n.toNat s.blankLine) s.rowList := by
  have hrow := UInt16.le_iff_toNat_le.mp hin.2
  have hlt := h.bottom_lt
  rw [deleteLines, lineCount_eq_some h hin hn]
  dsimp only
  rw [moved_rows, rowList_copyUp h (by omega) hlt,
    onSegment_shiftLeft_min (by rw [length_rowList h]; omega)]

theorem Edits.insertLines (s : Screen) (n : UInt16) : Edits s (s.insertLines n) := by
  unfold Screen.insertLines
  cases s.lineCount n with
  | none => exact refl s
  | some m => exact ((copyRows s _).trans (blankRows _ _ _)).trans (dirtyRows _ _ _)

theorem Edits.deleteLines (s : Screen) (n : UInt16) : Edits s (s.deleteLines n) := by
  unfold Screen.deleteLines
  cases s.lineCount n with
  | none => exact refl s
  | some m => exact ((copyRows s _).trans (blankRows _ _ _)).trans (dirtyRows _ _ _)

theorem csiN_one_pos (params : List UInt16) : 0 < (csiN params 0 1).toNat := by
  unfold csiN
  cases params[0]? with
  | none => exact Nat.one_pos
  | some n =>
    dsimp only
    split
    case isTrue => exact Nat.one_pos
    case isFalse hn => exact Nat.pos_of_ne_zero fun h0 => hn (UInt16.toNat_inj.mp h0)

theorem rowList_scrolledUp (h : Sound True cols rows s) (n : Nat) :
    (n.repeat scrollUp s).rowList =
      onSegment s.scrollTop.toNat (s.scrollBottom.toNat + 1 - s.scrollTop.toNat)
        (shiftLeft n s.blankLine) s.rowList :=
  rowList_repeat Edits.scrollUp (fun _ h => h.scrollUp) length_shiftLeft shiftLeft_zero shiftLeft_succ
    (fun _ h => rowList_scrollUp h) h n

theorem rowList_scrolledDown (h : Sound True cols rows s) (n : Nat) :
    (n.repeat scrollDown s).rowList =
      onSegment s.scrollTop.toNat (s.scrollBottom.toNat + 1 - s.scrollTop.toNat)
        (shiftRight n s.blankLine) s.rowList :=
  rowList_repeat Edits.scrollDown (fun _ h => h.scrollDown) length_shiftRight shiftRight_zero
    shiftRight_succ (fun _ h => rowList_scrollDown h) h n

/-- SU, SD, IL and DL shift blank rows into the scroll region, or into its part from
the cursor on, and change nothing else; from outside the region IL and DL change
nothing at all. Of the region at the top of the primary screen SU reports the `n`
rows it drives out, blank ones among them when `n` is more than the region has. -/
theorem lines_shift (h : Sound True cols rows s) (params : List UInt16) :
    let n := (csiN params 0 1).toNat
    let region := onSegment s.scrollTop.toNat (s.scrollBottom.toNat + 1 - s.scrollTop.toNat)
    let below := onSegment s.cursorRow.toNat (s.scrollBottom.toNat + 1 - s.cursorRow.toNat)
    let up := s.csiDispatch params 'S'
    let down := s.csiDispatch params 'T'
    let inserted := s.csiDispatch params 'L'
    let deleted := s.csiDispatch params 'M'
    (up.rowList = region (shiftLeft n s.blankLine) s.rowList ∧ Edits s up ∧
      up.scrolledOff = s.scrolledOff ++ if s.inAlt = false ∧ s.scrollTop.toNat = 0 then
        driven n s.blankLine (s.rowList.take (s.scrollBottom.toNat + 1)) else []) ∧
    (down.rowList = region (shiftRight n s.blankLine) s.rowList ∧ Edits s down) ∧
    (s.inRegion → inserted.rowList = below (shiftRight n s.blankLine) s.rowList ∧ Edits s inserted) ∧
    (s.inRegion → deleted.rowList = below (shiftLeft n s.blankLine) s.rowList ∧ Edits s deleted) ∧
    (¬ s.inRegion → inserted = s ∧ deleted = s) := by
  have hpos := csiN_one_pos params
  refine ⟨⟨rowList_scrolledUp h _, Edits.iterate Edits.scrollUp s _, scrolledOff_repeat h _⟩,
    ⟨rowList_scrolledDown h _, Edits.iterate Edits.scrollDown s _⟩,
    fun hin => ⟨rowList_insertLines h hin hpos, Edits.insertLines s _⟩,
    fun hin => ⟨rowList_deleteLines h hin hpos, Edits.deleteLines s _⟩, fun hout => ⟨?_, ?_⟩⟩
  · change s.insertLines _ = s
    rw [insertLines, lineCount_eq_none hout]
  · change s.deleteLines _ = s
    rw [deleteLines, lineCount_eq_none hout]

/-- Two rows scrolled up by one. -/
theorem lines_shift_up :
    let s := ((Screen.new 1 2).toOption.get rfl)
    (s.csiDispatch [1] 'S').rowList = onSegment 0 2 (shiftLeft 1 s.blankLine) s.rowList :=
  (lines_shift (sound_new (show Screen.new 1 2 = .ok _ from rfl)) [1]).1.1

/-- One row with a letter, scrolled up by two: besides the row that was in the grid a
blank one is reported. -/
theorem lines_shift_over :
    let s := ((Screen.new 1 1).toOption.get rfl).print 'A'
    (s.csiDispatch [2] 'S').scrolledOff = [s.rowCells 0, s.blankLine] ∧
      (s.csiDispatch [2] 'S').scrolledOff ≠ s.scrolledOff ++ s.rowList.take (min 2 1) := by
  decide

end Screen

end Rill.Vt
