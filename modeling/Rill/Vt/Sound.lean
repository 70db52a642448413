import Rill.Vt.Engine
import Rill.Vt.Host

/-!
# The screen invariant

A sound screen of a given size has that many cells in every grid, its cursor and
scroll region inside the grid, and has never indexed out of range. Every action
keeps it. No index rests on the order of the region's ends or on the place of
the open cluster, so these are asked for only where `strict` is.
-/

namespace Rill.Vt

open Lib

structure Sound (strict : Prop) (cols rows : Nat) (s : Screen) : Prop where
  cols_pos : 0 < cols
  rows_pos : 0 < rows
  cols_eq : s.cols.toNat = cols
  rows_eq : s.rows.toNat = rows
  length_cells : s.cells.length = cols * rows
  length_saved : ∀ grid, s.savedGrid = some grid → grid.length = cols * rows
  cursorCol_lt : s.cursorCol.toNat < cols
  cursorRow_lt : s.cursorRow.toNat < rows
  top_lt : s.scrollTop.toNat < rows
  bottom_lt : s.scrollBottom.toNat < rows
  region_le : strict → s.scrollTop.toNat ≤ s.scrollBottom.toNat
  cluster_lt : strict → ∀ cl, s.openCluster = some cl → cl.col.toNat < cols ∧ cl.row.toNat < rows
  panicked : s.panicked = false

-- ---------------------------------------------------------------------------
-- Positions
-- ---------------------------------------------------------------------------

theorem row_span_le {r rows : Nat} (cols : Nat) (h : r < rows) : r * cols + cols ≤ cols * rows := by
  have h : cols * (r + 1) ≤ cols * rows := Nat.mul_le_mul_left cols h
  rw [Nat.mul_succ, Nat.mul_comm] at h
  exact h

theorem cell_lt {c cols r rows : Nat} (hc : c < cols) (hr : r < rows) : r * cols + c < cols * rows := by
  have h := row_span_le cols hr
  omega

theorem toNat_satSub16_one_lt {a : UInt16} (h : 0 < a.toNat) : (satSub16 a 1).toNat < a.toNat := by
  rw [toNat_satSub16, UInt16.toNat_one]
  omega

namespace Screen

variable {s : Screen}

/-- A wide glyph that fits does not reach past its row. -/
theorem fits_next {width : UInt16} (hfit : ¬ (s.cols < width || s.remainingCols < width) = true)
    (htwo : width = 2) : (s.cursorCol + 1).toNat < s.cols.toNat := by
  simp only [Bool.or_eq_true, decide_eq_true_eq, not_or, UInt16.not_lt, UInt16.le_iff_toNat_le,
    Screen.remainingCols, toNat_satSub16, htwo] at hfit
  have hle : 2 ≤ s.cols.toNat - s.cursorCol.toNat := hfit.2
  rw [toNat_succ16 (b := s.cols) (by omega)]
  omega

theorem lineCount_le {n : UInt16} (hn : s.lineCount n = some m) :
    s.cursorRow.toNat + m ≤ s.scrollBottom.toNat + 1 := by
  unfold Screen.lineCount at hn
  split at hn
  case isTrue => cases hn
  case isFalse hin =>
    simp only [Bool.or_eq_true, decide_eq_true_eq, not_or, UInt16.not_lt, gt_iff_lt,
      UInt16.le_iff_toNat_le] at hin
    have hroom : (satSub16 s.scrollBottom s.cursorRow + 1).toNat ≤
        s.scrollBottom.toNat - s.cursorRow.toNat + 1 := by
      rw [UInt16.toNat_add, toNat_satSub16]
      exact Nat.mod_le _ _
    obtain ⟨_, rfl⟩ : _ ∧ (min n (satSub16 s.scrollBottom s.cursorRow + 1)).toNat = m := by
      simpa using hn
    rw [toNat_min16]
    omega

theorem lines_moved {first last m r : Nat}
    (hr : r ∈ if last ≥ first + m then List.range' first (last - m + 1 - first) else []) :
    first ≤ r ∧ r + m ≤ last := by
  split at hr
  case isTrue =>
    rw [List.mem_range'_1] at hr
    omega
  case isFalse => cases hr

end Screen

namespace Sound

open Screen

variable {s : Screen} {strict : Prop} {cols rows : Nat}

theorem idx_lt (h : Sound strict cols rows s) {col row : UInt16} (hc : col.toNat < cols)
    (hr : row.toNat < rows) : s.idx col row < s.cells.length := by
  rw [Screen.idx, h.cols_eq, h.length_cells]
  exact cell_lt hc hr

theorem lastCol_lt (h : Sound strict cols rows s) : s.lastCol.toNat < cols := by
  have hcols := h.cols_eq
  have hpos := h.cols_pos
  have hlt := toNat_satSub16_one_lt (a := s.cols) (by omega)
  unfold Screen.lastCol
  omega

theorem lastRow_lt (h : Sound strict cols rows s) : s.lastRow.toNat < rows := by
  have hrows := h.rows_eq
  have hpos := h.rows_pos
  have hlt := toNat_satSub16_one_lt (a := s.rows) (by omega)
  unfold Screen.lastRow
  omega

theorem min_lastCol_lt (h : Sound strict cols rows s) (col : UInt16) :
    (min col s.lastCol).toNat < cols := by
  have hlast := h.lastCol_lt
  rw [toNat_min16]
  omega

theorem min_lastRow_lt (h : Sound strict cols rows s) (row : UInt16) :
    (min row s.lastRow).toNat < rows := by
  have hlast := h.lastRow_lt
  rw [toNat_min16]
  omega

-- ---------------------------------------------------------------------------
-- Rules
-- ---------------------------------------------------------------------------

theorem ite {c : Prop} [Decidable c] {a b : Screen} (ha : c → Sound strict cols rows a)
    (hb : ¬ c → Sound strict cols rows b) : Sound strict cols rows (if c then a else b) := by
  split
  case isTrue hc => exact ha hc
  case isFalse hc => exact hb hc

theorem foldl {f : Screen → α → Screen} (l : List α)
    (hf : ∀ s, ∀ a ∈ l, Sound strict cols rows s → Sound strict cols rows (f s a))
    (h : Sound strict cols rows s) :
    Sound strict cols rows (l.foldl f s) :=
  List.foldlRecOn l f h fun s hs a ha => hf s a ha hs

theorem iterate {f : Screen → Screen} (hf : ∀ s, Sound strict cols rows s → Sound strict cols rows (f s))
    (h : Sound strict cols rows s) (n : Nat) : Sound strict cols rows (n.repeat f s) :=
  repeat_keeps hf h n

-- ---------------------------------------------------------------------------
-- Cells and damage
-- ---------------------------------------------------------------------------

theorem check (h : Sound strict cols rows s) (hb : b = true) : Sound strict cols rows (s.check b) :=
  { h with panicked := by simp [Screen.check, hb, h.panicked] }

theorem touch (h : Sound strict cols rows s) (hi : i < s.cells.length) : Sound strict cols rows (s.touch i) :=
  h.check (decide_eq_true hi)

theorem setCell (h : Sound strict cols rows s) (hi : i < s.cells.length) (c : Cell) :
    Sound strict cols rows (s.setCell i c) :=
  { h.touch hi with length_cells := by simp [Screen.setCell, h.length_cells] }

theorem fillCells (h : Sound strict cols rows s) {lo hi : Nat} (hlo : lo ≤ hi) (hhi : hi ≤ cols * rows)
    (c : Cell) :
    Sound strict cols rows (s.fillCells lo hi c) :=
  { h.check (b := lo ≤ hi && hi ≤ s.cells.length) (by simp [hlo, hhi, h.length_cells]) with
    length_cells := by simp [Screen.fillCells, h.length_cells] }

theorem copyWithin (h : Sound strict cols rows s) {lo hi dst : Nat} (hlo : lo ≤ hi)
    (hhi : hi ≤ cols * rows) (hdst : dst + (hi - lo) ≤ cols * rows) :
    Sound strict cols rows (s.copyWithin lo hi dst) :=
  { h.check (b := lo ≤ hi && hi ≤ s.cells.length && dst + (hi - lo) ≤ s.cells.length)
      (by simp [hlo, hhi, hdst, h.length_cells]) with
    length_cells := by simp [Screen.copyWithin, h.length_cells] }

theorem copyRow (h : Sound strict cols rows s) (hsrc : src < rows) (hr : r < rows) :
    Sound strict cols rows (s.copyRow src r) := by
  have h1 := row_span_le cols hsrc
  have h2 := row_span_le cols hr
  unfold Screen.copyRow
  rw [h.cols_eq]
  exact h.copyWithin (by omega) h1 (by omega)

theorem copyRows (h : Sound strict cols rows s) {moves : List (Nat × Nat)}
    (hm : ∀ m ∈ moves, m.1 < rows ∧ m.2 < rows) : Sound strict cols rows (s.copyRows moves) :=
  foldl moves (fun _ m hmem h => h.copyRow (hm m hmem).1 (hm m hmem).2) h

theorem blankCells (h : Sound strict cols rows s) {lo hi : Nat} (hlo : lo ≤ hi)
    (hhi : hi ≤ cols * rows) : Sound strict cols rows (s.blankCells lo hi) := h.fillCells hlo hhi _

theorem blankRow (h : Sound strict cols rows s) (hr : r < rows) : Sound strict cols rows (s.blankRow r) := by
  unfold Screen.blankRow
  rw [h.cols_eq]
  exact h.blankCells (by omega) (row_span_le cols hr)

theorem blankRows (h : Sound strict cols rows s) (hr : first + n ≤ rows) :
    Sound strict cols rows (s.blankRows first n) := by
  refine foldl _ (fun _ r hmem h => h.blankRow ?_) h
  rw [List.mem_range'_1] at hmem
  omega

theorem damageAll (h : Sound strict cols rows s) : Sound strict cols rows s.damageAll := { h with }

theorem dirty (h : Sound strict cols rows s) (r : UInt16) : Sound strict cols rows (s.dirty r) :=
  ite (fun _ => h) fun _ => ite (fun _ => { h with }) fun _ => { h with }

theorem dirtyRows (h : Sound strict cols rows s) (first last : Nat) :
    Sound strict cols rows (s.dirtyRows first last) := foldl _ (fun _ _ _ h => h.dirty _) h

-- ---------------------------------------------------------------------------
-- Scrolling and cursor
-- ---------------------------------------------------------------------------

theorem clearPendingWrap (h : Sound strict cols rows s) : Sound strict cols rows s.clearPendingWrap := { h with }

theorem setCursorCol (h : Sound strict cols rows s) (col : UInt16) (hc : col.toNat < cols) :
    Sound strict cols rows (s.setCursorCol col) := { h with cursorCol_lt := hc }

theorem setOpenCluster (h : Sound strict cols rows s) {o : Option OpenCluster}
    (ho : strict → ∀ cl, o = some cl → cl.col.toNat < cols ∧ cl.row.toNat < rows) :
    Sound strict cols rows (s.setOpenCluster o) := { h with cluster_lt := ho }

theorem retireRow (h : Sound strict cols rows s) (hr : row < rows) :
    Sound strict cols rows (s.retireRow row) := by
  have hspan := row_span_le cols hr
  refine ite (fun _ => ?_) fun _ => h
  have hb : decide (row * s.cols.toNat + s.cols.toNat ≤ s.cells.length) = true := by
    rw [h.cols_eq, h.length_cells]
    exact decide_eq_true hspan
  exact { h.check hb with }

/-- The rows a scroll moves lie inside the grid. -/
theorem scrollUp_moves (h : Sound strict cols rows s) :
    ∀ m ∈ (List.range' s.scrollTop.toNat (s.scrollBottom.toNat - s.scrollTop.toNat)).map
      fun r => (r + 1, r), m.1 < rows ∧ m.2 < rows := by
  have hlt := h.bottom_lt
  intro m hm
  obtain ⟨r, hr, rfl⟩ := List.mem_map.mp hm
  rw [List.mem_range'_1] at hr
  simp only
  omega

theorem scrollDown_moves (h : Sound strict cols rows s) :
    ∀ m ∈ (List.range' (s.scrollTop.toNat + 1)
      (s.scrollBottom.toNat - s.scrollTop.toNat)).reverse.map fun r => (r - 1, r),
        m.1 < rows ∧ m.2 < rows := by
  have hlt := h.bottom_lt
  intro m hm
  obtain ⟨r, hr, rfl⟩ := List.mem_map.mp hm
  rw [List.mem_reverse, List.mem_range'_1] at hr
  simp only
  omega

theorem scrollUp (h : Sound strict cols rows s) : Sound strict cols rows s.scrollUp :=
  (((h.retireRow h.top_lt).copyRows h.scrollUp_moves).blankRow h.bottom_lt).damageAll

theorem scrollDown (h : Sound strict cols rows s) : Sound strict cols rows s.scrollDown :=
  ((h.copyRows h.scrollDown_moves).blankRow h.top_lt).damageAll

theorem setCursorRow (h : Sound strict cols rows s) {row : UInt16} (hr : row.toNat < rows) :
    Sound strict cols rows { s with cursorRow := row } := { h with cursorRow_lt := hr }

theorem index (h : Sound strict cols rows s) : Sound strict cols rows s.index := by
  refine ite (fun hc => h.setCursorRow ?_) fun _ => h.scrollUp
  have hlt := h.bottom_lt
  have hc := UInt16.lt_iff_toNat_lt.mp hc
  rw [toNat_succ16 hc]
  omega

theorem reverseIndex (h : Sound strict cols rows s) : Sound strict cols rows s.reverseIndex := by
  refine ite (fun hc => h.setCursorRow ?_) fun _ => h.scrollDown
  have hlt := h.cursorRow_lt
  have hc := UInt16.lt_iff_toNat_lt.mp hc
  rw [toNat_pred16 hc]
  omega

theorem restoreCursor (h : Sound strict cols rows s) (c : SavedCursor) :
    Sound strict cols rows (s.restoreCursor c) :=
  { h with
    cursorCol_lt := h.min_lastCol_lt c.col
    cursorRow_lt := h.min_lastRow_lt c.row }

theorem setCursor (h : Sound strict cols rows s) (row col : UInt16) :
    Sound strict cols rows (s.setCursor row col) :=
  { h with
    cursorCol_lt := h.min_lastCol_lt col
    cursorRow_lt := h.min_lastRow_lt row
    cluster_lt := fun _ => nofun }

-- ---------------------------------------------------------------------------
-- Modes
-- ---------------------------------------------------------------------------

theorem setCells (h : Sound strict cols rows s) {cells : List Cell} (hl : cells.length = cols * rows) :
    Sound strict cols rows { s with cells } := { h with length_cells := hl }

theorem saveGrid (h : Sound strict cols rows s) (saveCursor : Bool) :
    Sound strict cols rows (s.saveGrid saveCursor) := by
  refine { h with length_saved := ?_ }
  rintro grid ⟨⟩
  exact h.length_cells

theorem clearGrid (h : Sound strict cols rows s) : Sound strict cols rows s.clearGrid := by
  refine (h.setCells ?_).setCursor 0 0
  simp [Screen.blankGrid, h.cols_eq, h.rows_eq]

theorem setInAlt (h : Sound strict cols rows s) (inAlt : Bool) : Sound strict cols rows (s.setInAlt inAlt) :=
  { h with }

theorem enterAlt (h : Sound strict cols rows s) (saveCursor clear : Bool) :
    Sound strict cols rows (s.enterAlt saveCursor clear) := by
  have hsave : Sound strict cols rows (if !s.inAlt then s.saveGrid saveCursor else s) :=
    ite (fun _ => h.saveGrid _) fun _ => h
  exact ((ite (fun _ => hsave.clearGrid) fun _ => hsave).setInAlt true).damageAll

theorem restoreGrid (h : Sound strict cols rows s) : Sound strict cols rows s.restoreGrid := by
  unfold Screen.restoreGrid
  cases hg : s.savedGrid with
  | none => exact h
  | some grid => exact { h with length_cells := h.length_saved grid hg, length_saved := nofun }

theorem takeAltCursor (h : Sound strict cols rows s) (restoreCursor : Bool) :
    Sound strict cols rows (s.takeAltCursor restoreCursor) := by
  have hnone : Sound strict cols rows { s with altCursor := none } := { h with }
  unfold Screen.takeAltCursor
  split
  · exact hnone.restoreCursor _
  · exact hnone

theorem leaveAlt (h : Sound strict cols rows s) (restoreCursor : Bool) :
    Sound strict cols rows (s.leaveAlt restoreCursor) :=
  ite (fun _ => h) fun _ => ((h.restoreGrid.takeAltCursor _).setInAlt false).damageAll

theorem setScrollRegion (h : Sound strict cols rows s) (params : List UInt16) :
    Sound strict cols rows (s.setScrollRegion params) := by
  refine ite (fun _ => h) fun hc => Sound.setCursor ?_ 0 0
  simp only [Bool.or_eq_true, decide_eq_true_eq, not_or,
    UInt16.le_iff_toNat_le, UInt16.lt_iff_toNat_lt, ge_iff_le, gt_iff_lt] at hc
  obtain ⟨⟨htop, hbot⟩, hlt⟩ := hc
  have hrows := h.rows_eq
  rw [UInt16.toNat_one] at htop
  have h1 := toNat_pred16 (a := csiN params 0 1) (b := 0) (by rw [UInt16.toNat_zero]; omega)
  have h2 := toNat_pred16 (a := csiN params 1 s.rows) (b := 0) (by rw [UInt16.toNat_zero]; omega)
  exact { h with
    top_lt := by rw [h1]; omega
    bottom_lt := by rw [h2]; omega
    region_le := fun _ => by rw [h1, h2]; omega }

theorem privateModeOne (h : Sound strict cols rows s) (set : Bool) (p : UInt16) :
    Sound strict cols rows (s.privateModeOne set p) := by
  have halt : ∀ a b, Sound strict cols rows (if set then s.enterAlt a true else s.leaveAlt b) :=
    fun _ _ => ite (fun _ => h.enterAlt _ _) fun _ => h.leaveAlt _
  refine ite (fun _ => { h with }) fun _ => ?_
  refine ite (fun _ => { h with }) fun _ => ?_
  refine ite (fun _ => { h with }) fun _ => ?_
  refine ite (fun _ => { h with }) fun _ => ?_
  refine ite (fun _ => { h with }) fun _ => ?_
  refine ite (fun _ => { h with }) fun _ => ?_
  refine ite (fun _ => { h with }) fun _ => ?_
  refine ite (fun _ => { h with }) fun _ => ?_
  refine ite (fun _ => { h with }) fun _ => ?_
  refine ite (fun _ => halt false false) fun _ => ?_
  exact ite (fun _ => halt true true) fun _ => h

-- ---------------------------------------------------------------------------
-- Printing
-- ---------------------------------------------------------------------------

theorem wrapIfNeededWidth (h : Sound strict cols rows s) (width : UInt16) :
    Sound strict cols rows (s.wrapIfNeededWidth width) :=
  ite (fun _ => h) fun _ => ite (fun _ => h.clearPendingWrap) fun _ =>
    (h.clearPendingWrap.setCursorCol 0 h.cols_pos).index

theorem smashHalf (h : Sound strict cols rows s) {found : Bool} {other : Nat}
    (hi : found = true → other < s.cells.length) (attr : UInt16) :
    Sound strict cols rows (s.smashHalf found other attr) := by
  refine ite (fun hf => ?_) fun _ => h
  have htouch := h.touch (hi hf)
  exact ite (fun _ => htouch.setCell (hi hf) _) fun _ => htouch

theorem smashWideAt (h : Sound strict cols rows s) (col row : UInt16) :
    Sound strict cols rows (s.smashWideAt col row) := by
  refine ite (fun _ => h) fun hin => ?_
  simp only [Bool.or_eq_true, decide_eq_true_eq, not_or, UInt16.not_le, ge_iff_le,
    UInt16.lt_iff_toNat_lt, h.cols_eq, h.rows_eq] at hin
  obtain ⟨hc, hr⟩ := hin
  have htouch := h.touch (h.idx_lt hc hr)
  have hlead : Sound strict cols rows ((s.touch (s.idx col row)).smashHalf
      ((s.cellAt (s.idx col row)).attrs &&& attrWideLead ≠ 0 && col + 1 < s.cols)
      ((s.touch (s.idx col row)).idx (col + 1) row) attrWideTail) := by
    refine htouch.smashHalf (fun hf => htouch.idx_lt ?_ hr) _
    simp only [Bool.and_eq_true, decide_eq_true_eq, UInt16.lt_iff_toNat_lt] at hf
    rw [← h.cols_eq]
    exact hf.2
  refine hlead.smashHalf (fun hf => hlead.idx_lt ?_ hr) attrWideLead
  simp only [Bool.and_eq_true, decide_eq_true_eq, gt_iff_lt, UInt16.lt_iff_toNat_lt] at hf
  rw [toNat_pred16 hf.2]
  omega

theorem advanceAfterWidth (h : Sound strict cols rows s) (width : UInt16) :
    Sound strict cols rows (s.advanceAfterWidth width) := by
  refine ite (fun hc => ?_) fun _ => ?_
  · rw [UInt16.lt_iff_toNat_lt, h.cols_eq] at hc
    exact { h with cursorCol_lt := hc }
  · exact { h with cursorCol_lt := h.lastCol_lt }

theorem widenCluster (h : Sound strict cols rows s) {cl : OpenCluster} {tailCol : UInt16}
    (hlead : cl.col.toNat < cols ∧ cl.row.toNat < rows) (htail : tailCol.toNat < cols) :
    Sound strict cols rows (s.widenCluster cl tailCol) := by
  have hs := h.smashWideAt tailCol cl.row
  have h1 := fun c => hs.setCell (hs.idx_lt hlead.1 hlead.2) c
  have h2 := fun c d => (h1 c).setCell ((h1 c).idx_lt htail hlead.2) d
  refine ((h2 _ _).setOpenCluster ?_).dirty _
  rintro - _ ⟨⟩
  exact hlead

/-- The cluster is widened only on the cursor's row and with a column to its right,
wherever it came from. -/
theorem maybeExpandRiPair (h : Sound strict cols rows s) : Sound strict cols rows s.maybeExpandRiPair := by
  unfold Screen.maybeExpandRiPair
  cases hcl : s.openCluster with
  | none => exact h
  | some cl =>
    refine ite (fun _ => h) fun _ => ite (fun _ => h) fun hin => ?_
    simp only [Bool.or_eq_true, decide_eq_true_eq, not_or, ge_iff_le, UInt16.not_le,
      UInt16.lt_iff_toNat_lt, h.cols_eq, Decidable.not_not] at hin
    have hle := toNat_le_satAdd16 cl.col 1
    have hlead : cl.col.toNat < cols ∧ cl.row.toNat < rows := ⟨by omega, hin.2 ▸ h.cursorRow_lt⟩
    have hw := h.widenCluster hlead hin.1
    exact ite (fun _ => (hw.setCursorCol _ hin.1).advanceAfterWidth 1) fun _ => hw

theorem countTruncated (h : Sound strict cols rows s) (len : UInt8) :
    Sound strict cols rows (s.countTruncated len) :=
  ite (fun _ => { h with }) fun _ => h

theorem paintGlyph (h : Sound strict cols rows s) (c : Char) {col row width : UInt16}
    (hc : col.toNat < cols) (hr : row.toNat < rows)
    (hw : width = 2 → (col + 1).toNat < cols) : Sound strict cols rows (s.paintGlyph c col row width) := by
  have h1 := h.smashWideAt col row
  have h2 := ite (c := width = 2) (fun _ => h1.smashWideAt (col + 1) row) fun _ => h1
  have h3 := h2.setCell (h2.idx_lt hc hr)
  exact ite (fun htwo => (h3 _).setCell ((h3 _).idx_lt (hw htwo) hr) _) fun _ => h3 _

theorem placeGlyph (h : Sound strict cols rows s) (c : Char) {width : UInt16}
    (hw : width = 2 → (s.cursorCol + 1).toNat < cols) : Sound strict cols rows (s.placeGlyph c width) := by
  have hpaint := h.paintGlyph c h.cursorCol_lt h.cursorRow_lt hw
  refine ((hpaint.setOpenCluster ?_).dirty _).advanceAfterWidth _
  rintro - _ ⟨⟩
  exact ⟨h.cursorCol_lt, h.cursorRow_lt⟩

theorem printBase (h : Sound strict cols rows s) (c : Char) : Sound strict cols rows (s.printBase c) := by
  have hw := h.wrapIfNeededWidth (clusterWidth c)
  exact ite (fun _ => hw) fun hfit => hw.placeGlyph c fun htwo => hw.cols_eq ▸ fits_next hfit htwo

theorem appendToCluster (h : Sound strict cols rows s) {c : Char}
    (hu : s.appendToCluster c = some u) : Sound strict cols rows u := by
  obtain ⟨cl, hcl, rfl⟩ := Option.map_eq_some_iff.mp hu
  refine ((h.countTruncated cl.len).dirty cl.row).setOpenCluster ?_
  rintro hstrict _ ⟨⟩
  exact h.cluster_lt hstrict cl hcl

theorem writeChar (h : Sound strict cols rows s) (c : Char) : Sound strict cols rows (s.writeChar c) := by
  unfold Screen.writeChar
  cases s.shouldAppend c with
  | false => exact h.printBase c
  | true =>
    rw [if_pos rfl]
    cases hu : s.appendToCluster c with
    | none => exact h.printBase c
    | some u => exact ite (fun _ => (h.appendToCluster hu).maybeExpandRiPair) fun _ => h.appendToCluster hu

-- ---------------------------------------------------------------------------
-- Erasing and editing
-- ---------------------------------------------------------------------------

theorem smashSpan (h : Sound strict cols rows s) (lo hi : Nat) : Sound strict cols rows (s.smashSpan lo hi) :=
  foldl _ (fun _ _ _ h => h.smashWideAt _ _) h

theorem eraseSpan (h : Sound strict cols rows s) (start stop : Nat) :
    Sound strict cols rows (s.eraseSpan start stop) := by
  have hlen := h.length_cells
  have hs : Sound strict cols rows
      ((s.smashSpan (min start (min stop s.cells.length)) (min stop s.cells.length)).blankCells
        (min start (min stop s.cells.length)) (min stop s.cells.length)) :=
    (h.smashSpan _ _).blankCells (by omega) (by omega)
  exact ite (fun _ => hs.dirtyRows _ _) fun _ => hs

theorem eraseDisplay (h : Sound strict cols rows s) (mode : UInt16) :
    Sound strict cols rows (s.eraseDisplay mode) :=
  ite (fun _ => h.eraseSpan _ _) fun _ => ite (fun _ => h.eraseSpan _ _) fun _ =>
    (h.eraseSpan _ _).damageAll

theorem eraseLine (h : Sound strict cols rows s) (mode : UInt16) : Sound strict cols rows (s.eraseLine mode) :=
  ite (fun _ => h.eraseSpan _ _) fun _ => ite (fun _ => h.eraseSpan _ _) fun _ => h.eraseSpan _ _

/-- The rows IL and DL move, `m` of them at a time, lie inside the grid. -/
theorem lines_moves (h : Sound strict cols rows s) {r : Nat}
    (hr : r ∈ if s.scrollBottom.toNat ≥ s.cursorRow.toNat + m then
      List.range' s.cursorRow.toNat (s.scrollBottom.toNat - m + 1 - s.cursorRow.toNat) else []) :
    r < rows ∧ r + m < rows := by
  obtain ⟨-, hle⟩ := lines_moved hr
  have hlt := h.bottom_lt
  omega

theorem insertLines (h : Sound strict cols rows s) (n : UInt16) : Sound strict cols rows (s.insertLines n) := by
  unfold Screen.insertLines
  cases hn : s.lineCount n with
  | none => exact h
  | some m =>
    have hle := lineCount_le hn
    have hlt := h.bottom_lt
    refine ((h.copyRows ?_).blankRows (by omega)).dirtyRows _ _
    intro mv hmv
    obtain ⟨r, hr, rfl⟩ := List.mem_map.mp hmv
    exact h.lines_moves (List.mem_reverse.mp hr)

theorem deleteLines (h : Sound strict cols rows s) (n : UInt16) : Sound strict cols rows (s.deleteLines n) := by
  unfold Screen.deleteLines
  cases hn : s.lineCount n with
  | none => exact h
  | some m =>
    have hle := lineCount_le hn
    have hlt := h.bottom_lt
    refine ((h.copyRows ?_).blankRows (by omega)).dirtyRows _ _
    intro mv hmv
    obtain ⟨r, hr, rfl⟩ := List.mem_map.mp hmv
    exact (h.lines_moves hr).symm

theorem insertCells (h : Sound strict cols rows s) (n : UInt16) : Sound strict cols rows (s.insertCells n) := by
  refine ite (fun _ => h) fun _ => ?_
  have hn : (min n (satSub16 s.cols s.cursorCol)).toNat ≤ cols - s.cursorCol.toNat := by
    rw [toNat_min16, toNat_satSub16, h.cols_eq]
    omega
  have hspan := row_span_le cols h.cursorRow_lt
  have hc := h.cursorCol_lt
  have hrow : s.idx 0 s.cursorRow = s.cursorRow.toNat * cols := by
    simp [Screen.idx, h.cols_eq]
  rw [h.cols_eq]
  refine ((ite (fun _ => h.copyWithin ?_ ?_ ?_) fun _ => h).blankCells ?_ ?_).dirty _ <;> omega

theorem smashCols (h : Sound strict cols rows s) (row : UInt16) (col n : Nat) :
    Sound strict cols rows (s.smashCols row col n) := foldl _ (fun _ _ _ h => h.smashWideAt _ _) h

theorem deleteCells (h : Sound strict cols rows s) (n : UInt16) : Sound strict cols rows (s.deleteCells n) := by
  refine ite (fun _ => h) fun _ => ?_
  have hn : (min n (satSub16 s.cols s.cursorCol)).toNat ≤ cols - s.cursorCol.toNat := by
    rw [toNat_min16, toNat_satSub16, h.cols_eq]
    omega
  have hspan := row_span_le cols h.cursorRow_lt
  have hc := h.cursorCol_lt
  have hrow : s.idx 0 s.cursorRow = s.cursorRow.toNat * cols := by
    simp [Screen.idx, h.cols_eq]
  have hsmash := h.smashCols s.cursorRow s.cursorCol.toNat
    (min n (satSub16 s.cols s.cursorCol)).toNat
  rw [h.cols_eq]
  refine ((ite (fun _ => hsmash.copyWithin ?_ ?_ ?_) fun _ => hsmash).blankCells ?_ ?_).dirty _ <;>
    omega

-- ---------------------------------------------------------------------------
-- Actions
-- ---------------------------------------------------------------------------

theorem enqueueReply (h : Sound strict cols rows s) (bytes : List UInt8) :
    Sound strict cols rows (s.enqueueReply bytes) :=
  ite (fun _ => { h with }) fun _ => ite (fun _ => { h with }) fun _ => { h with }

theorem setPen (h : Sound strict cols rows s) (fg : Bool) (c : Color) : Sound strict cols rows (s.setPen fg c) :=
  ite (fun _ => { h with }) fun _ => { h with }

theorem sgrOne (h : Sound strict cols rows s) (n : UInt16) : Sound strict cols rows (s.sgrOne n) := by
  unfold Screen.sgrOne
  refine ite (fun _ => { h with }) fun _ => ite (fun _ => { h with }) fun _ =>
    ite (fun _ => { h with }) fun _ => ite (fun _ => { h with }) fun _ =>
    ite (fun _ => { h with }) fun _ => ite (fun _ => { h with }) fun _ =>
    ite (fun _ => { h with }) fun _ => ite (fun _ => { h with }) fun _ =>
    ite (fun _ => { h with }) fun _ => ite (fun _ => { h with }) fun _ =>
    ite (fun _ => { h with }) fun _ => ite (fun _ => { h with }) fun _ =>
    ite (fun _ => { h with }) fun _ => h

theorem sgrLoop (h : Sound strict cols rows s) (params : List UInt16) :
    Sound strict cols rows (s.sgrLoop params) := by
  fun_induction Screen.sgrLoop s params with
  | case1 => exact h
  | case2 => exact h
  | case3 => exact h
  | case4 _ _ _ _ _ ih => exact ih h
  | case5 _ _ _ _ _ ih => exact ih (h.setPen _ _)
  | case6 _ _ _ _ _ _ _ _ ih => exact ih (h.setPen _ _)
  | case7 _ _ _ _ _ _ _ ih => exact ih h
  | case8 _ _ _ _ _ _ _ _ ih => exact ih h
  | case9 _ _ _ _ ih => exact ih (h.sgrOne _)

theorem csiDispatch (h : Sound strict cols rows s) (params : List UInt16) (action : Char) :
    Sound strict cols rows (s.csiDispatch params action) := by
  unfold Screen.csiDispatch
  simp only
  split
  case h_1 | h_2 | h_3 | h_4 | h_5 | h_6 | h_7 | h_8 | h_9 | h_10 => exact h.setCursor _ _
  case h_11 => exact h.eraseDisplay _
  case h_12 => exact h.eraseLine _
  case h_13 => exact h.eraseSpan _ _
  case h_14 => exact h.insertLines _
  case h_15 => exact h.deleteLines _
  case h_16 => exact h.insertCells _
  case h_17 => exact h.deleteCells _
  case h_18 => exact h.setScrollRegion _
  case h_19 => exact h.iterate (fun _ h => h.scrollUp) _
  case h_20 => exact h.iterate (fun _ h => h.scrollDown) _
  case h_21 => exact h.sgrLoop _
  case h_22 => exact ite (fun _ => h.enqueueReply _) fun _ => h
  case h_23 =>
    exact ite (fun _ => h.enqueueReply _) fun _ => ite (fun _ => h.enqueueReply _) fun _ => h
  case h_24 => exact h

theorem execute (h : Sound strict cols rows s) (byte : UInt8) : Sound strict cols rows (s.execute byte) := by
  have hopen : Sound strict cols rows (s.clearPendingWrap.setOpenCluster none) :=
    h.clearPendingWrap.setOpenCluster fun _ => nofun
  refine ite (fun _ => ite (fun hc => hopen.setCursorCol _ ?_) fun _ => hopen) fun _ => ?_
  · have hc := UInt16.lt_iff_toNat_lt.mp hc
    have hlt := hopen.cursorCol_lt
    rw [toNat_pred16 hc]
    omega
  refine ite (fun _ => hopen.setCursorCol _ (hopen.min_lastCol_lt _)) fun _ => ?_
  refine ite (fun _ => hopen.index) fun _ => ?_
  exact ite (fun _ => hopen.setCursorCol 0 h.cols_pos) fun _ => h

theorem csi (h : Sound strict cols rows s) (params : List UInt16) (intermediates : List UInt8)
    (ignore : Bool) (action : Char) :
    Sound strict cols rows (s.csi params intermediates ignore action) :=
  ite (fun _ => h) fun _ =>
    ite (fun _ => foldl params (fun _ _ _ h => h.privateModeOne _ _) h) fun _ =>
    ite (fun _ => h.enqueueReply _) fun _ => ite (fun _ => h) fun _ => h.csiDispatch _ _

theorem esc (h : Sound strict cols rows s) (intermediates : List UInt8) (byte : UInt8) :
    Sound strict cols rows (s.esc intermediates byte) := by
  have hwrap := h.clearPendingWrap
  refine ite (fun _ => { h with }) fun _ => ite (fun _ => ?_) fun _ => ?_
  · cases s.savedCursor with
    | none => exact h
    | some c => exact h.restoreCursor c
  refine ite (fun _ => hwrap.index) fun _ => ?_
  refine ite (fun _ => (hwrap.setCursorCol 0 h.cols_pos).index) fun _ => ?_
  refine ite (fun _ => hwrap.reverseIndex) fun _ => ?_
  exact ite (fun _ => { h with }) fun _ => ite (fun _ => { h with }) fun _ => h

theorem act (h : Sound strict cols rows s) (a : Action) : Sound strict cols rows (s.act a) := by
  cases a with
  | print c => exact h.writeChar c
  | execute b => exact h.execute b
  | csi params intermediates ignore action => exact h.csi params intermediates ignore action
  | esc intermediates b => exact h.esc intermediates b
  | osc payload => exact h

theorem acts (h : Sound strict cols rows s) (l : List Action) : Sound strict cols rows (l.foldl Screen.act s) :=
  foldl l (fun _ a _ h => h.act a) h

end Sound

-- ---------------------------------------------------------------------------
-- Host side
-- ---------------------------------------------------------------------------

theorem size_pos {cols rows : UInt16} (h : ¬ (cols = 0 || rows = 0) = true) :
    0 < cols.toNat ∧ 0 < rows.toNat := by
  simp only [Bool.or_eq_true, decide_eq_true_eq, not_or, ← UInt16.toNat_inj,
    UInt16.toNat_zero] at h
  omega

theorem sound_new {cols rows : UInt16} (h : Screen.new cols rows = .ok s) :
    Sound strict cols.toNat rows.toNat s := by
  unfold Screen.new at h
  split at h
  case isTrue => cases h
  case isFalse hpos =>
    obtain ⟨hcols, hrows⟩ := size_pos hpos
    obtain rfl := Except.ok.inj h
    exact {
      cols_pos := hcols
      rows_pos := hrows
      cols_eq := rfl
      rows_eq := rfl
      length_cells := List.length_replicate
      length_saved := nofun
      cursorCol_lt := hcols
      cursorRow_lt := hrows
      top_lt := hrows
      bottom_lt := toNat_satSub16_one_lt hrows
      region_le := fun _ => Nat.zero_le _
      cluster_lt := fun _ => nofun
      panicked := rfl }

theorem VtEngine.sound_of_new {e : VtEngine} {cols rows : UInt16}
    (h : VtEngine.new cols rows = .ok e) : Sound True cols.toNat rows.toNat e.screen :=
  Rill.Vt.sound_new (new_ok h)

theorem length_foldl_of_keep {f : List Cell → α → List Cell}
    (hf : ∀ cells a, (f cells a).length = cells.length) (l : List α) (cells : List Cell) :
    (l.foldl f cells).length = cells.length := by
  induction l generalizing cells with
  | nil => rfl
  | cons a l ih => rw [List.foldl_cons, ih, hf]

theorem length_resizeCells (old : List Cell) (oldCols oldRows cols rows : UInt16) :
    (resizeCells old oldCols oldRows cols rows).length = cols.toNat * rows.toNat := by
  unfold resizeCells
  rw [length_foldl_of_keep, List.length_replicate]
  intro cells r
  apply length_foldl_of_keep
  intro cells c
  simp only
  split
  · exact List.length_set
  · rfl

theorem sound_resize {cols rows : UInt16} (h : s.resize cols rows = .ok t)
    (hs : Sound strict oldCols oldRows s) : Sound strict cols.toNat rows.toNat t := by
  unfold Screen.resize at h
  split at h
  case isTrue => cases h
  case isFalse hpos =>
    obtain ⟨hcols, hrows⟩ := size_pos hpos
    obtain rfl := Except.ok.inj h
    have hcol := toNat_satSub16_one_lt hcols
    have hrow := toNat_satSub16_one_lt hrows
    exact {
      cols_pos := hcols
      rows_pos := hrows
      cols_eq := rfl
      rows_eq := rfl
      length_cells := length_resizeCells _ _ _ _ _
      length_saved := by
        intro grid hgrid
        obtain ⟨old, -, rfl⟩ := Option.map_eq_some_iff.mp hgrid
        exact length_resizeCells _ _ _ _ _
      cursorCol_lt := by
        simp only [toNat_min16]
        omega
      cursorRow_lt := by
        simp only [toNat_min16]
        omega
      top_lt := hrows
      bottom_lt := hrow
      region_le := fun _ => Nat.zero_le _
      cluster_lt := fun _ => nofun
      panicked := hs.panicked }

end Rill.Vt
