import Rill.Vt.Bounds
import Rill.Vt.Damage
import Rill.Vt.Pairs

/-!
# Resizes

A resize copies what both sizes have and blanks the rest, on the visible grid and the saved
one. It copies cell by cell, so a wide glyph that the new right edge passes through loses
its right half only.
-/

namespace Rill.Vt

/-- A wide glyph of a row, with its left half in the column. -/
def WideAt (cols : Nat) (grid : List Cell) (row col : Nat) : Prop :=
  (gridCell grid (row * cols + col)).isLead = true ∧
    (gridCell grid (row * cols + (col + 1))).isTail = true

/-- The new right edge passes between the halves of a wide glyph. -/
def CutAt (oldCols cols : Nat) (grid : List Cell) (row col : Nat) : Prop :=
  cols < oldCols ∧ col + 1 = cols ∧ WideAt oldCols grid row col

instance : Decidable (CutAt oldCols cols grid row col) :=
  inferInstanceAs (Decidable (_ ∧ _ ∧ _ ∧ _))

/-- What a resize that keeps glyphs whole leaves at a row and column. -/
def fittedCell (oldCols oldRows cols : Nat) (grid : List Cell) (row col : Nat) : Cell :=
  if row < oldRows ∧ col < oldCols ∧ ¬ CutAt oldCols cols grid row col then
    gridCell grid (row * oldCols + col)
  else Cell.blank .default

structure FitsWhole (oldCols oldRows cols rows : Nat) (grid next : List Cell) : Prop where
  length : next.length = cols * rows
  cell : ∀ row col, row < rows → col < cols →
    next[row * cols + col]? = some (fittedCell oldCols oldRows cols grid row col)

/-- No wide glyph of the rows that stay straddles the new right edge. -/
def EdgeClear (oldCols oldRows cols rows : Nat) (grid : List Cell) : Prop :=
  cols < oldCols → ∀ row, row < oldRows → row < rows → ¬ WideAt oldCols grid row (cols - 1)

theorem getElem?_of_gridCell {grid : List Cell} {i : Nat} (h : i < grid.length) :
    grid[i]? = some (gridCell grid i) := by
  simp [gridCell, h]

theorem ne_blank_of_wideAt {grid : List Cell} {row col : Nat} (h : WideAt cols grid row col) :
    gridCell grid (row * cols + col) ≠ Cell.blank .default := by
  intro heq
  have hlead := h.1
  rw [heq] at hlead
  exact absurd hlead (by decide)

section Grid

variable {grid : List Cell} {oldCols oldRows cols rows : UInt16}

/-- The copy keeps a cell that both sizes have, cut or not. -/
theorem cell_resizeCells (hlen : grid.length = oldCols.toNat * oldRows.toNat) {row col : Nat}
    (hrow : row < rows.toNat) (hcol : col < cols.toNat) :
    (resizeCells grid oldCols oldRows cols rows)[row * cols.toNat + col]? =
      some (if row < oldRows.toNat ∧ col < oldCols.toNat then
        gridCell grid (row * oldCols.toNat + col) else Cell.blank .default) := by
  have hspan := row_span_le cols.toNat hrow
  rw [getElem?_of_gridCell (by rw [length_resizeCells]; omega), gridCell_resizeCells hlen row hcol]
  refine congrArg some (if_congr ?_ rfl rfl)
  rw [toNat_min16, toNat_min16]
  omega

theorem fitsWhole_iff (hlen : grid.length = oldCols.toNat * oldRows.toNat) (hpos : 0 < cols.toNat) :
    FitsWhole oldCols.toNat oldRows.toNat cols.toNat rows.toNat grid
        (resizeCells grid oldCols oldRows cols rows) ↔
      EdgeClear oldCols.toNat oldRows.toNat cols.toNat rows.toNat grid := by
  constructor
  · intro h hcut row hold hrow hwide
    have hedge : CutAt oldCols.toNat cols.toNat grid row (cols.toNat - 1) :=
      ⟨hcut, by omega, hwide⟩
    have hcell := h.cell row (cols.toNat - 1) hrow (by omega)
    rw [cell_resizeCells hlen hrow (by omega), if_pos ⟨hold, by omega⟩, fittedCell,
      if_neg fun hkept => hkept.2.2 hedge] at hcell
    exact ne_blank_of_wideAt hwide (Option.some.inj hcell)
  · intro h
    refine ⟨length_resizeCells _ _ _ _ _, fun row col hrow hcol => ?_⟩
    rw [cell_resizeCells hlen hrow hcol, fittedCell]
    refine congrArg some (if_congr ⟨fun hboth => ?_, fun hkept => ⟨hkept.1, hkept.2.1⟩⟩ rfl rfl)
    refine ⟨hboth.1, hboth.2, ?_⟩
    rintro ⟨hcut, hlast, hwide⟩
    refine h hcut row hboth.1 hrow ?_
    rwa [show cols.toNat - 1 = col by omega]

end Grid

namespace Screen

def inside (cols rows : UInt16) (c : SavedCursor) : SavedCursor :=
  { c with col := min c.col (cols - 1), row := min c.row (rows - 1) }

/-- A resize of the screen that keeps what fits, whole. -/
structure KeptWhole (cols rows : UInt16) (s t : Screen) : Prop where
  cols_eq : t.cols = cols
  rows_eq : t.rows = rows
  active : FitsWhole s.cols.toNat s.rows.toNat cols.toNat rows.toNat s.cells t.cells
  noSaved : s.savedGrid = none → t.savedGrid = none
  saved : ∀ grid, s.savedGrid = some grid → ∃ next, t.savedGrid = some next ∧
    FitsWhole s.cols.toNat s.rows.toNat cols.toNat rows.toNat grid next
  cursorCol : t.cursorCol = min s.cursorCol (cols - 1)
  cursorRow : t.cursorRow = min s.cursorRow (rows - 1)
  savedCursor : t.savedCursor = s.savedCursor.map (inside cols rows)
  altCursor : t.altCursor = s.altCursor.map (inside cols rows)
  inAlt : t.inAlt = s.inAlt
  modes : t.modeState = s.modeState
  autowrap : t.autowrap = s.autowrap

/-- On both grids no wide glyph straddles the new right edge. -/
def EdgesClear (s : Screen) (cols rows : UInt16) : Prop :=
  ∀ grid, grid = s.cells ∨ s.savedGrid = some grid →
    EdgeClear s.cols.toNat s.rows.toNat cols.toNat rows.toNat grid

theorem satSub16_one {n : UInt16} (h : n ≠ 0) : satSub16 n 1 = n - 1 := by
  rw [satSub16, if_pos]
  rw [UInt16.le_iff_toNat_le, UInt16.toNat_one]
  have hpos : n.toNat ≠ 0 := fun hzero => h (UInt16.toNat_inj.mp hzero)
  omega

theorem clampCursor_eq {cols rows : UInt16} (hcols : cols ≠ 0) (hrows : rows ≠ 0) :
    clampCursor cols rows = inside cols rows := by
  funext c
  rw [clampCursor, inside, satSub16_one hcols, satSub16_one hrows]

theorem resize_refuses (s : Screen) {cols rows : UInt16} (h : cols = 0 ∨ rows = 0) :
    s.resize cols rows = .error (.vt "empty grid") :=
  if_pos (by simpa using h)

theorem resize_accepts (s : Screen) {cols rows : UInt16} (hcols : cols ≠ 0) (hrows : rows ≠ 0) :
    ∃ t, s.resize cols rows = .ok t :=
  ⟨_, if_neg (by simp [hcols, hrows])⟩

/-- A resize keeps what fits whole when the new right edge cuts no glyph, and only then. -/
theorem keptWhole_iff {s t : Screen} (hs : Sound True oldCols oldRows s)
    {cols rows : UInt16} (hcols : cols ≠ 0) (hrows : rows ≠ 0) (h : s.resize cols rows = .ok t) :
    KeptWhole cols rows s t ↔ EdgesClear s cols rows := by
  have hlen := hs.length_cells
  have hsaved := hs.length_saved
  rw [← hs.cols_eq, ← hs.rows_eq] at hlen hsaved
  have hpos : 0 < cols.toNat := Nat.pos_of_ne_zero fun hzero => hcols (UInt16.toNat_inj.mp hzero)
  unfold Screen.resize at h
  rw [if_neg (by simp [hcols, hrows])] at h
  obtain rfl := Except.ok.inj h
  constructor
  · rintro hkept grid (rfl | hgrid)
    · exact (fitsWhole_iff hlen hpos).mp hkept.active
    · obtain ⟨next, hnext, hfits⟩ := hkept.saved grid hgrid
      obtain rfl : resizeCells grid s.cols s.rows cols rows = next := by
        rw [hgrid] at hnext
        exact Option.some.inj hnext
      exact (fitsWhole_iff (hsaved grid hgrid) hpos).mp hfits
  · intro hclear
    exact {
      cols_eq := rfl
      rows_eq := rfl
      active := (fitsWhole_iff hlen hpos).mpr (hclear _ (.inl rfl))
      noSaved := fun hnone => Option.map_eq_none_iff.mpr hnone
      saved := fun grid hgrid => ⟨_, Option.map_eq_some_iff.mpr ⟨grid, hgrid, rfl⟩,
        (fitsWhole_iff (hsaved grid hgrid) hpos).mpr (hclear grid (.inr hgrid))⟩
      cursorCol := congrArg (min s.cursorCol) (satSub16_one hcols)
      cursorRow := congrArg (min s.cursorRow) (satSub16_one hrows)
      savedCursor := by rw [clampCursor_eq hcols hrows]
      altCursor := by rw [clampCursor_eq hcols hrows]
      inAlt := rfl
      modes := rfl
      autowrap := rfl }

end Screen

namespace VtEngine

/-- What a resize of an engine is meant to do, at any size. -/
structure ResizesWhole (e : VtEngine) (cols rows : UInt16) : Prop where
  refused : cols = 0 ∨ rows = 0 →
    e.resize cols rows = .error (.vt "empty grid") ∧ e.after (e.resize cols rows) = e
  kept : cols ≠ 0 → rows ≠ 0 → ∃ f, e.resize cols rows = .ok f ∧ f.parser = e.parser ∧
    e.screen.KeptWhole cols rows f.screen

theorem resize_of_screen {e : VtEngine} {s : Screen} (h : e.screen.resize cols rows = .ok s) :
    e.resize cols rows = .ok { e with screen := s } := by
  rw [resize, h]
  rfl

/-- A resize keeps what fits whole just when no wide glyph straddles the new right edge, on the
visible grid or the saved one. -/
theorem resizesWhole_iff (h : Hosted e) (cols rows : UInt16) :
    e.ResizesWhole cols rows ↔ (cols ≠ 0 → rows ≠ 0 → e.screen.EdgesClear cols rows) := by
  obtain ⟨⟨_, _, hwhole⟩, -⟩ := h.fits
  constructor
  · intro hwholes hcols hrows
    obtain ⟨f, hf, -, hkept⟩ := hwholes.kept hcols hrows
    exact (Screen.keptWhole_iff hwhole.sound hcols hrows (resize_ok hf)).mp hkept
  · intro hclear
    refine ⟨fun hzero => ?_, fun hcols hrows => ?_⟩
    · have herr : e.resize cols rows = .error (.vt "empty grid") := by
        rw [resize, Screen.resize_refuses e.screen hzero]
        rfl
      exact ⟨herr, by rw [herr]; rfl⟩
    · obtain ⟨s, hs⟩ := Screen.resize_accepts e.screen hcols hrows
      exact ⟨_, resize_of_screen hs, rfl,
        (Screen.keptWhole_iff hwhole.sound hcols hrows hs).mpr (hclear hcols hrows)⟩

/-- A letter before a wide glyph, cut between the two. -/
theorem resizesWhole_between :
    let e := ((VtEngine.new 3 1).toOption.get rfl).feed [0x41, 0xe4, 0xb8, 0xad]
    e.ResizesWhole 1 1 := by
  intro e
  have hnone : e.screen.savedGrid = none := by decide +kernel
  have hrows : e.screen.rows.toNat = 1 := by decide +kernel
  have hclear : ¬ WideAt e.screen.cols.toNat e.screen.cells 0 (UInt16.toNat 1 - 1) := by
    unfold WideAt
    decide +kernel
  have hhosted : Hosted e := .feed (.new (show VtEngine.new 3 1 = _ from rfl)) _
  refine (resizesWhole_iff hhosted 1 1).mpr fun _ _ grid hgrid _ row hold _ => ?_
  rcases hgrid with hgrid | hgrid
  · rw [hrows] at hold
    rwa [hgrid, Nat.lt_one_iff.mp hold]
  · rw [hnone] at hgrid
    cases hgrid

/-- The left half of a wide glyph that stays after its right half is cut off. -/
theorem resize_leaves_half :
    ∃ e f, Hosted e ∧ e.resize 1 1 = .ok f ∧ ¬ e.ResizesWhole 1 1 ∧
      f.screen.cells.map (fun c => (c.codepoint, c.isLead)) = [(0x4e2d, true)] := by
  let e := ((VtEngine.new 2 1).toOption.get rfl).feed [0xe4, 0xb8, 0xad]
  have hwide : WideAt e.screen.cols.toNat e.screen.cells 0 0 := by
    unfold WideAt
    decide
  have hhosted : Hosted e := .feed (.new (show VtEngine.new 2 1 = _ from rfl)) _
  obtain ⟨⟨_, _, hscreen⟩, -⟩ := hhosted.fits
  refine ⟨e, (e.resize 1 1).toOption.get rfl, hhosted, rfl, fun hwhole => ?_, by decide⟩
  obtain ⟨f, hf, -, hkept⟩ := hwhole.kept (by decide) (by decide)
  have hclear := (Screen.keptWhole_iff hscreen.sound (by decide) (by decide) (resize_ok hf)).mp hkept
  exact hclear _ (.inl rfl) (by decide) 0 (by decide) (by decide) hwide

end VtEngine

end Rill.Vt
