import Rill.Vt.Cluster
import Rill.Vt.Mirror
import Rill.Vt.Spans

/-!
# The anchor of the open cluster

The cluster that is open is meant to be the glyph just printed. Erasing, scrolling, editing
and restoring a cursor do not close it, so this holds while they spare the glyph.
-/

namespace Rill.Vt

open Lib Screen

/-- A cell of a glyph with this base: no half, the left one or the right one. -/
structure Cell.Holds (c : Cell) (base : Char) (lead tail : Bool) : Prop where
  codepoint : c.codepoint = base.val
  lead : c.isLead = lead
  tail : c.isTail = tail

/-- What was printed last, and where. -/
structure Glyph where
  row : UInt16
  col : UInt16
  base : Char

/-- The cluster is the glyph: its cells hold the base, in the width of the cluster, and the cursor
is where it was left by advancing past them. -/
structure Stands (s : Screen) (g : Glyph) (cl : OpenCluster) : Prop where
  row : cl.row = g.row
  col : cl.col = g.col
  width : cl.width = 1 ∨ cl.width = 2
  fits : cl.col.toNat + cl.width.toNat ≤ s.cols.toNat
  lead : (gridCell s.cells (s.idx cl.col cl.row)).Holds g.base (cl.width = 2) false
  tail : cl.width = 2 → (gridCell s.cells (s.idx cl.col cl.row + 1)).Holds g.base false true
  cursorRow : s.cursorRow = cl.row
  cursorCol : s.cursorCol.toNat = min (cl.col.toNat + cl.width.toNat) (s.cols.toNat - 1)

/-- A cluster that is open is the glyph printed last. -/
def Standing (s : Screen) (g : Option Glyph) : Prop :=
  ∀ cl, s.openCluster = some cl → ∃ x, g = some x ∧ Stands s x cl

/-- `t` has the cursor of `s`, and the cells of the glyph of the cluster. -/
structure Spared (s t : Screen) (cl : OpenCluster) : Prop where
  cursorRow : t.cursorRow = s.cursorRow
  cursorCol : t.cursorCol = s.cursorCol
  cols : t.cols = s.cols
  cells : ∀ i, s.idx cl.col cl.row ≤ i → i < s.idx cl.col cl.row + cl.width.toNat →
    gridCell t.cells i = gridCell s.cells i

section

variable {cols rows : Nat} {s t u : Screen} {cl : OpenCluster} {g : Option Glyph} {x : Glyph}

theorem width_toNat (h : cl.width = 1 ∨ cl.width = 2) :
    cl.width.toNat = 1 ∧ ¬ cl.width = 2 ∨ cl.width.toNat = 2 ∧ cl.width = 2 := by
  rcases h with h | h
  · exact .inl ⟨h ▸ rfl, h ▸ by decide⟩
  · exact .inr ⟨h ▸ rfl, h⟩

theorem Stands.spared (h : Stands s x cl) (k : Spared s t cl) : Stands t x cl := by
  have hidx : t.idx cl.col cl.row = s.idx cl.col cl.row := by rw [Screen.idx, k.cols]; rfl
  have hwidth := width_toNat h.width
  refine ⟨h.row, h.col, h.width, k.cols ▸ h.fits, ?_, fun htwo => ?_, k.cursorRow.trans h.cursorRow, ?_⟩
  · rw [hidx, k.cells _ (Nat.le_refl _) (by omega)]
    exact h.lead
  · rw [hidx, k.cells _ (by omega) (by rw [htwo]; exact Nat.lt_succ_self _)]
    exact h.tail htwo
  · rw [k.cursorCol, k.cols]
    exact h.cursorCol

theorem Standing.of_closed (h : s.openCluster = none) : Standing s g := by
  intro cl hcl
  rw [h] at hcl
  cases hcl

theorem Standing.spared (h : Standing s g) (hcluster : t.openCluster = s.openCluster)
    (k : ∀ cl, s.openCluster = some cl → Spared s t cl) : Standing t g := by
  intro cl hcl
  rw [hcluster] at hcl
  obtain ⟨x, hx, hstands⟩ := h cl hcl
  exact ⟨x, hx, hstands.spared (k cl hcl)⟩

theorem Standing.same (h : Standing s g) (hcluster : t.openCluster = s.openCluster)
    (hcursor : t.cursorRow = s.cursorRow ∧ t.cursorCol = s.cursorCol) (hcols : t.cols = s.cols)
    (hcells : t.cells = s.cells) : Standing t g :=
  h.spared hcluster fun _ _ => ⟨hcursor.1, hcursor.2, hcols, fun _ _ _ => by rw [hcells]⟩

theorem Standing.edited (h : Standing s g) (hedits : Edits s t)
    (k : ∀ cl x, s.openCluster = some cl → Stands s x cl →
      ∀ i, s.idx cl.col cl.row ≤ i → i < s.idx cl.col cl.row + cl.width.toNat →
        gridCell t.cells i = gridCell s.cells i) : Standing t g := by
  have hcluster : t.openCluster = s.openCluster :=
    hedits.congr Screen.openCluster fun _ _ _ _ _ _ _ => rfl
  refine h.spared hcluster fun cl hcl => ?_
  obtain ⟨x, -, hstands⟩ := h cl hcl
  exact {
    cursorRow := hedits.congr Screen.cursorRow fun _ _ _ _ _ _ _ => rfl
    cursorCol := hedits.congr Screen.cursorCol fun _ _ _ _ _ _ _ => rfl
    cols := hedits.cols
    cells := k cl x hcl hstands }

-- ---------------------------------------------------------------------------
-- Erasing and editing
-- ---------------------------------------------------------------------------

/-- The cursor stands to the right of the glyph, not on it. -/
def Past (s : Screen) (cl : OpenCluster) : Prop := cl.col.toNat + cl.width.toNat ≤ s.cursorCol.toNat

/-- No cell of the glyph is the left half of one outside it. -/
theorem Stands.last_lead (h : Stands s x cl) {i : Nat} (hi : s.idx cl.col cl.row ≤ i)
    (hlast : i + 1 = s.idx cl.col cl.row + cl.width.toNat) :
    wideHalves.lead (gridCell s.cells i) = false := by
  rcases width_toNat h.width with ⟨hone, htwo⟩ | ⟨htwo, hcl⟩
  · obtain rfl : i = s.idx cl.col cl.row := by omega
    have hlead := h.lead.lead
    rwa [decide_eq_false htwo] at hlead
  · obtain rfl : i = s.idx cl.col cl.row + 1 := by omega
    exact (h.tail hcl).lead

theorem Stands.end_eq (h : Stands s x cl) (hpast : Past s cl) :
    s.idx cl.col cl.row + cl.width.toNat = s.idx s.cursorCol s.cursorRow := by
  have hcol := h.cursorCol
  unfold Past at hpast
  rw [Screen.idx, Screen.idx, h.cursorRow]
  omega

theorem Stands.smash_before (h : Stands s x cl) {lo : Nat} (blank : Cell)
    (hlo : s.idx cl.col cl.row + cl.width.toNat ≤ lo) (n : Nat) {i : Nat}
    (hi : s.idx cl.col cl.row ≤ i) (hlt : i < s.idx cl.col cl.row + cl.width.toNat) :
    ((List.range' lo n).foldl (wideHalves.smash cols blank) (gridCell s.cells)) i = gridCell s.cells i :=
  Halves.smash_span_before (by omega) (fun hlast => h.last_lead hi (by omega)) n

variable {strict : Prop}

theorem Stands.eraseSpan (h : Stands s x cl) (hs : Sound strict cols rows s) {start : Nat} (stop : Nat)
    (hstart : s.idx cl.col cl.row + cl.width.toNat ≤ start) {i : Nat}
    (hi : s.idx cl.col cl.row ≤ i) (hlt : i < s.idx cl.col cl.row + cl.width.toNat) :
    gridCell (s.eraseSpan start stop).cells i = gridCell s.cells i := by
  have hlen := hs.length_cells
  generalize hhi : min stop s.cells.length = hi'
  generalize hlo : min start hi' = lo
  have hsmash := gridCell_smashSpan lo hs (show hi' ≤ cols * rows by omega)
  have hblank : gridCell ((s.smashSpan lo hi').blankCells lo hi').cells i = gridCell s.cells i := by
    rw [Screen.blankCells, gridCell_fillCells (by rw [(hs.smashSpan lo hi').length_cells]; omega), hsmash]
    rcases Nat.eq_or_lt_of_le (show lo ≤ hi' by omega) with rfl | hopen
    · rw [if_neg (by omega), Nat.sub_self]
      rfl
    · rw [if_neg (by omega)]
      exact h.smash_before _ (by omega) _ hi hlt
  unfold Screen.eraseSpan
  simp only [hhi, hlo]
  split
  · rw [(agree_dirtyRows _ _ _).cells]
    exact hblank
  · exact hblank

theorem Stands.insertCells (h : Stands s x cl) (hs : Sound True cols rows s) (hpast : Past s cl) (n : UInt16)
    {i : Nat} (hlt : i < s.idx cl.col cl.row + cl.width.toNat) :
    gridCell (s.insertCells n).cells i = gridCell s.cells i := by
  have hend := h.end_eq hpast
  have hcell := cells_insertCells hs n i
  have hcur : s.idx s.cursorCol s.cursorRow = s.cursorRow.toNat * cols + s.cursorCol.toNat := by
    rw [Screen.idx, hs.cols_eq]
  rw [if_neg (by omega)] at hcell
  simp only [gridCell, List.getD_eq_getElem?_getD, hcell]

theorem Stands.deleteCells (h : Stands s x cl) (hs : Sound True cols rows s) (hpast : Past s cl) (n : UInt16)
    {i : Nat} (hi : s.idx cl.col cl.row ≤ i) (hlt : i < s.idx cl.col cl.row + cl.width.toNat) :
    gridCell (s.deleteCells n).cells i = gridCell s.cells i := by
  have hend := h.end_eq hpast
  have hc := hs.cursorCol_lt
  have hlen := hs.length_cells
  have hspan := row_span_le cols hs.cursorRow_lt
  have hcur : s.idx s.cursorCol s.cursorRow = s.idx 0 s.cursorRow + s.cursorCol.toNat := rfl
  have hrow : s.idx 0 s.cursorRow = s.cursorRow.toNat * cols := by rw [Screen.idx, hs.cols_eq]; rfl
  have hle : s.cursorCol.toNat + (min n (satSub16 s.cols s.cursorCol)).toNat ≤ cols := by
    rw [toNat_min16, toNat_satSub16, hs.cols_eq]
    omega
  unfold Screen.deleteCells
  dsimp only
  generalize (min n (satSub16 s.cols s.cursorCol)).toNat = n at hle ⊢
  split
  case isTrue => rfl
  case isFalse hn =>
    have hsmash := gridCell_smashCols hs hle hs.cursorRow_lt
    have hsmashlen := (hs.smashCols s.cursorRow s.cursorCol.toNat n).length_cells
    rw [hs.cols_eq, cells_dirty]
    generalize s.smashCols s.cursorRow s.cursorCol.toNat n = u at hsmash hsmashlen ⊢
    have hu : gridCell u.cells i = gridCell s.cells i := by
      rw [hsmash]
      exact h.smash_before _ (by omega) _ hi hlt
    split
    · rw [Screen.blankCells, gridCell_fillCells (by
        rw [show (u.copyWithin _ _ _).cells.length = u.cells.length from List.length_mapIdx]
        omega), if_neg (by omega), gridCell_copyWithin (by omega), if_neg (by omega), hu]
    · rw [Screen.blankCells, gridCell_fillCells (by omega), if_neg (by omega), hu]

-- ---------------------------------------------------------------------------
-- Scrolling
-- ---------------------------------------------------------------------------

/-- The row of the cursor does not scroll. -/
def OutsideRegion (s : Screen) : Prop := s.cursorRow < s.scrollTop ∨ s.scrollBottom < s.cursorRow

theorem gridCell_of_rowCells (hs : Sound True cols rows s) (ht : Sound True cols rows t) {r c : Nat}
    (hc : c < cols) (hrow : t.rowCells r = s.rowCells r) :
    gridCell t.cells (r * cols + c) = gridCell s.cells (r * cols + c) := by
  have hcell : (t.rowCells r)[c]? = (s.rowCells r)[c]? := by rw [hrow]
  rw [getElem?_rowCells_lt ht hc, getElem?_rowCells_lt hs hc] at hcell
  simp only [gridCell, List.getD_eq_getElem?_getD, hcell]

/-- What keeps the row of the cursor keeps the glyph. -/
theorem Standing.kept_row (h : Standing s g) (hs : Sound True cols rows s) (ht : Sound True cols rows t)
    (hedits : Edits s t) (hrow : t.rowCells s.cursorRow.toNat = s.rowCells s.cursorRow.toNat) :
    Standing t g := by
  refine h.edited hedits fun cl x _ hstands i hi hlt => ?_
  have hfits := hstands.fits
  rw [hstands.cursorRow] at hrow
  rw [hs.cols_eq] at hfits
  rw [Screen.idx, hs.cols_eq] at hi hlt
  obtain ⟨c, rfl⟩ : ∃ c, i = cl.row.toNat * cols + c := ⟨i - cl.row.toNat * cols, by omega⟩
  exact gridCell_of_rowCells hs ht (by omega) hrow

theorem rowCells_scrolled (hs : Sound True cols rows s) (hout : OutsideRegion s) :
    s.scrollUp.rowCells s.cursorRow.toNat = s.rowCells s.cursorRow.toNat ∧
      s.scrollDown.rowCells s.cursorRow.toNat = s.rowCells s.cursorRow.toNat := by
  have hle := hs.region_le trivial
  have hout : s.cursorRow.toNat < s.scrollTop.toNat ∨ s.scrollBottom.toNat < s.cursorRow.toNat :=
    hout.imp UInt16.lt_iff_toNat_lt.mp UInt16.lt_iff_toNat_lt.mp
  rw [rowCells_scrollUp hs, rowCells_scrollDown hs, if_neg (by omega), if_neg (by omega),
    if_neg (by omega), if_neg (by omega)]
  exact ⟨rfl, rfl⟩

theorem OutsideRegion.edited (h : OutsideRegion s) (hedits : Edits s t) : OutsideRegion t := by
  rw [OutsideRegion, hedits.scrollTop, hedits.scrollBottom,
    hedits.congr Screen.cursorRow fun _ _ _ _ _ _ _ => rfl]
  exact h

theorem Standing.scrollUp (h : Standing s g) (hs : Sound True cols rows s) (hout : OutsideRegion s) :
    Standing s.scrollUp g :=
  h.kept_row hs hs.scrollUp (Edits.scrollUp s) (rowCells_scrolled hs hout).1

theorem Standing.scrollDown (h : Standing s g) (hs : Sound True cols rows s) (hout : OutsideRegion s) :
    Standing s.scrollDown g :=
  h.kept_row hs hs.scrollDown (Edits.scrollDown s) (rowCells_scrolled hs hout).2

theorem Standing.scrolls {f : Screen → Screen} (hedits : ∀ s, Edits s (f s))
    (hsound : ∀ s, Sound True cols rows s → Sound True cols rows (f s))
    (hf : ∀ s, Standing s g → Sound True cols rows s → OutsideRegion s → Standing (f s) g)
    (h : Standing s g) (hs : Sound True cols rows s) (hout : OutsideRegion s) (n : Nat) :
    Standing (n.repeat f s) g := by
  induction n with
  | zero => exact h
  | succ n ih =>
    exact hf _ ih (repeat_keeps hsound hs n) (hout.edited (Edits.iterate hedits s n))

-- ---------------------------------------------------------------------------
-- Printing
-- ---------------------------------------------------------------------------

/-- The cells that what joins the cluster may change: the glyph's, the one it grows into, and the
right half of a glyph that began there. -/
def Within (s t : Screen) (cl : OpenCluster) : Prop :=
  ∀ i, gridCell t.cells i ≠ gridCell s.cells i →
    i = s.idx cl.col cl.row ∨ i = s.idx cl.col cl.row + 1 ∨
      i = s.idx cl.col cl.row + 2 ∧ (gridCell s.cells (s.idx cl.col cl.row + 1)).isLead = true

theorem Edits.paintGlyph (s : Screen) (c : Char) (col row width : UInt16) :
    Edits s (s.paintGlyph c col row width) := by
  have hfirst := Edits.smashWideAt s col row
  have hsecond := Edits.ite (c := width = 2) (hfirst.trans (Edits.smashWideAt _ (col + 1) row)) hfirst
  unfold Screen.paintGlyph
  dsimp only
  generalize (if width = 2 then (s.smashWideAt col row).smashWideAt (col + 1) row
    else s.smashWideAt col row) = t at hsecond ⊢
  exact Edits.ite (hsecond.trans rfl) (hsecond.trans rfl)

theorem advance_toNat (width : UInt16) (h : s.cursorCol.toNat + width.toNat ≤ 65535) :
    (s.advanceAfterWidth width).cursorCol.toNat =
      min (s.cursorCol.toNat + width.toNat) (s.cols.toNat - 1) := by
  have hsum : (satAdd16 s.cursorCol width).toNat = s.cursorCol.toNat + width.toNat := by
    rw [satAdd16, if_pos (by omega), UInt16.toNat_add]
    omega
  unfold advanceAfterWidth
  dsimp only
  split
  case isTrue hlt =>
    have hlt := UInt16.lt_iff_toNat_lt.mp hlt
    change (satAdd16 s.cursorCol width).toNat = _
    omega
  case isFalse hge =>
    have hge := UInt16.le_iff_toNat_le.mp (UInt16.not_lt.mp hge)
    change (satSub16 s.cols 1).toNat = _
    rw [toNat_satSub16, UInt16.toNat_one]
    omega

theorem gridCell_setPair (hi : i + 1 < s.cells.length) (a b : Cell) (k : Nat) :
    gridCell ((s.setCell i a).setCell (i + 1) b).cells k =
      if k = i then a else if k = i + 1 then b else gridCell s.cells k := by
  change gridCell ((s.cells.set i a).set (i + 1) b) k = _
  rw [gridCell_set (by rw [List.length_set]; exact hi), gridCell_set (by omega)]
  by_cases hlead : k = i
  · rw [if_pos hlead, Function.update_of_ne (by omega), hlead, Function.update_self]
  · rw [if_neg hlead]
    by_cases htail : k = i + 1
    · rw [if_pos htail, htail, Function.update_self]
    · rw [if_neg htail, Function.update_of_ne htail, Function.update_of_ne hlead]

theorem Cell.Holds.of_eq {c d : Cell} {base : Char} {lead tail : Bool} (h : c.Holds base lead tail)
    (heq : d = c) : d.Holds base lead tail := heq ▸ h

theorem holds_lead (cp : UInt32) (fg bg : Color) (a : UInt16) {base : Char} (h : cp = base.val) :
    Cell.Holds ⟨cp, fg, bg, (a &&& sgrMask) ||| attrWideLead⟩ base true false :=
  ⟨h, (Joined.lead_sgr _ _ _ _).1, (Joined.lead_sgr _ _ _ _).2⟩

theorem holds_tail (cp : UInt32) (fg bg : Color) (a : UInt16) {base : Char} (h : cp = base.val) :
    Cell.Holds ⟨cp, fg, bg, (a &&& sgrMask) ||| attrWideTail⟩ base false true :=
  ⟨h, (Joined.tail_sgr _ _ _ _).1, (Joined.tail_sgr _ _ _ _).2⟩

theorem holds_plain (cp : UInt32) (fg bg : Color) (a : UInt16) {base : Char} (h : cp = base.val) :
    Cell.Holds ⟨cp, fg, bg, (a &&& sgrMask) ||| 0⟩ base false false :=
  ⟨h, (Joined.plain_sgr _ _ _ _).lead, (Joined.plain_sgr _ _ _ _).tail⟩

/-- A glyph that was painted holds its scalar. -/
theorem holds_paintGlyph (hs : Sound True cols rows s) (c : Char) {col row : UInt16}
    (hc : col.toNat < cols) (hr : row.toNat < rows) (hw : clusterWidth c = 2 → (col + 1).toNat < cols) :
    let t := s.paintGlyph c col row (clusterWidth c)
    (gridCell t.cells (s.idx col row)).Holds c (clusterWidth c = 2) false ∧
      (clusterWidth c = 2 → (gridCell t.cells (s.idx col row + 1)).Holds c false true) := by
  have hfirst := hs.smashWideAt col row
  have hframe := (Draws.refl s).smashWideAt col row
  unfold Screen.paintGlyph
  dsimp only
  generalize s.smashWideAt col row = u at *
  rcases Typable.width_cases c with hwidth | hwidth
  · have hsecond := hfirst.smashWideAt (col + 1) row
    have hframe' := hframe.smashWideAt (col + 1) row
    have hnext := hw hwidth
    rw [hwidth, if_pos rfl, if_pos rfl, if_pos rfl]
    generalize u.smashWideAt (col + 1) row = v at *
    have hidx := (Joined.idx_next hsecond hc hnext row).1
    have hlt := hsecond.idx_lt hnext hr
    rw [← Joined.idx_draws hframe']
    have hcells := gridCell_setPair (show v.idx col row + 1 < v.cells.length by omega)
      ⟨c.val, v.penFg, v.penBg, (s.penAttrs &&& sgrMask) ||| attrWideLead⟩
      ⟨c.val, v.penFg, v.penBg, (s.penAttrs &&& sgrMask) ||| attrWideTail⟩
    have hlead := hcells (v.idx col row)
    have htail := hcells (v.idx col row + 1)
    rw [if_pos rfl, ← hidx] at hlead
    rw [if_neg (by omega), if_pos rfl, ← hidx] at htail
    rw [← hidx]
    exact ⟨(holds_lead _ _ _ _ rfl).of_eq hlead, fun _ => (holds_tail _ _ _ _ rfl).of_eq htail⟩
  · have hnarrow : ¬ clusterWidth c = 2 := by rw [hwidth]; decide
    rw [if_neg hnarrow, if_neg hnarrow, if_neg hnarrow, ← Joined.idx_draws hframe]
    have hlead := congrFun (gridCell_set (hfirst.idx_lt hc hr)
      ⟨c.val, u.penFg, u.penBg, (s.penAttrs &&& sgrMask) ||| 0⟩) (u.idx col row)
    rw [Function.update_self] at hlead
    refine ⟨?_, fun htwo => absurd htwo hnarrow⟩
    rw [decide_eq_false hnarrow]
    exact (holds_plain _ _ _ _ rfl).of_eq hlead

/-- A glyph just placed stands. -/
theorem stands_placeGlyph (hs : Sound True cols rows s) (c : Char)
    (hroom : s.cursorCol.toNat + (clusterWidth c).toNat ≤ cols) :
    ∃ cl, (s.placeGlyph c (clusterWidth c)).openCluster = some cl ∧
      Stands (s.placeGlyph c (clusterWidth c)) ⟨s.cursorRow, s.cursorCol, c⟩ cl := by
  have hcols := hs.cols_eq
  have hle := cols_le hs
  have hnext : clusterWidth c = 2 → (s.cursorCol + 1).toNat < cols := by
    intro htwo
    rw [htwo] at hroom
    change s.cursorCol.toNat + 2 ≤ cols at hroom
    rw [UInt16.toNat_add, UInt16.toNat_one]
    omega
  obtain ⟨hlead, htail⟩ := holds_paintGlyph hs c hs.cursorCol_lt hs.cursorRow_lt hnext
  have hpaint := Edits.paintGlyph s c s.cursorCol s.cursorRow (clusterWidth c)
  have hrow : (s.paintGlyph c s.cursorCol s.cursorRow (clusterWidth c)).cursorRow = s.cursorRow :=
    hpaint.congr Screen.cursorRow fun _ _ _ _ _ _ _ => rfl
  have hcol : (s.paintGlyph c s.cursorCol s.cursorRow (clusterWidth c)).cursorCol = s.cursorCol :=
    hpaint.congr Screen.cursorCol fun _ _ _ _ _ _ _ => rfl
  have hpcols := hpaint.cols
  unfold Screen.placeGlyph
  dsimp only
  generalize s.paintGlyph c s.cursorCol s.cursorRow (clusterWidth c) = t at *
  generalize hnew : OpenCluster.mk s.cursorRow s.cursorCol 1 (decide (c = zeroWidthJoiner))
    (isRegionalIndicator c) (clusterWidth c).toUInt8 = cl
  have hclrow : cl.row = s.cursorRow := hnew ▸ rfl
  have hclcol : cl.col = s.cursorCol := hnew ▸ rfl
  have hclwidth : cl.width = (clusterWidth c).toUInt8 := hnew ▸ rfl
  have htwo : cl.width = 2 ↔ clusterWidth c = 2 := by
    rw [hclwidth]
    rcases Typable.width_cases c with hwidth | hwidth <;> rw [hwidth] <;> decide
  have hnat : cl.width.toNat = (clusterWidth c).toNat := by
    rw [hclwidth]
    rcases Typable.width_cases c with hwidth | hwidth <;> rw [hwidth] <;> rfl
  obtain ⟨damageRow0, damageRow1, hdirty⟩ := Typing.dirty_eq (t.setOpenCluster (some cl)) s.cursorRow
  obtain ⟨col, pending, hadvance⟩ :=
    Typing.advance_eq ((t.setOpenCluster (some cl)).dirty s.cursorRow) (clusterWidth c)
  have hcursor := advance_toNat (s := (t.setOpenCluster (some cl)).dirty s.cursorRow)
    (clusterWidth c)
  rw [hadvance, hdirty] at hcursor ⊢
  have hidx : s.idx cl.col cl.row = t.idx cl.col cl.row := by rw [Screen.idx, Screen.idx, hpcols]
  rw [← hclcol, ← hclrow, hidx] at hlead htail
  refine ⟨cl, rfl, {
    row := hclrow
    col := hclcol
    width := ?_
    fits := ?_
    lead := ?_
    tail := fun hw => htail (htwo.mp hw)
    cursorRow := hrow.trans hclrow.symm
    cursorCol := ?_ }⟩
  · rw [hclwidth]
    rcases Typable.width_cases c with hwidth | hwidth
    · exact .inr (hwidth ▸ rfl)
    · exact .inl (hwidth ▸ rfl)
  · change cl.col.toNat + cl.width.toNat ≤ t.cols.toNat
    rw [hclcol, hnat, hpcols]
    omega
  · rwa [decide_eq_decide.mpr htwo]
  · change col.toNat = min (cl.col.toNat + cl.width.toNat) (t.cols.toNat - 1)
    rw [hclcol, hnat, ← hcol]
    exact hcursor (by change t.cursorCol.toNat + _ ≤ _; rw [hcol]; omega)

/-- The smash at the cell that a cluster grows into spares the glyph. -/
theorem Stands.smash_tail (h : Stands s x cl) (hs : Sound True cols rows s) (hone : ¬ cl.width = 2)
    (hrow : cl.row.toNat < rows) (hnext : (cl.col + 1).toNat < cols) :
    gridCell (s.smashWideAt (cl.col + 1) cl.row).cells (s.idx cl.col cl.row) =
        gridCell s.cells (s.idx cl.col cl.row) ∧
      ∀ i, gridCell (s.smashWideAt (cl.col + 1) cl.row).cells i ≠ gridCell s.cells i →
        i = s.idx cl.col cl.row + 2 ∧ (gridCell s.cells (s.idx cl.col cl.row + 1)).isLead = true := by
  have hcol : cl.col.toNat < cols := by
    have hwidth := width_toNat h.width
    have hfits := h.fits
    rw [hs.cols_eq] at hfits
    omega
  have hlead : wideHalves.lead (gridCell s.cells (s.idx cl.col cl.row)) = false := by
    have hlead := h.lead.lead
    rwa [decide_eq_false hone] at hlead
  have hidx := (Joined.idx_next hs hcol hnext cl.row).1
  have hcells := gridCell_smashWideAt hs hnext hrow
  rw [hidx] at hcells
  generalize s.idx cl.col cl.row = k at *
  refine ⟨?_, fun i hi => ?_⟩
  · rw [hcells]
    exact Halves.smash_before (Nat.lt_succ_self k) fun _ => hlead
  · rw [hcells] at hi
    exact Halves.eq_of_smash_ne hlead hi

theorem gridCell_widenCluster (hs : Sound True cols rows s) (hcol : cl.col.toNat < cols)
    (hrow : cl.row.toNat < rows) (hnext : (cl.col + 1).toNat < cols) (k : Nat) :
    let u := s.smashWideAt (cl.col + 1) cl.row
    let i := s.idx cl.col cl.row
    gridCell (s.widenCluster cl (cl.col + 1)).cells k =
      if k = i then (gridCell u.cells i).leadHalf
      else if k = i + 1 then (gridCell u.cells i).tailHalf
      else gridCell u.cells k := by
  intro u i
  have hsound := hs.smashWideAt (cl.col + 1) cl.row
  have hi : u.idx cl.col cl.row = i := Joined.idx_draws ((Draws.refl s).smashWideAt _ _) _ _
  have hidx : u.idx (cl.col + 1) cl.row = u.idx cl.col cl.row + 1 :=
    (Joined.idx_next hsound hcol hnext cl.row).1
  have hlt : u.idx (cl.col + 1) cl.row < u.cells.length := hsound.idx_lt hnext hrow
  have hcells := gridCell_setPair (show u.idx cl.col cl.row + 1 < u.cells.length by omega)
    (u.cellAt (u.idx cl.col cl.row)).leadHalf (u.cellAt (u.idx cl.col cl.row)).tailHalf k
  unfold widenCluster
  dsimp only
  rw [cells_dirty, ← hi]
  refine Eq.trans ?_ hcells
  rw [← hidx]
  rfl

theorem widenCluster_keeps (s : Screen) (cl : OpenCluster) (tailCol : UInt16) :
    let w := s.widenCluster cl tailCol
    w.cursorCol = s.cursorCol ∧ w.cursorRow = s.cursorRow ∧ w.cols = s.cols ∧
      w.openCluster = some { cl with width := 2 } := by
  have hsmash := Edits.smashWideAt s tailCol cl.row
  have hcol := hsmash.congr Screen.cursorCol fun _ _ _ _ _ _ _ => rfl
  have hrow := hsmash.congr Screen.cursorRow fun _ _ _ _ _ _ _ => rfl
  have hcols := hsmash.cols
  unfold widenCluster
  dsimp only
  generalize s.smashWideAt tailCol cl.row = u at *
  obtain ⟨damageRow0, damageRow1, hdirty⟩ := Typing.dirty_eq (setOpenCluster _ _) cl.row
  rw [hdirty]
  exact ⟨hcol, hrow, hcols, rfl⟩

/-- A glyph that grows into the cell after it. -/
theorem Stands.widened (h : Stands s x cl) (hs : Sound True cols rows s) (hrow : cl.row.toNat < rows)
    (hone : cl.width.toNat = 1 ∧ ¬ cl.width = 2) (hnext : (cl.col + 1).toNat < cols) :
    let w := s.widenCluster cl (cl.col + 1)
    let t := if w.cursorCol ≤ cl.col + 1 && w.cursorRow = cl.row then
        (w.setCursorCol (cl.col + 1)).advanceAfterWidth 1 else w
    ∃ cl', t.openCluster = some cl' ∧ Stands t x cl' ∧ Within s t cl := by
  intro w t
  have hle := cols_le hs
  have hcols := hs.cols_eq
  have hfits := h.fits
  have hcolumn := h.cursorCol
  have hcol : cl.col.toNat < cols := by omega
  have hsucc : (cl.col + 1).toNat = cl.col.toNat + 1 := by
    rw [UInt16.toNat_add, UInt16.toNat_one]
    omega
  obtain ⟨hkept, hchanged⟩ := h.smash_tail hs hone.2 hrow hnext
  have hcells := gridCell_widenCluster hs hcol hrow hnext
  dsimp only at hcells
  rw [hkept] at hcells
  obtain ⟨hwcol, hwrow, hwcols, hwopen⟩ := widenCluster_keeps s cl (cl.col + 1)
  have hat : w.cursorCol = cl.col + 1 := UInt16.toNat_inj.mp (by rw [hwcol, hsucc]; omega)
  have ht : t = (w.setCursorCol (cl.col + 1)).advanceAfterWidth 1 :=
    if_pos (Bool.and_eq_true_iff.mpr ⟨decide_eq_true (hat ▸ UInt16.le_refl _),
      decide_eq_true (hwrow.trans h.cursorRow)⟩)
  have hcursor := advance_toNat (s := w.setCursorCol (cl.col + 1)) 1
    (by change (cl.col + 1).toNat + 1 ≤ _; omega)
  obtain ⟨col, pending, hadvance⟩ := Typing.advance_eq (w.setCursorCol (cl.col + 1)) 1
  rw [hadvance] at ht hcursor
  have hidx : t.idx cl.col cl.row = s.idx cl.col cl.row := by
    rw [ht]
    change cl.row.toNat * w.cols.toNat + cl.col.toNat = _
    rw [hwcols]
    rfl
  have htcells : t.cells = w.cells := by rw [ht]; rfl
  refine ⟨{ cl with width := 2 }, by rw [ht]; exact hwopen, {
    row := h.row
    col := h.col
    width := .inr rfl
    fits := ?_
    lead := ?_
    tail := fun _ => ?_
    cursorRow := ?_
    cursorCol := ?_ }, fun i hi => ?_⟩
  · rw [ht]
    change cl.col.toNat + 2 ≤ w.cols.toNat
    rw [hwcols]
    omega
  · change (gridCell t.cells (t.idx cl.col cl.row)).Holds x.base true false
    rw [hidx, htcells, hcells, if_pos rfl]
    exact holds_lead _ _ _ _ h.lead.codepoint
  · change (gridCell t.cells (t.idx cl.col cl.row + 1)).Holds x.base false true
    rw [hidx, htcells, hcells, if_neg (by omega), if_pos rfl]
    exact holds_tail _ _ _ _ h.lead.codepoint
  · rw [ht]
    exact hwrow.trans h.cursorRow
  · rw [ht]
    have hnow : col.toNat = min ((cl.col + 1).toNat + 1) (w.cols.toNat - 1) := hcursor
    rw [hsucc] at hnow
    exact hnow
  · rw [htcells, hcells] at hi
    split at hi
    case isTrue hlead => exact .inl hlead
    case isFalse =>
      split at hi
      case isTrue htail => exact .inr (.inl htail)
      case isFalse => exact .inr (.inr (hchanged i hi))

/-- The second of a pair of regional indicators widens the glyph, or leaves it as it is. -/
theorem Stands.expanded (h : Stands s x cl) (hs : Sound True cols rows s) (hcl : s.openCluster = some cl) :
    ∃ cl', s.maybeExpandRiPair.openCluster = some cl' ∧ Stands s.maybeExpandRiPair x cl' ∧
      Within s s.maybeExpandRiPair cl := by
  have hsame : ∃ cl', s.openCluster = some cl' ∧ Stands s x cl' ∧ Within s s cl :=
    ⟨cl, hcl, h, fun i hi => absurd rfl hi⟩
  unfold maybeExpandRiPair
  rw [hcl]
  dsimp only
  split
  case isTrue => exact hcl ▸ hsame
  case isFalse hnarrow =>
    split
    case isTrue => exact hcl ▸ hsame
    case isFalse hin =>
      simp only [Bool.or_eq_true, decide_eq_true_eq, not_or, ge_iff_le, UInt16.not_le,
        Decidable.not_not] at hin
      obtain ⟨hlt, -⟩ := hin
      have hrow := (hs.cluster_lt trivial cl hcl).2
      have htail := satAdd16_one_of_lt hlt
      rw [htail] at hlt ⊢
      have hnext := UInt16.lt_iff_toNat_lt.mp hlt
      rw [hs.cols_eq] at hnext
      have hone : cl.width.toNat = 1 ∧ ¬ cl.width = 2 := by
        rcases width_toNat h.width with hone | htwo
        · exact hone
        · rw [htwo.2] at hnarrow
          exact absurd (UInt8.le_refl 2) hnarrow
      exact h.widened hs hrow hone hnext

/-- What joins the cluster of the glyph leaves the glyph standing, and changes no cell but its own. -/
theorem Stands.joined (h : Stands s x cl) (hs : Sound True cols rows s) (hcl : s.openCluster = some cl)
    {c : Char} (happend : s.shouldAppend c = true) :
    ∃ cl', (s.print c).openCluster = some cl' ∧ Stands (s.print c) x cl' ∧ Within s (s.print c) cl := by
  obtain ⟨graphemeTruncated, damageRow0, damageRow1, len, heq⟩ := Typing.appendToCluster_eq hcl c
  rw [Screen.print, writeChar, if_pos happend, heq]
  have hnoted : Sound True cols rows { s with
      graphemeTruncated, damageRow0, damageRow1
      openCluster := some { cl with
        len
        afterZwj := c = zeroWidthJoiner
        lastWasRi := isRegionalIndicator c } } := by
    refine { hs with cluster_lt := ?_ }
    rintro - _ ⟨⟩
    exact hs.cluster_lt trivial cl hcl
  have hstands : Stands { s with
      graphemeTruncated, damageRow0, damageRow1
      openCluster := some { cl with
        len
        afterZwj := c = zeroWidthJoiner
        lastWasRi := isRegionalIndicator c } } x { cl with
      len
      afterZwj := c = zeroWidthJoiner
      lastWasRi := isRegionalIndicator c } :=
    ⟨h.row, h.col, h.width, h.fits, h.lead, h.tail, h.cursorRow, h.cursorCol⟩
  dsimp only
  split
  case isTrue => exact hstands.expanded hnoted rfl
  case isFalse => exact ⟨_, rfl, hstands, fun i hi => absurd rfl hi⟩

-- ---------------------------------------------------------------------------
-- Actions
-- ---------------------------------------------------------------------------

/-- The glyph printed last, after an action: another one if it prints a scalar that starts a
cluster and has room. -/
def glyphAfter (s : Screen) (g : Option Glyph) : Action → Option Glyph
  | .print c =>
    if s.shouldAppend c || !s.hasRoom c then g
    else
      let t := s.wrapIfNeededWidth (clusterWidth c)
      some ⟨t.cursorRow, t.cursorCol, c⟩
  | _ => g

/-- The erasing, scrolling and editing controls spare the glyph of the cluster. -/
def ControlSpares (s : Screen) (cl : OpenCluster) (params : List UInt16) (action : Char) : Prop :=
  (action = 'J' ∨ action = 'K' → csiN params 0 0 = 0 ∧ Past s cl) ∧
    (action = 'X' ∨ action = '@' ∨ action = 'P' → Past s cl) ∧
    (action = 'L' ∨ action = 'M' ∨ action = 'S' ∨ action = 'T' → OutsideRegion s)

/-- With the cluster open, the action leaves the glyph and the cursor where they are. -/
def Spares (s : Screen) (cl : OpenCluster) : Action → Prop
  | .print c => s.shouldAppend c = false → s.hasRoom c = false → s.autowrap = true →
      s.scrollBottom < s.cursorRow
  | .execute _ => True
  | .osc _ => True
  | .esc _ byte =>
    (byte = 0x38 → ∀ c, s.savedCursor = some c → c.row = s.cursorRow ∧ c.col = s.cursorCol) ∧
      (byte = 0x44 → s.scrollBottom < s.cursorRow) ∧
      (byte = 0x45 → s.scrollBottom < s.cursorRow ∧ s.cursorCol = 0) ∧
      (byte = 0x4d → s.cursorRow < s.scrollTop)
  | .csi params intermediates ignore action => ignore = false →
    (intermediates = [0x3f] → action = 'l' → s.inAlt = true → 1047 ∉ params ∧ 1049 ∉ params) ∧
      (intermediates = [] → ControlSpares s cl params action)

theorem Standing.of_edits (hedits : Edits s t)
    (k : ∀ cl, s.openCluster = some cl → Standing t g) : Standing t g := by
  cases hcl : s.openCluster with
  | none => exact .of_closed ((hedits.congr Screen.openCluster fun _ _ _ _ _ _ _ => rfl).trans hcl)
  | some cl => exact k cl hcl

theorem Standing.clearPendingWrap (h : Standing s g) : Standing s.clearPendingWrap g :=
  h.same rfl ⟨rfl, rfl⟩ rfl rfl

theorem Standing.ite {c : Prop} [Decidable c] (ht : c → Standing t g) (hu : ¬ c → Standing u g) :
    Standing (if c then t else u) g := by
  split
  case isTrue hc => exact ht hc
  case isFalse hc => exact hu hc

theorem Standing.execute (h : Standing s g) (byte : UInt8) : Standing (s.execute byte) g := by
  refine .ite (fun _ => .ite (fun _ => .of_closed rfl) fun _ => .of_closed rfl) fun _ => ?_
  refine .ite (fun _ => .of_closed rfl) fun _ => ?_
  refine .ite (fun _ => .of_closed (Typable.index_keeps _).2) fun _ => ?_
  exact .ite (fun _ => .of_closed rfl) fun _ => h

theorem lineCount_of_outside (h : OutsideRegion s) (n : UInt16) : s.lineCount n = none := by
  refine lineCount_eq_none (fun hin => ?_) n
  rcases h with h | h
  · exact absurd (UInt16.lt_of_le_of_lt hin.1 h) (UInt16.lt_irrefl _)
  · exact absurd (UInt16.lt_of_lt_of_le h hin.2) (UInt16.lt_irrefl _)

/-- Below the region an index scrolls it, and the glyph stays. -/
theorem Standing.index (h : Standing s g) (hs : Sound True cols rows s)
    (hbelow : ∀ cl, s.openCluster = some cl → s.scrollBottom < s.cursorRow) : Standing s.index g := by
  cases hcl : s.openCluster with
  | none => exact .of_closed ((Typable.index_keeps s).2.trans hcl)
  | some cl =>
    have hlt := hbelow cl hcl
    have hge : ¬ s.cursorRow < s.scrollBottom := fun hback =>
      absurd (UInt16.lt_trans hlt hback) (UInt16.lt_irrefl _)
    rw [Screen.index, if_neg hge]
    exact h.scrollUp hs (.inr hlt)

theorem Standing.reverseIndex (h : Standing s g) (hs : Sound True cols rows s)
    (habove : ∀ cl, s.openCluster = some cl → s.cursorRow < s.scrollTop) : Standing s.reverseIndex g := by
  cases hcl : s.openCluster with
  | none =>
    have hopen : s.reverseIndex.openCluster = s.openCluster := by
      unfold Screen.reverseIndex
      split
      · rfl
      · exact (Edits.scrollDown s).congr Screen.openCluster fun _ _ _ _ _ _ _ => rfl
    exact .of_closed (hopen.trans hcl)
  | some cl =>
    have hlt := habove cl hcl
    have hle : ¬ s.cursorRow > s.scrollTop := fun hback =>
      absurd (UInt16.lt_trans hlt hback) (UInt16.lt_irrefl _)
    rw [Screen.reverseIndex, if_neg hle]
    exact h.scrollDown hs (.inl hlt)

theorem Standing.restoreCursor (h : Standing s g) (hs : Sound True cols rows s) {c : SavedCursor}
    (hsame : ∀ cl, s.openCluster = some cl → c.row = s.cursorRow ∧ c.col = s.cursorCol) :
    Standing (s.restoreCursor c) g := by
  refine h.spared rfl fun cl hcl => ?_
  obtain ⟨hrow, hcol⟩ := hsame cl hcl
  have hcollt : s.cursorCol < s.cols := UInt16.lt_iff_toNat_lt.mpr (hs.cols_eq ▸ hs.cursorCol_lt)
  have hrowlt : s.cursorRow < s.rows := UInt16.lt_iff_toNat_lt.mpr (hs.rows_eq ▸ hs.cursorRow_lt)
  exact {
    cursorRow := by
      change min c.row (satSub16 s.rows 1) = s.cursorRow
      rw [hrow, min_last_of_lt hrowlt]
    cursorCol := by
      change min c.col (satSub16 s.cols 1) = s.cursorCol
      rw [hcol, min_last_of_lt hcollt]
    cols := rfl
    cells := fun _ _ _ => rfl }

theorem Standing.setCursorCol (h : Standing s g) {col : UInt16}
    (hsame : ∀ cl, s.openCluster = some cl → s.cursorCol = col) : Standing (s.setCursorCol col) g :=
  h.spared rfl fun cl hcl => ⟨rfl, (hsame cl hcl).symm, rfl, fun _ _ _ => rfl⟩

theorem Standing.esc (h : Standing s g) (hs : Sound True cols rows s) (intermediates : List UInt8)
    (byte : UInt8) (hspares : ∀ cl, s.openCluster = some cl → Spares s cl (.esc intermediates byte)) :
    Standing (s.esc intermediates byte) g := by
  have hclear := hs.clearPendingWrap
  refine .ite (fun _ => h.same rfl ⟨rfl, rfl⟩ rfl rfl) fun _ => ?_
  refine .ite (fun hbyte => ?_) fun _ => ?_
  · cases hsaved : s.savedCursor with
    | none => exact h
    | some c => exact h.restoreCursor hs fun cl hcl => (hspares cl hcl).1 hbyte c hsaved
  refine .ite (fun hbyte => ?_) fun _ => .ite (fun hbyte => ?_) fun _ => .ite (fun hbyte => ?_) fun _ => ?_
  · exact h.clearPendingWrap.index hclear fun cl hcl => (hspares cl hcl).2.1 hbyte
  · have hstart := h.clearPendingWrap.setCursorCol fun cl hcl => ((hspares cl hcl).2.2.1 hbyte).2
    exact hstart.index (hclear.setCursorCol 0 hs.cols_pos) fun cl hcl => ((hspares cl hcl).2.2.1 hbyte).1
  · exact h.clearPendingWrap.reverseIndex hclear fun cl hcl => (hspares cl hcl).2.2.2 hbyte
  · exact .ite (fun _ => h.same rfl ⟨rfl, rfl⟩ rfl rfl) fun _ =>
      .ite (fun _ => h.same rfl ⟨rfl, rfl⟩ rfl rfl) fun _ => h

theorem Standing.csiDispatch (h : Standing s g) (hs : Sound True cols rows s) (params : List UInt16)
    (action : Char) (hspares : ∀ cl, s.openCluster = some cl → ControlSpares s cl params action) :
    Standing (s.csiDispatch params action) g := by
  have hout (hline : action = 'L' ∨ action = 'M' ∨ action = 'S' ∨ action = 'T') :
      ∀ cl, s.openCluster = some cl → OutsideRegion s := fun cl hcl => (hspares cl hcl).2.2 hline
  have hreply (bytes : List UInt8) : Standing (s.enqueueReply bytes) g :=
    .ite (fun _ => h.same rfl ⟨rfl, rfl⟩ rfl rfl) fun _ =>
      .ite (fun _ => h.same rfl ⟨rfl, rfl⟩ rfl rfl) fun _ => h.same rfl ⟨rfl, rfl⟩ rfl rfl
  unfold Screen.csiDispatch
  simp only
  split
  case h_1 | h_2 | h_3 | h_4 | h_5 | h_6 | h_7 | h_8 | h_9 | h_10 => exact .of_closed rfl
  case h_11 =>
    refine h.edited (Edits.eraseDisplay s _) fun cl x hcl hstands i hi hlt => ?_
    obtain ⟨hmode, hpast⟩ := (hspares cl hcl).1 (.inl rfl)
    rw [eraseDisplay, if_pos hmode]
    exact hstands.eraseSpan hs _ (Nat.le_of_eq (hstands.end_eq hpast)) hi hlt
  case h_12 =>
    refine h.edited (Edits.eraseLine s _) fun cl x hcl hstands i hi hlt => ?_
    obtain ⟨hmode, hpast⟩ := (hspares cl hcl).1 (.inr rfl)
    rw [eraseLine, if_pos hmode]
    exact hstands.eraseSpan hs _ (Nat.le_of_eq (hstands.end_eq hpast)) hi hlt
  case h_13 =>
    refine h.edited (Edits.eraseSpan s _ _) fun cl x hcl hstands i hi hlt => ?_
    have hpast := (hspares cl hcl).2.1 (.inl rfl)
    exact hstands.eraseSpan hs _ (Nat.le_of_eq (hstands.end_eq hpast)) hi hlt
  case h_14 =>
    refine .of_edits (Edits.insertLines s _) fun cl hcl => ?_
    rw [insertLines, lineCount_of_outside (hout (.inl rfl) cl hcl)]
    exact h
  case h_15 =>
    refine .of_edits (Edits.deleteLines s _) fun cl hcl => ?_
    rw [deleteLines, lineCount_of_outside (hout (.inr (.inl rfl)) cl hcl)]
    exact h
  case h_16 =>
    refine h.edited (Edits.insertCells s _) fun cl x hcl hstands i _ hlt => ?_
    exact hstands.insertCells hs ((hspares cl hcl).2.1 (.inr (.inl rfl))) _ hlt
  case h_17 =>
    refine h.edited (Edits.deleteCells s _) fun cl x hcl hstands i hi hlt => ?_
    exact hstands.deleteCells hs ((hspares cl hcl).2.1 (.inr (.inr rfl))) _ hi hlt
  case h_18 => exact .ite (fun _ => h) fun _ => .of_closed rfl
  case h_19 =>
    refine .of_edits (Edits.iterate Edits.scrollUp s _) fun cl hcl => ?_
    exact h.scrolls Edits.scrollUp (fun _ h => h.scrollUp) (fun _ h hs hout => h.scrollUp hs hout) hs
      (hout (.inr (.inr (.inl rfl))) cl hcl) _
  case h_20 =>
    refine .of_edits (Edits.iterate Edits.scrollDown s _) fun cl hcl => ?_
    exact h.scrolls Edits.scrollDown (fun _ h => h.scrollDown) (fun _ h hs hout => h.scrollDown hs hout)
      hs (hout (.inr (.inr (.inr rfl))) cl hcl) _
  case h_21 =>
    have hpens : Pens s (s.applySgr params) := Pens.sgrLoop s _
    exact h.same (by rw [← hpens]) ⟨by rw [← hpens], by rw [← hpens]⟩ (by rw [← hpens]) (by rw [← hpens])
  case h_22 => exact .ite (fun _ => hreply _) fun _ => h
  case h_23 => exact .ite (fun _ => hreply _) fun _ => .ite (fun _ => hreply _) fun _ => h
  case h_24 => exact h

theorem Standing.setModes (h : Standing s g) (params : List UInt16) :
    Standing (s.privateMode params true) g := by
  refine List.foldlRecOn (motive := fun (t : Screen) => Standing t g) params _ h fun t ht p _ => ?_
  unfold Screen.privateModeOne
  iterate 9 refine .ite (fun _ => ht.same rfl ⟨rfl, rfl⟩ rfl rfl) fun _ => ?_
  exact .ite (fun _ => .of_closed rfl) fun _ => .ite (fun _ => .of_closed rfl) fun _ => ht

/-- What resetting a mode does to the cluster and the screen that is shown. -/
structure Unswapped (s t : Screen) : Prop where
  cluster : t.openCluster = s.openCluster
  cursor : t.cursorRow = s.cursorRow ∧ t.cursorCol = s.cursorCol
  cols : t.cols = s.cols
  cells : t.cells = s.cells
  inAlt : t.inAlt = s.inAlt

theorem Unswapped.trans (h : Unswapped s t) (k : Unswapped t u) : Unswapped s u where
  cluster := k.cluster.trans h.cluster
  cursor := ⟨k.cursor.1.trans h.cursor.1, k.cursor.2.trans h.cursor.2⟩
  cols := k.cols.trans h.cols
  cells := k.cells.trans h.cells
  inAlt := k.inAlt.trans h.inAlt

theorem Unswapped.ite {c : Prop} [Decidable c] (ht : c → Unswapped s t) (hu : ¬ c → Unswapped s u) :
    Unswapped s (if c then t else u) := by
  split
  case isTrue hc => exact ht hc
  case isFalse hc => exact hu hc

theorem unswapped_reset (s : Screen) {p : UInt16} (h : s.inAlt = true → p ≠ 1047 ∧ p ≠ 1049) :
    Unswapped s (s.privateModeOne false p) := by
  have hsame : Unswapped s s := ⟨rfl, ⟨rfl, rfl⟩, rfl, rfl, rfl⟩
  have hleave (restores : Bool) (hp : p = 1047 ∨ p = 1049) : Unswapped s (s.leaveAlt restores) := by
    refine .ite (fun _ => hsame) fun hin => ?_
    obtain ⟨h47, h49⟩ := h (by simpa using hin)
    exact absurd hp (not_or.mpr ⟨h47, h49⟩)
  unfold Screen.privateModeOne
  iterate 9 refine .ite (fun _ => ⟨rfl, ⟨rfl, rfl⟩, rfl, rfl, rfl⟩) fun _ => ?_
  exact .ite (fun hp => hleave _ (.inl hp)) fun _ => .ite (fun hp => hleave _ (.inr hp)) fun _ => hsame

theorem unswapped_resets (s : Screen) (params : List UInt16)
    (h : s.inAlt = true → 1047 ∉ params ∧ 1049 ∉ params) : Unswapped s (s.privateMode params false) := by
  induction params generalizing s with
  | nil => exact ⟨rfl, ⟨rfl, rfl⟩, rfl, rfl, rfl⟩
  | cons p params ih =>
    have hone : Unswapped s (s.privateModeOne false p) := unswapped_reset s fun hin =>
      ⟨fun heq => (h hin).1 (heq ▸ List.mem_cons_self), fun heq => (h hin).2 (heq ▸ List.mem_cons_self)⟩
    refine hone.trans (ih _ fun hin => ?_)
    obtain ⟨h47, h49⟩ := h (hone.inAlt ▸ hin)
    exact ⟨fun hmem => h47 (List.mem_cons_of_mem _ hmem), fun hmem => h49 (List.mem_cons_of_mem _ hmem)⟩

theorem openCluster_reset (s : Screen) (p : UInt16) : (s.privateModeOne false p).openCluster = s.openCluster := by
  have hite {c : Prop} [Decidable c] {t u : Screen} (ht : t.openCluster = s.openCluster)
      (hu : u.openCluster = s.openCluster) : (if c then t else u).openCluster = s.openCluster := by
    split
    · exact ht
    · exact hu
  have hgrid : s.restoreGrid.openCluster = s.openCluster := by
    unfold restoreGrid
    cases s.savedGrid <;> rfl
  have hleave (restores : Bool) : (s.leaveAlt restores).openCluster = s.openCluster := by
    refine hite rfl (Eq.trans ?_ hgrid)
    change (s.restoreGrid.takeAltCursor restores).openCluster = _
    unfold takeAltCursor
    split <;> rfl
  unfold Screen.privateModeOne
  iterate 9 refine hite rfl ?_
  exact hite (hleave false) (hite (hleave true) rfl)

/-- Resetting modes without leaving the alternate screen, or with no cluster open. -/
theorem Standing.resetModes (h : Standing s g) (params : List UInt16)
    (hspares : ∀ cl, s.openCluster = some cl → s.inAlt = true → 1047 ∉ params ∧ 1049 ∉ params) :
    Standing (s.privateMode params false) g := by
  cases hcl : s.openCluster with
  | none =>
    refine .of_closed (List.foldlRecOn (motive := fun (t : Screen) => t.openCluster = none) params _ hcl
      fun t ht p _ => ?_)
    exact (openCluster_reset t p).trans ht
  | some cl =>
    have hkept := unswapped_resets s params (hspares cl hcl)
    exact h.same hkept.cluster hkept.cursor hkept.cols hkept.cells

theorem Standing.csi (h : Standing s g) (hs : Sound True cols rows s) (params : List UInt16)
    (intermediates : List UInt8) (ignore : Bool) (action : Char)
    (hspares : ∀ cl, s.openCluster = some cl → Spares s cl (.csi params intermediates ignore action)) :
    Standing (s.csi params intermediates ignore action) g := by
  refine .ite (fun _ => h) fun hignore => ?_
  have hignore : ignore = false := by simpa using hignore
  refine .ite (fun hmode => ?_) fun _ => .ite (fun _ => ?_) fun _ => .ite (fun _ => h) fun hplain => ?_
  · rw [Bool.and_eq_true, decide_eq_true_eq, Bool.or_eq_true, decide_eq_true_eq,
      decide_eq_true_eq] at hmode
    obtain ⟨hinter, rfl | rfl⟩ := hmode
    · exact h.setModes params
    · exact h.resetModes params fun cl hcl => (hspares cl hcl hignore).1 hinter rfl
  · exact .ite (fun _ => h.same rfl ⟨rfl, rfl⟩ rfl rfl) fun _ =>
      .ite (fun _ => h.same rfl ⟨rfl, rfl⟩ rfl rfl) fun _ => h.same rfl ⟨rfl, rfl⟩ rfl rfl
  · have hnone : intermediates = [] := by simpa using hplain
    exact h.csiDispatch hs params action fun cl hcl => (hspares cl hcl hignore).2 hnone

theorem openCluster_wrap (s : Screen) (width : UInt16) :
    (s.wrapIfNeededWidth width).openCluster = s.openCluster := by
  unfold wrapIfNeededWidth
  split
  · rfl
  · split
    · rfl
    · exact (Typable.index_keeps _).2

/-- Under autowrap only a wide glyph finds no room, in a grid of one column. -/
theorem one_column (hs : Sound True cols rows s) (hauto : s.autowrap = true) {c : Char}
    (hroom : s.hasRoom c = false) : s.cursorCol = 0 := by
  have hwrap := hs.wrapIfNeededWidth (clusterWidth c)
  have hcols := hwrap.cols_eq
  have hcur := hs.cursorCol_lt
  have htwo : (clusterWidth c).toNat ≤ 2 := by
    rcases Typable.width_cases c with hwidth | hwidth <;> rw [hwidth] <;> decide
  simp only [hasRoom, Bool.not_eq_false', Bool.or_eq_true, decide_eq_true_eq, UInt16.lt_iff_toNat_lt,
    remainingCols, toNat_satSub16] at hroom
  have hpos := hs.cols_pos
  apply UInt16.toNat_inj.mp
  rw [UInt16.toNat_zero]
  rcases Typable.room_of_wrap hauto (clusterWidth c) with hfits | hstart
  · simp only [remainingCols, toNat_satSub16] at hfits
    omega
  · have hstart := congrArg UInt16.toNat hstart
    rw [UInt16.toNat_zero] at hstart
    omega

theorem Standing.print (h : Standing s g) (hs : Sound True cols rows s) (c : Char)
    (hspares : ∀ cl, s.openCluster = some cl → Spares s cl (.print c)) :
    Standing (s.print c) (glyphAfter s g (.print c)) := by
  dsimp only [glyphAfter]
  cases happend : s.shouldAppend c with
  | true =>
    rw [Bool.true_or, if_pos rfl]
    cases hcl : s.openCluster with
    | none =>
      rw [shouldAppend, hcl] at happend
      cases happend
    | some cl =>
      obtain ⟨x, hx, hstands⟩ := h cl hcl
      obtain ⟨cl', hcl', hstands', -⟩ := hstands.joined hs hcl happend
      intro other hother
      obtain rfl := Option.some.inj (hcl'.symm.trans hother)
      exact ⟨x, hx, hstands'⟩
  | false =>
    have hbase : s.print c = s.printBase c := by
      rw [Screen.print, writeChar, happend, if_neg Bool.false_ne_true]
    have hwrap := hs.wrapIfNeededWidth (clusterWidth c)
    rw [hbase, Bool.false_or]
    cases hroom : s.hasRoom c with
    | true =>
      have hfits : ¬ ((s.wrapIfNeededWidth (clusterWidth c)).cols < clusterWidth c ||
          (s.wrapIfNeededWidth (clusterWidth c)).remainingCols < clusterWidth c) = true := by
        simpa [hasRoom] using hroom
      have hplaced : s.printBase c =
          (s.wrapIfNeededWidth (clusterWidth c)).placeGlyph c (clusterWidth c) := if_neg hfits
      rw [Bool.not_true, if_neg Bool.false_ne_true, hplaced]
      simp only [Bool.or_eq_true, decide_eq_true_eq, not_or, UInt16.lt_iff_toNat_lt, remainingCols,
        toNat_satSub16] at hfits
      have hcols := hwrap.cols_eq
      have hcur := hwrap.cursorCol_lt
      obtain ⟨cl, hcl, hstands⟩ := stands_placeGlyph hwrap c (by omega)
      intro other hother
      obtain rfl := Option.some.inj (hcl.symm.trans hother)
      exact ⟨_, rfl, hstands⟩
    | false =>
      have hwrapped : s.printBase c = s.wrapIfNeededWidth (clusterWidth c) :=
        if_pos (by unfold hasRoom at hroom; simpa only [Bool.not_eq_false'] using hroom)
      rw [Bool.not_false, if_pos rfl, hwrapped]
      cases hcl : s.openCluster with
      | none => exact .of_closed ((openCluster_wrap s _).trans hcl)
      | some cl =>
        refine .ite (fun _ => h) fun _ => .ite (fun _ => h.clearPendingWrap) fun hauto => ?_
        have hauto : s.autowrap = true := by
          cases hmode : s.autowrap with
          | true => rfl
          | false => exact absurd (congrArg (!·) hmode) hauto
        have hclear := hs.clearPendingWrap
        have hzero := one_column hs hauto hroom
        have hstart : Standing (s.clearPendingWrap.setCursorCol 0) g :=
          h.clearPendingWrap.setCursorCol fun _ _ => hzero
        exact hstart.index (hclear.setCursorCol 0 hs.cols_pos) fun _ _ =>
          hspares cl hcl happend hroom hauto

/-- One action that spares the glyph keeps what is open standing. -/
theorem Standing.act (h : Standing s g) (hs : Sound True cols rows s) (a : Action)
    (hspares : ∀ cl, s.openCluster = some cl → Spares s cl a) :
    Standing (s.act a) (glyphAfter s g a) := by
  cases a with
  | print c => exact h.print hs c hspares
  | execute b => exact h.execute b
  | csi params intermediates ignore action => exact h.csi hs params intermediates ignore action hspares
  | esc intermediates b => exact h.esc hs intermediates b hspares
  | osc payload => exact h

/-- The actions of a list, each on the screen it comes to, spare the glyph of the open cluster. -/
def AllSpare (s : Screen) : List Action → Prop
  | [] => True
  | a :: l => (∀ cl, s.openCluster = some cl → Spares s cl a) ∧ AllSpare (s.act a) l

def glyphsAfter (s : Screen) (g : Option Glyph) : List Action → Option Glyph
  | [] => g
  | a :: l => glyphsAfter (s.act a) (glyphAfter s g a) l

theorem Standing.acts (h : Standing s g) (hs : Sound True cols rows s) {l : List Action}
    (hspares : AllSpare s l) : Standing (l.foldl Screen.act s) (glyphsAfter s g l) := by
  induction l generalizing s g with
  | nil => exact h
  | cons a l ih => exact ih (h.act hs a hspares.1) (hs.act a) hspares.2

end

-- ---------------------------------------------------------------------------
-- Runs
-- ---------------------------------------------------------------------------

namespace VtEngine

/-- The engines that bytes and resizes lead to while the glyph of an open cluster is spared, each
with the glyph printed last. -/
inductive Sparing : VtEngine → Option Glyph → Prop
  | new {c r : UInt16} : VtEngine.new c r = .ok e → Sparing e none
  | feed : Sparing e g → ∀ bytes, AllSpare e.screen (e.parser.feed bytes).2 →
      Sparing (e.feed bytes) (glyphsAfter e.screen g (e.parser.feed bytes).2)
  | resize {c r : UInt16} : Sparing e g → e.resize c r = .ok f → Sparing f g

theorem Sparing.hosted (h : Sparing e g) : Hosted e := by
  induction h with
  | new hn => exact .new hn
  | feed _ bytes _ ih => exact ih.feed bytes
  | resize _ hr ih => exact ih.resize hr

theorem Sparing.standing (h : Sparing e g) : Standing e.screen g := by
  induction h with
  | new hn =>
    refine .of_closed ?_
    obtain ⟨s, hs, rfl⟩ := new_eq hn
    unfold Screen.new at hs
    split at hs
    · cases hs
    · obtain rfl := Except.ok.inj hs
      rfl
  | @feed e g hrun bytes hspares ih =>
    obtain ⟨⟨_, _, hs⟩, -⟩ := hrun.hosted.fits
    exact ih.acts hs.sound hspares
  | resize _ hr =>
    refine .of_closed ?_
    have hr := resize_ok hr
    unfold Screen.resize at hr
    split at hr
    · cases hr
    · rw [← Except.ok.inj hr]

/-- While no step touches the glyph of an open cluster or moves the cursor off its end, the cluster
that is open is the glyph printed last, and what joins it changes that glyph alone. -/
theorem sparing_stands (h : Sparing e g) {cl : OpenCluster} (hcl : e.screen.openCluster = some cl) :
    ∃ x, g = some x ∧ Stands e.screen x cl ∧ ∀ c, e.screen.shouldAppend c = true →
      ∃ cl', (e.screen.print c).openCluster = some cl' ∧ Stands (e.screen.print c) x cl' ∧
        Within e.screen (e.screen.print c) cl := by
  obtain ⟨⟨_, _, hs⟩, -⟩ := h.hosted.fits
  obtain ⟨x, hx, hstands⟩ := h.standing cl hcl
  exact ⟨x, hx, hstands, fun c happend => hstands.joined hs.sound hcl happend⟩

/-- A letter, and the line erased behind it. -/
theorem sparing_stands_letter :
    let e := ((VtEngine.new 2 1).toOption.get rfl).feed [0x41]
    ∃ cl x, (e.feed [0x1b, 0x5b, 0x4b]).screen.openCluster = some cl ∧
      Stands (e.feed [0x1b, 0x5b, 0x4b]).screen x cl := by
  intro e
  have hstart : Sparing ((VtEngine.new 2 1).toOption.get rfl) none :=
    .new (show VtEngine.new 2 1 = _ from rfl)
  have hletter : Sparing e _ := hstart.feed [0x41] ⟨nofun, trivial⟩
  have hacts : (e.parser.feed [0x1b, 0x5b, 0x4b]).2 = [.csi [] [] false 'K'] := rfl
  have herased : Sparing (e.feed [0x1b, 0x5b, 0x4b]) _ := hletter.feed [0x1b, 0x5b, 0x4b] (by
    rw [hacts]
    refine ⟨fun cl hcl _ => ⟨nofun, fun _ => ⟨fun _ => ⟨rfl, ?_⟩,
      fun hno => absurd hno (by decide), fun hno => absurd hno (by decide)⟩⟩, trivial⟩
    obtain rfl : OpenCluster.mk 0 0 1 false false 1 = cl :=
      Option.some.inj ((show e.screen.openCluster = some _ by decide).symm.trans hcl)
    unfold Past
    decide)
  have hopen : (e.feed [0x1b, 0x5b, 0x4b]).screen.openCluster = some ⟨0, 0, 1, false, false, 1⟩ := by
    decide
  obtain ⟨x, -, hstands, -⟩ := sparing_stands herased hopen
  exact ⟨_, x, hopen, hstands⟩

/-- A letter that is erased where it stands, with its cluster still open. -/
theorem erased_stays_open :
    ∃ e bytes, VtEngine.new 2 1 = .ok e ∧
      ¬ Standing (e.feed bytes).screen (glyphsAfter e.screen none (e.parser.feed bytes).2) := by
  let e := (VtEngine.new 2 1).toOption.get rfl
  refine ⟨e, [0x41, 0x1b, 0x5b, 0x32, 0x4b], rfl, fun h => ?_⟩
  have hopen : (e.feed [0x41, 0x1b, 0x5b, 0x32, 0x4b]).screen.openCluster =
      some ⟨0, 0, 1, false, false, 1⟩ := by decide
  have hbase : (glyphsAfter e.screen none (e.parser.feed [0x41, 0x1b, 0x5b, 0x32, 0x4b]).2).map
      Glyph.base = some 'A' := by decide
  have hcell : (gridCell (e.feed [0x41, 0x1b, 0x5b, 0x32, 0x4b]).screen.cells
      ((e.feed [0x41, 0x1b, 0x5b, 0x32, 0x4b]).screen.idx 0 0)).codepoint = 32 := by decide
  obtain ⟨x, hx, hstands⟩ := h _ hopen
  rw [hx] at hbase
  have hheld := hcell.symm.trans hstands.lead.codepoint
  rw [Option.some.inj hbase] at hheld
  exact absurd hheld (by decide)

end VtEngine

end Rill.Vt
