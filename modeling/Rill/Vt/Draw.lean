import Rill.Vt.Host

/-!
# What drawing leaves alone

Printing, moving the cursor, scrolling, erasing and editing write cells, the
cursor, damage and the open cluster; the size, the scroll region, the pen, the
modes and everything saved stay as they are.
-/

namespace Rill.Vt

open Lib

/-- The part of a screen that drawing changes. -/
structure Drawing where
  cells : List Cell
  cursorCol : UInt16
  cursorRow : UInt16
  pendingWrap : Bool
  fullDamage : Bool
  damageRow0 : UInt16
  damageRow1 : UInt16
  openCluster : Option OpenCluster
  graphemeTruncated : UInt32
  scrolledOff : List (List Cell)
  panicked : Bool

namespace Screen

def drawing (s : Screen) : Drawing where
  cells := s.cells
  cursorCol := s.cursorCol
  cursorRow := s.cursorRow
  pendingWrap := s.pendingWrap
  fullDamage := s.fullDamage
  damageRow0 := s.damageRow0
  damageRow1 := s.damageRow1
  openCluster := s.openCluster
  graphemeTruncated := s.graphemeTruncated
  scrolledOff := s.scrolledOff
  panicked := s.panicked

def setDrawing (s : Screen) (d : Drawing) : Screen :=
  { s with
    cells := d.cells
    cursorCol := d.cursorCol
    cursorRow := d.cursorRow
    pendingWrap := d.pendingWrap
    fullDamage := d.fullDamage
    damageRow0 := d.damageRow0
    damageRow1 := d.damageRow1
    openCluster := d.openCluster
    graphemeTruncated := d.graphemeTruncated
    scrolledOff := d.scrolledOff
    panicked := d.panicked }

/-- `t` is `s` but for what drawing changes. -/
def Draws (s t : Screen) : Prop := s.setDrawing t.drawing = t

namespace Draws

variable {s t u : Screen}

-- ---------------------------------------------------------------------------
-- Rules
-- ---------------------------------------------------------------------------

theorem refl (s : Screen) : Draws s s := rfl

theorem trans (h : Draws s t) (k : Draws t u) : Draws s u := by
  unfold Draws at h k ⊢
  rw [← k, ← h]
  rfl

theorem ite {c : Prop} [Decidable c] (h : c → Draws s t) (k : ¬ c → Draws s u) :
    Draws s (if c then t else u) := by
  split
  case isTrue hc => exact h hc
  case isFalse hc => exact k hc

theorem foldl {f : Screen → α → Screen} (hf : ∀ t a, Draws s t → Draws s (f t a)) (l : List α)
    (h : Draws s t) : Draws s (l.foldl f t) :=
  List.foldlRecOn l f h fun t ht a _ => hf t a ht

theorem iterate {f : Screen → Screen} (hf : ∀ t, Draws s t → Draws s (f t)) (h : Draws s t)
    (n : Nat) : Draws s (n.repeat f t) :=
  repeat_keeps hf h n

/-- What no drawing changes is what it was. -/
theorem congr (h : Draws s t) (g : Screen → α) (hg : ∀ s d, g (s.setDrawing d) = g s) :
    g t = g s := by
  rw [← h]
  exact hg s _

theorem cols (h : Draws s t) : t.cols = s.cols := h.congr Screen.cols fun _ _ => rfl

theorem savedCursor (h : Draws s t) : t.savedCursor = s.savedCursor :=
  h.congr Screen.savedCursor fun _ _ => rfl

theorem altCursor (h : Draws s t) : t.altCursor = s.altCursor :=
  h.congr Screen.altCursor fun _ _ => rfl

theorem palette (h : Draws s t) : t.palette = s.palette := h.congr Screen.palette fun _ _ => rfl

-- ---------------------------------------------------------------------------
-- Cells and damage
-- ---------------------------------------------------------------------------

theorem touch (h : Draws s t) (i : Nat) : Draws s (t.touch i) := h.trans rfl

theorem setCell (h : Draws s t) (i : Nat) (c : Cell) : Draws s (t.setCell i c) := h.trans rfl

theorem copyWithin (h : Draws s t) (lo hi dst : Nat) : Draws s (t.copyWithin lo hi dst) :=
  h.trans rfl

theorem copyRows (h : Draws s t) (moves : List (Nat × Nat)) : Draws s (t.copyRows moves) :=
  foldl (fun _ _ h => h.copyWithin _ _ _) moves h

theorem blankCells (h : Draws s t) (lo hi : Nat) : Draws s (t.blankCells lo hi) := h.trans rfl

theorem blankRow (h : Draws s t) (r : Nat) : Draws s (t.blankRow r) := h.blankCells _ _

theorem blankRows (h : Draws s t) (first n : Nat) : Draws s (t.blankRows first n) :=
  foldl (fun _ r h => h.blankRow r) _ h

theorem damageAll (h : Draws s t) : Draws s t.damageAll := h.trans rfl

theorem dirty (h : Draws s t) (row : UInt16) : Draws s (t.dirty row) :=
  ite (fun _ => h) fun _ => ite (fun _ => h.trans rfl) fun _ => h.trans rfl

theorem dirtyRows (h : Draws s t) (first last : Nat) : Draws s (t.dirtyRows first last) :=
  foldl (fun _ _ h => h.dirty _) _ h

-- ---------------------------------------------------------------------------
-- Scrolling and cursor
-- ---------------------------------------------------------------------------

theorem clearPendingWrap (h : Draws s t) : Draws s t.clearPendingWrap := h.trans rfl

theorem setCursorCol (h : Draws s t) (col : UInt16) : Draws s (t.setCursorCol col) := h.trans rfl

theorem setOpenCluster (h : Draws s t) (cluster : Option OpenCluster) :
    Draws s (t.setOpenCluster cluster) := h.trans rfl

theorem setCursor (h : Draws s t) (row col : UInt16) : Draws s (t.setCursor row col) := h.trans rfl

theorem retireRow (h : Draws s t) (row : Nat) : Draws s (t.retireRow row) :=
  ite (fun _ => h.trans rfl) fun _ => h

theorem scrollUp (h : Draws s t) : Draws s t.scrollUp :=
  (((h.retireRow _).copyRows _).blankRow _).damageAll

theorem scrollDown (h : Draws s t) : Draws s t.scrollDown :=
  ((h.copyRows _).blankRow _).damageAll

theorem index (h : Draws s t) : Draws s t.index := ite (fun _ => h.trans rfl) fun _ => h.scrollUp

theorem reverseIndex (h : Draws s t) : Draws s t.reverseIndex :=
  ite (fun _ => h.trans rfl) fun _ => h.scrollDown

-- ---------------------------------------------------------------------------
-- Printing
-- ---------------------------------------------------------------------------

theorem wrapIfNeededWidth (h : Draws s t) (width : UInt16) : Draws s (t.wrapIfNeededWidth width) :=
  ite (fun _ => h) fun _ => ite (fun _ => h.clearPendingWrap) fun _ =>
    (h.clearPendingWrap.setCursorCol 0).index

theorem smashHalf (h : Draws s t) (found : Bool) (other : Nat) (attr : UInt16) :
    Draws s (t.smashHalf found other attr) :=
  ite (fun _ => ite (fun _ => (h.touch _).setCell _ _) fun _ => h.touch _) fun _ => h

theorem smashWideAt (h : Draws s t) (col row : UInt16) : Draws s (t.smashWideAt col row) :=
  ite (fun _ => h) fun _ => ((h.touch _).smashHalf _ _ _).smashHalf _ _ _

theorem advanceAfterWidth (h : Draws s t) (width : UInt16) : Draws s (t.advanceAfterWidth width) :=
  ite (fun _ => h.trans rfl) fun _ => h.trans rfl

theorem widenCluster (h : Draws s t) (cl : OpenCluster) (tailCol : UInt16) :
    Draws s (t.widenCluster cl tailCol) :=
  ((((h.smashWideAt _ _).setCell _ _).setCell _ _).setOpenCluster _).dirty _

theorem maybeExpandRiPair (h : Draws s t) : Draws s t.maybeExpandRiPair := by
  unfold Screen.maybeExpandRiPair
  cases t.openCluster with
  | none => exact h
  | some cl =>
    have hw := h.widenCluster cl (satAdd16 cl.col 1)
    refine ite (fun _ => h) fun _ => ite (fun _ => h) fun _ => ?_
    exact ite (fun _ => (hw.setCursorCol _).advanceAfterWidth _) fun _ => hw

theorem countTruncated (h : Draws s t) (len : UInt8) : Draws s (t.countTruncated len) :=
  ite (fun _ => h.trans rfl) fun _ => h

theorem paintGlyph (h : Draws s t) (c : Char) (col row width : UInt16) :
    Draws s (t.paintGlyph c col row width) := by
  have hlead := h.smashWideAt col row
  have htail := ite (c := width = 2) (fun _ => hlead.smashWideAt (col + 1) row) fun _ => hlead
  exact ite (fun _ => (htail.setCell _ _).setCell _ _) fun _ => htail.setCell _ _

theorem placeGlyph (h : Draws s t) (c : Char) (width : UInt16) : Draws s (t.placeGlyph c width) :=
  (((h.paintGlyph c _ _ width).setOpenCluster _).dirty _).advanceAfterWidth _

theorem printBase (h : Draws s t) (c : Char) : Draws s (t.printBase c) := by
  have hw := h.wrapIfNeededWidth (clusterWidth c)
  exact ite (fun _ => hw) fun _ => hw.placeGlyph _ _

theorem writeChar (h : Draws s t) (c : Char) : Draws s (t.writeChar c) := by
  unfold Screen.writeChar Screen.appendToCluster
  cases t.shouldAppend c with
  | false => exact h.printBase c
  | true =>
    cases t.openCluster with
    | none => exact h.printBase c
    | some cl =>
      have happ := ((h.countTruncated cl.len).dirty cl.row).setOpenCluster (some { cl with
        len := if cl.len ≥ rillGraphemeMax then cl.len else cl.len + 1
        afterZwj := c = zeroWidthJoiner
        lastWasRi := isRegionalIndicator c })
      exact ite (fun _ => happ.maybeExpandRiPair) fun _ => happ

-- ---------------------------------------------------------------------------
-- Erasing and editing
-- ---------------------------------------------------------------------------

theorem smashSpan (h : Draws s t) (lo hi : Nat) : Draws s (t.smashSpan lo hi) :=
  foldl (fun _ _ h => h.smashWideAt _ _) _ h

theorem eraseSpan (h : Draws s t) (start stop : Nat) : Draws s (t.eraseSpan start stop) := by
  have hs := (h.smashSpan (min start (min stop t.cells.length)) (min stop t.cells.length)).blankCells
    (min start (min stop t.cells.length)) (min stop t.cells.length)
  exact ite (fun _ => hs.dirtyRows _ _) fun _ => hs

theorem eraseDisplay (h : Draws s t) (mode : UInt16) : Draws s (t.eraseDisplay mode) :=
  ite (fun _ => h.eraseSpan _ _) fun _ => ite (fun _ => h.eraseSpan _ _) fun _ =>
    (h.eraseSpan _ _).damageAll

theorem eraseLine (h : Draws s t) (mode : UInt16) : Draws s (t.eraseLine mode) :=
  ite (fun _ => h.eraseSpan _ _) fun _ => ite (fun _ => h.eraseSpan _ _) fun _ => h.eraseSpan _ _

theorem insertLines (h : Draws s t) (n : UInt16) : Draws s (t.insertLines n) := by
  unfold Screen.insertLines
  cases t.lineCount n with
  | none => exact h
  | some n => exact ((h.copyRows _).blankRows _ _).dirtyRows _ _

theorem deleteLines (h : Draws s t) (n : UInt16) : Draws s (t.deleteLines n) := by
  unfold Screen.deleteLines
  cases t.lineCount n with
  | none => exact h
  | some n => exact ((h.copyRows _).blankRows _ _).dirtyRows _ _

theorem insertCells (h : Draws s t) (n : UInt16) : Draws s (t.insertCells n) :=
  ite (fun _ => h) fun _ =>
    ((ite (fun _ => h.copyWithin _ _ _) fun _ => h).blankCells _ _).dirty _

theorem smashCols (h : Draws s t) (row : UInt16) (col n : Nat) : Draws s (t.smashCols row col n) :=
  foldl (fun _ _ h => h.smashWideAt _ _) _ h

theorem deleteCells (h : Draws s t) (n : UInt16) : Draws s (t.deleteCells n) :=
  ite (fun _ => h) fun _ =>
    ((ite (fun _ => (h.smashCols _ _ _).copyWithin _ _ _) fun _ =>
      h.smashCols _ _ _).blankCells _ _).dirty _

theorem execute (h : Draws s t) (byte : UInt8) : Draws s (t.execute byte) := by
  have hopen := h.clearPendingWrap.setOpenCluster none
  refine ite (fun _ => ite (fun _ => hopen.setCursorCol _) fun _ => hopen) fun _ => ?_
  refine ite (fun _ => hopen.setCursorCol _) fun _ => ite (fun _ => hopen.index) fun _ => ?_
  exact ite (fun _ => hopen.setCursorCol _) fun _ => h

end Draws

-- ---------------------------------------------------------------------------
-- Pens
-- ---------------------------------------------------------------------------

/-- `t` is `s` but for the pen. -/
def Pens (s t : Screen) : Prop :=
  { s with penFg := t.penFg, penBg := t.penBg, penAttrs := t.penAttrs } = t

namespace Pens

variable {s t u : Screen}

theorem refl (s : Screen) : Pens s s := rfl

theorem trans (h : Pens s t) (k : Pens t u) : Pens s u := by
  unfold Pens at h k ⊢
  rw [← k, ← h]

theorem ite {c : Prop} [Decidable c] (h : c → Pens s t) (k : ¬ c → Pens s u) :
    Pens s (if c then t else u) := by
  split
  case isTrue hc => exact h hc
  case isFalse hc => exact k hc

theorem savedCursor (h : Pens s t) : t.savedCursor = s.savedCursor := by rw [← h]

theorem altCursor (h : Pens s t) : t.altCursor = s.altCursor := by rw [← h]

theorem palette (h : Pens s t) : t.palette = s.palette := by rw [← h]

theorem setPen (s : Screen) (fg : Bool) (c : Color) : Pens s (s.setPen fg c) :=
  ite (fun _ => rfl) fun _ => rfl

theorem sgrOne (s : Screen) (n : UInt16) : Pens s (s.sgrOne n) := by
  refine ite (fun _ => rfl) fun _ => ite (fun _ => rfl) fun _ => ite (fun _ => rfl) fun _ => ?_
  refine ite (fun _ => rfl) fun _ => ite (fun _ => rfl) fun _ => ite (fun _ => rfl) fun _ => ?_
  refine ite (fun _ => rfl) fun _ => ite (fun _ => rfl) fun _ => ite (fun _ => rfl) fun _ => ?_
  refine ite (fun _ => rfl) fun _ => ite (fun _ => rfl) fun _ => ite (fun _ => rfl) fun _ => ?_
  exact ite (fun _ => rfl) fun _ => rfl

theorem sgrLoop (s : Screen) (params : List UInt16) : Pens s (s.sgrLoop params) := by
  fun_induction Screen.sgrLoop s params with
  | case1 => exact refl _
  | case2 => exact refl _
  | case3 => exact refl _
  | case4 _ _ _ _ _ ih => exact ih
  | case5 _ _ _ _ _ ih => exact (setPen _ _ _).trans ih
  | case6 _ _ _ _ _ _ _ _ ih => exact (setPen _ _ _).trans ih
  | case7 _ _ _ _ _ _ _ ih => exact ih
  | case8 _ _ _ _ _ _ _ _ ih => exact ih
  | case9 _ _ _ _ ih => exact (sgrOne _ _).trans ih

end Pens
end Screen
end Rill.Vt
