import Rill.Vt.Import

/-!
# What an import leaves behind

The import overwrites everything but the count of dropped replies and the rows
that scrolled off. Nothing reads either before the host does: rows are only ever
added, behind whatever was there. So two importers of one blob can be told apart
just by what they had not handed over.
-/

namespace Rill.Vt

open Lib

namespace Screen

def behind (rows : List (List Cell)) (s : Screen) : Screen :=
  { s with scrolledOff := rows ++ s.scrolledOff }

/-- `t` is `s` with `rows` scrolled off before its own. -/
def Behind (rows : List (List Cell)) (s t : Screen) : Prop := t = s.behind rows

namespace Behind

variable {old : List (List Cell)} {s t : Screen}

-- ---------------------------------------------------------------------------
-- Rules
-- ---------------------------------------------------------------------------

theorem of_behind (old : List (List Cell)) (s : Screen) : Behind old s (s.behind old) := rfl

theorem ite {c : Prop} [Decidable c] {a a' b b' : Screen} (h : c → Behind old a a')
    (k : ¬ c → Behind old b b') : Behind old (if c then a else b) (if c then a' else b') := by
  split
  case isTrue hc => exact h hc
  case isFalse hc => exact k hc

theorem foldl {f : Screen → α → Screen} (hf : ∀ s t a, Behind old s t → Behind old (f s a) (f t a))
    (h : Behind old s t) (l : List α) : Behind old (l.foldl f s) (l.foldl f t) :=
  List.foldl_rel h fun a _ s t hst => hf s t a hst

theorem iterate {f : Screen → Screen} (hf : ∀ s t, Behind old s t → Behind old (f s) (f t))
    (h : Behind old s t) (n : Nat) : Behind old (n.repeat f s) (n.repeat f t) :=
  repeat_rel hf h n

theorem idx (h : Behind old s t) (col row : UInt16) : t.idx col row = s.idx col row := by rw [h]; rfl

-- ---------------------------------------------------------------------------
-- Cells, cursor and damage
-- ---------------------------------------------------------------------------

theorem setCell (h : Behind old s t) (i : Nat) (c : Cell) :
    Behind old (s.setCell i c) (t.setCell i c) := by rw [h]; rfl

theorem touch (h : Behind old s t) (i : Nat) : Behind old (s.touch i) (t.touch i) := by rw [h]; rfl

theorem copyWithin (h : Behind old s t) (lo hi dst : Nat) :
    Behind old (s.copyWithin lo hi dst) (t.copyWithin lo hi dst) := by rw [h]; rfl

theorem blankCells (h : Behind old s t) (lo hi : Nat) :
    Behind old (s.blankCells lo hi) (t.blankCells lo hi) := by rw [h]; rfl

theorem copyRows (h : Behind old s t) (moves : List (Nat × Nat)) :
    Behind old (s.copyRows moves) (t.copyRows moves) :=
  foldl (fun _ _ _ h => by rw [h]; rfl) h moves

theorem blankRow (h : Behind old s t) (r : Nat) : Behind old (s.blankRow r) (t.blankRow r) := by
  rw [h]; rfl

theorem blankRows (h : Behind old s t) (first n : Nat) :
    Behind old (s.blankRows first n) (t.blankRows first n) := foldl (fun _ _ r h => h.blankRow r) h _

theorem dirty (h : Behind old s t) (row : UInt16) : Behind old (s.dirty row) (t.dirty row) := by
  rw [h]
  exact ite (fun _ => rfl) fun _ => ite (fun _ => rfl) fun _ => rfl

theorem dirtyRows (h : Behind old s t) (first last : Nat) :
    Behind old (s.dirtyRows first last) (t.dirtyRows first last) :=
  foldl (fun _ _ r h => h.dirty (UInt16.ofNat r)) h _

theorem damageAll (h : Behind old s t) : Behind old s.damageAll t.damageAll := by rw [h]; rfl

theorem clearPendingWrap (h : Behind old s t) :
    Behind old s.clearPendingWrap t.clearPendingWrap := by rw [h]; rfl

theorem setCursorCol (h : Behind old s t) (col : UInt16) :
    Behind old (s.setCursorCol col) (t.setCursorCol col) := by rw [h]; rfl

theorem setOpenCluster (h : Behind old s t) (o : Option OpenCluster) :
    Behind old (s.setOpenCluster o) (t.setOpenCluster o) := by rw [h]; rfl

theorem setCursor (h : Behind old s t) (row col : UInt16) :
    Behind old (s.setCursor row col) (t.setCursor row col) := by rw [h]; rfl

theorem restoreCursor (h : Behind old s t) (c : SavedCursor) :
    Behind old (s.restoreCursor c) (t.restoreCursor c) := by rw [h]; rfl

theorem retireRow (h : Behind old s t) (row : Nat) :
    Behind old (s.retireRow row) (t.retireRow row) := by
  rw [h]
  refine ite (fun _ => ?_) fun _ => rfl
  simp only [Behind, behind, check, List.append_assoc]
  rfl

theorem scrollUp (h : Behind old s t) : Behind old s.scrollUp t.scrollUp := by
  have hretired := h.retireRow s.scrollTop.toNat
  rw [h] at hretired ⊢
  exact ((hretired.copyRows _).blankRow _).damageAll

theorem scrollDown (h : Behind old s t) : Behind old s.scrollDown t.scrollDown := by
  rw [h]
  exact ((copyRows rfl _).blankRow _).damageAll

theorem index (h : Behind old s t) : Behind old s.index t.index := by
  have hup := h.scrollUp
  rw [h] at hup ⊢
  exact ite (fun _ => rfl) fun _ => hup

theorem reverseIndex (h : Behind old s t) : Behind old s.reverseIndex t.reverseIndex := by
  have hdown := h.scrollDown
  rw [h] at hdown ⊢
  exact ite (fun _ => rfl) fun _ => hdown

-- ---------------------------------------------------------------------------
-- Modes and pen
-- ---------------------------------------------------------------------------

theorem enterAlt (h : Behind old s t) (saveCursor clear : Bool) :
    Behind old (s.enterAlt saveCursor clear) (t.enterAlt saveCursor clear) := by
  rw [h]
  unfold Screen.enterAlt
  cases hin : s.inAlt <;> cases clear <;> simp [behind, hin] <;> rfl

theorem leaveAlt (h : Behind old s t) (restoreCursor : Bool) :
    Behind old (s.leaveAlt restoreCursor) (t.leaveAlt restoreCursor) := by
  rw [h]
  obtain ⟨_, _, _, _, _, _, _, _, _, _, _, _, _, _, _, _, _, _, altCursor, savedGrid, inAlt⟩ := s
  cases inAlt <;> cases altCursor <;> cases savedGrid <;> cases restoreCursor <;> rfl

theorem setScrollRegion (h : Behind old s t) (params : List UInt16) :
    Behind old (s.setScrollRegion params) (t.setScrollRegion params) := by
  rw [h]
  exact ite (fun _ => rfl) fun _ => rfl

theorem privateModeOne (h : Behind old s t) (set : Bool) (p : UInt16) :
    Behind old (s.privateModeOne set p) (t.privateModeOne set p) := by
  have halt : ∀ a b, Behind old (if set then s.enterAlt a true else s.leaveAlt b)
      (if set then t.enterAlt a true else t.leaveAlt b) := fun _ _ =>
    ite (fun _ => h.enterAlt _ _) fun _ => h.leaveAlt _
  rw [h] at halt ⊢
  refine ite (fun _ => rfl) fun _ => ite (fun _ => rfl) fun _ => ite (fun _ => rfl) fun _ => ?_
  refine ite (fun _ => rfl) fun _ => ite (fun _ => rfl) fun _ => ite (fun _ => rfl) fun _ => ?_
  refine ite (fun _ => rfl) fun _ => ite (fun _ => rfl) fun _ => ite (fun _ => rfl) fun _ => ?_
  exact ite (fun _ => halt false false) fun _ => ite (fun _ => halt true true) fun _ => rfl

theorem setPen (h : Behind old s t) (fg : Bool) (c : Color) :
    Behind old (s.setPen fg c) (t.setPen fg c) := by
  rw [h]
  exact ite (fun _ => rfl) fun _ => rfl

theorem sgrOne (h : Behind old s t) (n : UInt16) : Behind old (s.sgrOne n) (t.sgrOne n) := by
  rw [h]
  refine ite (fun _ => rfl) fun _ => ite (fun _ => rfl) fun _ => ite (fun _ => rfl) fun _ => ?_
  refine ite (fun _ => rfl) fun _ => ite (fun _ => rfl) fun _ => ite (fun _ => rfl) fun _ => ?_
  refine ite (fun _ => rfl) fun _ => ite (fun _ => rfl) fun _ => ite (fun _ => rfl) fun _ => ?_
  refine ite (fun _ => rfl) fun _ => ite (fun _ => rfl) fun _ => ite (fun _ => rfl) fun _ => ?_
  exact ite (fun _ => rfl) fun _ => rfl

theorem sgrLoop (h : Behind old s t) (params : List UInt16) :
    Behind old (s.sgrLoop params) (t.sgrLoop params) :=
  sgrLoop_rel setPen sgrOne h params

theorem enqueueReply (h : Behind old s t) (bytes : List UInt8) :
    Behind old (s.enqueueReply bytes) (t.enqueueReply bytes) := by
  rw [h]
  exact ite (fun _ => rfl) fun _ => ite (fun _ => rfl) fun _ => rfl

-- ---------------------------------------------------------------------------
-- Printing
-- ---------------------------------------------------------------------------

theorem wrapIfNeededWidth (h : Behind old s t) (width : UInt16) :
    Behind old (s.wrapIfNeededWidth width) (t.wrapIfNeededWidth width) := by
  have hwrap := (h.clearPendingWrap.setCursorCol 0).index
  rw [h] at hwrap ⊢
  exact ite (fun _ => rfl) fun _ => ite (fun _ => rfl) fun _ => hwrap

theorem smashHalf (h : Behind old s t) (found : Bool) (other : Nat) (attr : UInt16) :
    Behind old (s.smashHalf found other attr) (t.smashHalf found other attr) := by
  rw [h]
  exact ite (fun _ => ite (fun _ => rfl) fun _ => rfl) fun _ => rfl

theorem smashWideAt (h : Behind old s t) (col row : UInt16) :
    Behind old (s.smashWideAt col row) (t.smashWideAt col row) := by
  have hlead := (h.touch (s.idx col row)).smashHalf
    (decide ((s.cellAt (s.idx col row)).attrs &&& attrWideLead ≠ 0) && decide (col + 1 < s.cols))
    ((s.touch (s.idx col row)).idx (col + 1) row) attrWideTail
  have hcols : t.cols = s.cols := by rw [h]; rfl
  have hrows : t.rows = s.rows := by rw [h]; rfl
  have hcell : t.cellAt (s.idx col row) = s.cellAt (s.idx col row) := by rw [h]; rfl
  unfold Screen.smashWideAt
  simp only [hcols, hrows, h.idx, hcell]
  refine ite (fun _ => h) fun _ => ?_
  rw [(h.touch _).idx, hlead.idx]
  exact hlead.smashHalf _ _ _

theorem advanceAfterWidth (h : Behind old s t) (width : UInt16) :
    Behind old (s.advanceAfterWidth width) (t.advanceAfterWidth width) := by
  rw [h]
  exact ite (fun _ => rfl) fun _ => rfl

theorem widenCluster (h : Behind old s t) (cl : OpenCluster) (tailCol : UInt16) :
    Behind old (s.widenCluster cl tailCol) (t.widenCluster cl tailCol) := by
  unfold Screen.widenCluster
  rw [h.smashWideAt tailCol cl.row]
  exact ((setCell rfl _ _).setCell _ _).setOpenCluster _ |>.dirty _

theorem maybeExpandRiPair (h : Behind old s t) :
    Behind old s.maybeExpandRiPair t.maybeExpandRiPair := by
  have hcl : t.openCluster = s.openCluster := by rw [h]; rfl
  unfold Screen.maybeExpandRiPair
  rw [hcl, h]
  cases s.openCluster with
  | none => rfl
  | some cl =>
    refine ite (fun _ => rfl) fun _ => ite (fun _ => rfl) fun _ => ?_
    have hw := (of_behind old s).widenCluster cl (satAdd16 cl.col 1)
    dsimp only
    rw [hw]
    exact ite (fun _ => (setCursorCol rfl _).advanceAfterWidth _) fun _ => rfl

theorem countTruncated (h : Behind old s t) (len : UInt8) :
    Behind old (s.countTruncated len) (t.countTruncated len) := by
  rw [h]
  exact ite (fun _ => rfl) fun _ => rfl

theorem paintGlyph (h : Behind old s t) (c : Char) (col row width : UInt16) :
    Behind old (s.paintGlyph c col row width) (t.paintGlyph c col row width) := by
  have hlead := h.smashWideAt col row
  have htail := ite (c := width = 2) (fun _ => hlead.smashWideAt (col + 1) row) fun _ => hlead
  unfold Screen.paintGlyph
  dsimp only
  rw [htail, h]
  exact ite (fun _ => (setCell rfl _ _).setCell _ _) fun _ => setCell rfl _ _

theorem placeGlyph (h : Behind old s t) (c : Char) (width : UInt16) :
    Behind old (s.placeGlyph c width) (t.placeGlyph c width) := by
  have hpaint := h.paintGlyph c s.cursorCol s.cursorRow width
  rw [h] at hpaint ⊢
  exact ((hpaint.setOpenCluster _).dirty _).advanceAfterWidth _

theorem printBase (h : Behind old s t) (c : Char) : Behind old (s.printBase c) (t.printBase c) := by
  unfold Screen.printBase
  dsimp only
  rw [h.wrapIfNeededWidth (clusterWidth c)]
  exact ite (fun _ => rfl) fun _ => placeGlyph rfl _ _

theorem writeChar (h : Behind old s t) (c : Char) : Behind old (s.writeChar c) (t.writeChar c) := by
  have hcl : t.openCluster = s.openCluster := by rw [h]; rfl
  have happend : t.shouldAppend c = s.shouldAppend c := by rw [h]; rfl
  have hbase := h.printBase c
  unfold Screen.writeChar Screen.appendToCluster
  rw [hcl, happend]
  cases s.shouldAppend c with
  | false => exact hbase
  | true =>
    cases s.openCluster with
    | none => exact hbase
    | some cl =>
      have happ := ((h.countTruncated cl.len).dirty cl.row).setOpenCluster
        (some { cl with
          len := if cl.len ≥ rillGraphemeMax then cl.len else cl.len + 1
          afterZwj := c = zeroWidthJoiner
          lastWasRi := isRegionalIndicator c })
      exact ite (fun _ => happ.maybeExpandRiPair) fun _ => happ

-- ---------------------------------------------------------------------------
-- Erasing and editing
-- ---------------------------------------------------------------------------

theorem eraseSpan (h : Behind old s t) (start stop : Nat) :
    Behind old (s.eraseSpan start stop) (t.eraseSpan start stop) := by
  have hcols : t.cols = s.cols := by rw [h]; rfl
  have hcells : t.cells = s.cells := by rw [h]; rfl
  unfold Screen.eraseSpan Screen.smashSpan
  rw [hcols, hcells]
  have hs := foldl (fun _ _ i h => h.smashWideAt (UInt16.ofNat (i % max s.cols.toNat 1))
    (UInt16.ofNat (i / max s.cols.toNat 1))) h (List.range' (min start (min stop s.cells.length))
      (min stop s.cells.length - min start (min stop s.cells.length)))
  have hblank := hs.blankCells (min start (min stop s.cells.length)) (min stop s.cells.length)
  exact ite (fun _ => hblank.dirtyRows _ _) fun _ => hblank

theorem eraseDisplay (h : Behind old s t) (mode : UInt16) :
    Behind old (s.eraseDisplay mode) (t.eraseDisplay mode) := by
  have hspan := fun a b => h.eraseSpan a b
  rw [h] at hspan ⊢
  exact ite (fun _ => hspan _ _) fun _ => ite (fun _ => hspan _ _) fun _ => (hspan _ _).damageAll

theorem eraseLine (h : Behind old s t) (mode : UInt16) :
    Behind old (s.eraseLine mode) (t.eraseLine mode) := by
  have hspan := fun a b => h.eraseSpan a b
  rw [h] at hspan ⊢
  exact ite (fun _ => hspan _ _) fun _ => ite (fun _ => hspan _ _) fun _ => hspan _ _

theorem eraseChars (h : Behind old s t) (n : UInt16) :
    Behind old (s.eraseChars n) (t.eraseChars n) := by
  have hspan := fun a b => h.eraseSpan a b
  rw [h] at hspan ⊢
  exact hspan _ _

theorem insertLines (h : Behind old s t) (n : UInt16) :
    Behind old (s.insertLines n) (t.insertLines n) := by
  have hcount : t.lineCount n = s.lineCount n := by rw [h]; rfl
  unfold Screen.insertLines
  rw [hcount]
  cases s.lineCount n with
  | none => exact h
  | some n =>
    rw [h]
    exact ((copyRows rfl _).blankRows _ _).dirtyRows _ _

theorem deleteLines (h : Behind old s t) (n : UInt16) :
    Behind old (s.deleteLines n) (t.deleteLines n) := by
  have hcount : t.lineCount n = s.lineCount n := by rw [h]; rfl
  unfold Screen.deleteLines
  rw [hcount]
  cases s.lineCount n with
  | none => exact h
  | some n =>
    rw [h]
    exact ((copyRows rfl _).blankRows _ _).dirtyRows _ _

theorem insertCells (h : Behind old s t) (n : UInt16) :
    Behind old (s.insertCells n) (t.insertCells n) := by
  rw [h]
  refine ite (fun _ => rfl) fun _ => ?_
  exact ((ite (fun _ => copyWithin rfl _ _ _) fun _ => rfl).blankCells _ _).dirty _

theorem deleteCells (h : Behind old s t) (n : UInt16) :
    Behind old (s.deleteCells n) (t.deleteCells n) := by
  have hsmash := foldl (fun _ _ c h => h.smashWideAt (UInt16.ofNat c) s.cursorRow) h
    (List.range' s.cursorCol.toNat (min n (satSub16 s.cols s.cursorCol)).toNat)
  rw [h] at hsmash ⊢
  refine ite (fun _ => rfl) fun _ => ?_
  exact ((ite (fun _ => hsmash.copyWithin _ _ _) fun _ => hsmash).blankCells _ _).dirty _

-- ---------------------------------------------------------------------------
-- Actions
-- ---------------------------------------------------------------------------

theorem csiDispatch (h : Behind old s t) (params : List UInt16) (action : Char) :
    Behind old (s.csiDispatch params action) (t.csiDispatch params action) := by
  have hrow : t.cursorRow = s.cursorRow := by rw [h]; rfl
  have hcol : t.cursorCol = s.cursorCol := by rw [h]; rfl
  unfold Screen.csiDispatch
  simp only [hrow, hcol]
  split
  case h_1 | h_2 | h_3 | h_4 | h_5 | h_6 | h_7 | h_8 | h_9 | h_10 => exact h.setCursor _ _
  case h_11 => exact h.eraseDisplay _
  case h_12 => exact h.eraseLine _
  case h_13 => exact h.eraseChars _
  case h_14 => exact h.insertLines _
  case h_15 => exact h.deleteLines _
  case h_16 => exact h.insertCells _
  case h_17 => exact h.deleteCells _
  case h_18 => exact h.setScrollRegion _
  case h_19 => exact h.iterate (fun _ _ h => h.scrollUp) _
  case h_20 => exact h.iterate (fun _ _ h => h.scrollDown) _
  case h_21 => exact h.sgrLoop _
  case h_22 => exact ite (fun _ => h.enqueueReply _) fun _ => h
  case h_23 =>
    unfold Screen.replyDsrCursor
    rw [hrow, hcol]
    exact ite (fun _ => h.enqueueReply _) fun _ => ite (fun _ => h.enqueueReply _) fun _ => h
  case h_24 => exact h

theorem csi (h : Behind old s t) (params : List UInt16) (intermediates : List UInt8)
    (ignore : Bool) (action : Char) :
    Behind old (s.csi params intermediates ignore action)
      (t.csi params intermediates ignore action) :=
  ite (fun _ => h) fun _ =>
    ite (fun _ => foldl (fun _ _ p h => h.privateModeOne _ p) h params) fun _ =>
    ite (fun _ => h.enqueueReply _) fun _ => ite (fun _ => h) fun _ => h.csiDispatch _ _

theorem execute (h : Behind old s t) (byte : UInt8) :
    Behind old (s.execute byte) (t.execute byte) := by
  have hopen := h.clearPendingWrap.setOpenCluster none
  have hindex := hopen.index
  rw [h] at hindex ⊢
  refine ite (fun _ => ite (fun _ => rfl) fun _ => rfl) fun _ => ite (fun _ => rfl) fun _ => ?_
  exact ite (fun _ => hindex) fun _ => ite (fun _ => rfl) fun _ => rfl

theorem esc (h : Behind old s t) (intermediates : List UInt8) (byte : UInt8) :
    Behind old (s.esc intermediates byte) (t.esc intermediates byte) := by
  have hwrap := h.clearPendingWrap
  have hdown := hwrap.index
  have hnext := (hwrap.setCursorCol 0).index
  have hup := hwrap.reverseIndex
  have hrestore := h.restoreCursor
  have hsaved : (s.behind old).savedCursor = s.savedCursor := rfl
  rw [h] at hdown hnext hup hrestore ⊢
  refine ite (fun _ => rfl) fun _ => ite (fun _ => ?_) fun _ => ite (fun _ => hdown) fun _ => ?_
  · rw [hsaved]
    cases s.savedCursor with
    | none => rfl
    | some c => exact hrestore c
  refine ite (fun _ => hnext) fun _ => ite (fun _ => hup) fun _ => ?_
  exact ite (fun _ => rfl) fun _ => ite (fun _ => rfl) fun _ => rfl

theorem act (h : Behind old s t) (a : Action) : Behind old (s.act a) (t.act a) := by
  cases a with
  | print c => exact h.writeChar c
  | execute b => exact h.execute b
  | csi params intermediates ignore action => exact h.csi params intermediates ignore action
  | esc intermediates b => exact h.esc intermediates b
  | osc payload => exact h

theorem acts (h : Behind old s t) (l : List Action) :
    Behind old (l.foldl Screen.act s) (l.foldl Screen.act t) := foldl (fun _ _ a h => h.act a) h l

end Behind

-- ---------------------------------------------------------------------------
-- Palette
-- ---------------------------------------------------------------------------

theorem palette_leaveAlt (s : Screen) (restoreCursor : Bool) :
    (s.leaveAlt restoreCursor).palette = s.palette := by
  obtain ⟨_, _, _, _, _, _, _, _, _, _, _, _, _, _, _, _, _, _, altCursor, savedGrid, inAlt⟩ := s
  cases inAlt <;> cases altCursor <;> cases savedGrid <;> cases restoreCursor <;> rfl

theorem palette_enterAlt (s : Screen) (saveCursor clear : Bool) :
    (s.enterAlt saveCursor clear).palette = s.palette := by
  obtain ⟨_, _, _, _, _, _, _, _, _, _, _, _, _, _, _, _, _, _, _, _, inAlt⟩ := s
  cases inAlt <;> cases clear <;> rfl

theorem palette_ite {c : Prop} [Decidable c] {s t u : Screen} (ht : t.palette = s.palette)
    (hu : u.palette = s.palette) : (if c then t else u).palette = s.palette := by
  split
  · exact ht
  · exact hu

theorem palette_privateModeOne (s : Screen) (set : Bool) (p : UInt16) :
    (s.privateModeOne set p).palette = s.palette := by
  have halt : ∀ a b, (if set then s.enterAlt a true else s.leaveAlt b).palette = s.palette :=
    fun _ _ => palette_ite (palette_enterAlt s _ _) (palette_leaveAlt s _)
  refine palette_ite rfl (palette_ite rfl (palette_ite rfl (palette_ite rfl (palette_ite rfl ?_))))
  refine palette_ite rfl (palette_ite rfl (palette_ite rfl (palette_ite rfl ?_)))
  exact palette_ite (halt false false) (palette_ite (halt true true) rfl)

theorem palette_privateMode (s : Screen) (params : List UInt16) (set : Bool) :
    (s.privateMode params set).palette = s.palette := by
  unfold privateMode
  induction params generalizing s with
  | nil => rfl
  | cons p params ih => rw [List.foldl_cons, ih, palette_privateModeOne]

theorem palette_enqueueReply (s : Screen) (bytes : List UInt8) :
    (s.enqueueReply bytes).palette = s.palette := palette_ite rfl (palette_ite rfl rfl)

theorem palette_csiDispatch (s : Screen) (params : List UInt16) (action : Char) :
    (s.csiDispatch params action).palette = s.palette := by
  have hd := Draws.refl s
  unfold csiDispatch
  dsimp only
  split
  case h_1 | h_2 | h_3 | h_4 | h_5 | h_6 | h_7 | h_8 | h_9 | h_10 => rfl
  case h_11 => exact (hd.eraseDisplay _).palette
  case h_12 => exact (hd.eraseLine _).palette
  case h_13 => exact (hd.eraseSpan _ _).palette
  case h_14 => exact (hd.insertLines _).palette
  case h_15 => exact (hd.deleteLines _).palette
  case h_16 => exact (hd.insertCells _).palette
  case h_17 => exact (hd.deleteCells _).palette
  case h_18 => exact palette_ite rfl rfl
  case h_19 => exact (hd.iterate (fun _ h => h.scrollUp) _).palette
  case h_20 => exact (hd.iterate (fun _ h => h.scrollDown) _).palette
  case h_21 => exact (Pens.sgrLoop s _).palette
  case h_22 => exact palette_ite (palette_enqueueReply s _) rfl
  case h_23 =>
    exact palette_ite (palette_enqueueReply s _) (palette_ite (palette_enqueueReply s _) rfl)
  case h_24 => rfl

theorem palette_act (s : Screen) (a : Action) : (s.act a).palette = s.palette := by
  have hd := Draws.refl s
  cases a with
  | print c => exact (hd.writeChar c).palette
  | execute b => exact (hd.execute b).palette
  | csi params intermediates ignore action =>
    exact palette_ite rfl (palette_ite (palette_privateMode s _ _) (palette_ite
      (palette_enqueueReply s _) (palette_ite rfl (palette_csiDispatch s _ _))))
  | esc intermediates b =>
    refine palette_ite rfl (palette_ite ?_ (palette_ite hd.clearPendingWrap.index.palette ?_))
    · cases s.savedCursor <;> rfl
    refine palette_ite (hd.clearPendingWrap.setCursorCol 0).index.palette ?_
    refine palette_ite hd.clearPendingWrap.reverseIndex.palette ?_
    exact palette_ite rfl (palette_ite rfl rfl)
  | osc payload => rfl

theorem palette_acts (s : Screen) (l : List Action) : (l.foldl act s).palette = s.palette := by
  induction l generalizing s with
  | nil => rfl
  | cons a l ih => rw [List.foldl_cons, ih, palette_act]

theorem palette_resize {s t : Screen} {cols rows : UInt16} (h : s.resize cols rows = .ok t) :
    t.palette = s.palette := by
  unfold resize at h
  split at h
  · cases h
  · rw [← Except.ok.inj h]

end Screen

-- ---------------------------------------------------------------------------
-- Telling engines apart
-- ---------------------------------------------------------------------------

namespace VtEngine

inductive Call
  | feed (bytes : List UInt8)
  | resize (cols rows : UInt16)
  | snapshot
  | takeReplies
  | takeScrolledOff
  | modeState
  | exportCheckpoint (endingOffset : UInt64)

inductive Answer
  | done (result : Except Error Unit)
  | grid (grid : PodGrid)
  | replies (bytes : List UInt8)
  | scrolledOff (rows : List (List PodCell))
  | modes (modes : TerminalModeState)
  | checkpoint (result : Except Error (List UInt8))

def call (e : VtEngine) : Call → Answer × VtEngine
  | .feed bytes => (.done (.ok ()), e.feed bytes)
  | .resize cols rows =>
    match e.resize cols rows with
    | .error err => (.done (.error err), e)
    | .ok f => (.done (.ok ()), f)
  | .snapshot => (.grid e.snapshot.1, e.snapshot.2)
  | .takeReplies => (.replies e.takeReplies.1, e.takeReplies.2)
  | .takeScrolledOff => (.scrolledOff e.takeScrolledOff.1, e.takeScrolledOff.2)
  | .modeState => (.modes e.modeState, e)
  | .exportCheckpoint endingOffset => (.checkpoint (e.exportCheckpoint endingOffset), e)

def answers (e : VtEngine) : List Call → List Answer
  | [] => []
  | c :: calls => (e.call c).1 :: (e.call c).2.answers calls

/-- No sequence of calls is answered differently. -/
def Indistinguishable (e f : VtEngine) : Prop := ∀ calls, e.answers calls = f.answers calls

/-- One engine but for rows that scrolled off earlier, which look the same. -/
def Twin (e f : VtEngine) : Prop :=
  ∃ p s old new, e = ⟨p, Screen.behind old s⟩ ∧ f = ⟨p, Screen.behind new s⟩ ∧
    old.map (List.map s.podCell) = new.map (List.map s.podCell)

theorem resize_behind (p : Parser) (s : Screen) (old : List (List Cell)) (cols rows : UInt16) :
    VtEngine.resize ⟨p, s.behind old⟩ cols rows =
      (s.resize cols rows).map fun t => ⟨p, t.behind old⟩ := by
  unfold VtEngine.resize Screen.resize
  by_cases hempty : (cols = 0 || rows = 0) = true
  · rw [if_pos hempty, if_pos hempty]
    rfl
  · rw [if_neg hempty, if_neg hempty]
    rfl

theorem twin_feed (p : Parser) {s : Screen} {old new : List (List Cell)}
    (h : old.map (List.map s.podCell) = new.map (List.map s.podCell)) (bytes : List UInt8) :
    Twin (VtEngine.feed ⟨p, s.behind old⟩ bytes) (VtEngine.feed ⟨p, s.behind new⟩ bytes) := by
  have hacts : ∀ rows : List (List Cell), VtEngine.feed ⟨p, s.behind rows⟩ bytes =
      ⟨(p.feed bytes).1, ((p.feed bytes).2.foldl Screen.act s).behind rows⟩ := by
    intro rows
    have hrows := (Screen.Behind.of_behind rows s).acts (p.feed bytes).2
    change VtEngine.mk (p.feed bytes).1 ((p.feed bytes).2.foldl Screen.act (s.behind rows)) = _
    rw [hrows]
  have hpod : ((p.feed bytes).2.foldl Screen.act s).podCell = s.podCell := by
    funext c
    have hpalette := Screen.palette_acts s (p.feed bytes).2
    simp only [Screen.podCell, Screen.resolve, hpalette]
  exact ⟨_, _, old, new, hacts old, hacts new, by rwa [hpod]⟩

theorem Twin.call (h : Twin e f) (c : Call) :
    (e.call c).1 = (f.call c).1 ∧ Twin (e.call c).2 (f.call c).2 := by
  obtain ⟨p, s, old, new, rfl, rfl, hrows⟩ := h
  cases c with
  | feed bytes => exact ⟨rfl, twin_feed p hrows bytes⟩
  | resize cols rows =>
    unfold VtEngine.call
    simp only [resize_behind]
    cases hr : s.resize cols rows with
    | error err => exact ⟨rfl, p, s, old, new, rfl, rfl, hrows⟩
    | ok t =>
      have hpod : t.podCell = s.podCell := by
        funext c
        simp only [Screen.podCell, Screen.resolve, Screen.palette_resize hr]
      exact ⟨rfl, p, t, old, new, rfl, rfl, by rwa [hpod]⟩
  | snapshot => exact ⟨rfl, p, s.snapshot.2, old, new, rfl, rfl, hrows⟩
  | takeReplies => exact ⟨rfl, p, s.takeReplies.2, old, new, rfl, rfl, hrows⟩
  | takeScrolledOff =>
    refine ⟨congrArg Answer.scrolledOff ?_, p, s.takeScrolledOff.2, [], [], rfl, rfl, rfl⟩
    change (old ++ s.scrolledOff).map (List.map s.podCell) =
      (new ++ s.scrolledOff).map (List.map s.podCell)
    rw [List.map_append, List.map_append, hrows]
  | modeState => exact ⟨rfl, p, s, old, new, rfl, rfl, hrows⟩
  | exportCheckpoint endingOffset => exact ⟨rfl, p, s, old, new, rfl, rfl, hrows⟩

theorem Twin.indistinguishable (h : Twin e f) : Indistinguishable e f := by
  intro calls
  induction calls generalizing e f with
  | nil => rfl
  | cons c calls ih =>
    obtain ⟨hanswer, hnext⟩ := h.call c
    rw [answers, answers, hanswer, ih hnext]

/-- Nothing else of an importer shows: what is not overwritten is put back. -/
theorem assign_eq (x : Decoded) {s t : Screen} (hdropped : s.repliesDropped = t.repliesDropped)
    (hs : s.panicked = false) (ht : t.panicked = false) :
    x.assign s = (x.assign { t with scrolledOff := [] }).behind s.scrolledOff := by
  have hback : x.assign s = { x.assign t with
      repliesDropped := s.repliesDropped
      scrolledOff := s.scrolledOff ++ []
      panicked := s.panicked } := by
    rw [List.append_nil]
    rfl
  rw [hback, hdropped, hs, ← ht]
  rfl

/-- Two engines that import one blob cannot be told apart afterwards just when they had
dropped equally many replies, and the rows that had scrolled off them, and had not
been taken, look the same in the blob's palette. -/
theorem importCheckpoint_indistinguishable {e₁ e₂ f₁ f₂ : VtEngine} (h₁ : Hosted e₁)
    (h₂ : Hosted e₂) (hi₁ : e₁.importCheckpoint blob = .ok (ending₁, f₁))
    (hi₂ : e₂.importCheckpoint blob = .ok (ending₂, f₂)) :
    ∃ x, takeDecoded.run (blob.drop 22) = .ok (x, []) ∧ (Indistinguishable f₁ f₂ ↔
      e₁.screen.repliesDropped = e₂.screen.repliesDropped ∧
        (e₁.setPalette x.palette).takeScrolledOff.1 =
          (e₂.setPalette x.palette).takeScrolledOff.1) := by
  obtain ⟨x, hx, rfl⟩ := importCheckpoint_ok hi₁
  obtain ⟨y, hy, rfl⟩ := importCheckpoint_ok hi₂
  obtain rfl : x = y := (Prod.mk.inj (Except.ok.inj (hx.symm.trans hy))).1
  refine ⟨x, hx, fun hsame => ⟨?_, ?_⟩, fun ⟨hdropped, hrows⟩ => ?_⟩
  · -- A snapshot shows the count, taking the rows shows the rows.
    have hgrid := Answer.grid.inj (List.cons.inj (hsame [.snapshot])).1
    exact congrArg PodGrid.repliesDropped hgrid
  · exact Answer.scrolledOff.inj (List.cons.inj (hsame [.takeScrolledOff])).1
  · have hleft := assign_eq x hdropped h₁.fits.inBounds.panicked h₂.fits.inBounds.panicked
    have hright := assign_eq x rfl h₂.fits.inBounds.panicked h₂.fits.inBounds.panicked
    rw [hleft, hright]
    exact Twin.indistinguishable ⟨.new, _, _, _, rfl, rfl, hrows⟩

/-- A new 1 by 1 engine and the same after a line feed import the checkpoint of the
new one. -/
theorem importCheckpoint_indistinguishable_scrolled :
    let e := (VtEngine.new 1 1).toOption.get rfl
    ∃ x, takeDecoded.run ((e.screen.exportCheckpoint 0).drop 22) = .ok (x, []) ∧
      (Indistinguishable ⟨.new, e.screen.setHost e.screen.importedHost⟩
          ⟨.new, e.screen.setHost (e.feed [0x0a]).screen.importedHost⟩ ↔
        e.screen.repliesDropped = (e.feed [0x0a]).screen.repliesDropped ∧
          (e.setPalette x.palette).takeScrolledOff.1 =
            ((e.feed [0x0a]).setPalette x.palette).takeScrolledOff.1) :=
  have hnew : Hosted ((VtEngine.new 1 1).toOption.get rfl) :=
    .new (show VtEngine.new 1 1 = _ from rfl)
  importCheckpoint_indistinguishable hnew (hnew.feed [0x0a])
    (importCheckpoint_exported hnew.fits.1.choose_spec.choose_spec.sound _ 0)
    (importCheckpoint_exported hnew.fits.1.choose_spec.choose_spec.sound _ 0)

/-- The row that scrolled off the second engine before the import is taken after it. -/
theorem importCheckpoint_keeps_scrolled :
    ∃ e blob f₁ f₂, VtEngine.new 1 1 = .ok e ∧ e.importCheckpoint blob = .ok (0, f₁) ∧
      (e.feed [0x0a]).importCheckpoint blob = .ok (0, f₂) ∧ ¬ Indistinguishable f₁ f₂ := by
  have hsound : Sound True 1 1 ((VtEngine.new 1 1).toOption.get rfl).screen :=
    sound_new (show Screen.new 1 1 = .ok _ from rfl)
  refine ⟨_, _, _, _, rfl, importCheckpoint_exported hsound _ 0,
    importCheckpoint_exported hsound _ 0, fun hsame => ?_⟩
  have hrows := Answer.scrolledOff.inj (List.cons.inj (hsame [.takeScrolledOff])).1
  exact nomatch congrArg List.length hrows

end VtEngine
end Rill.Vt
