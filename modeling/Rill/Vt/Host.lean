import Rill.Lib.Runs
import Rill.Vt.Screen

/-!
# What the host takes from the screen

Damage, replies and scrolled-off rows are written by every action and read by
none of them: two screens that differ only there stay alike under all actions.
-/

namespace Rill.Vt

open Lib

/-- The part of a screen that only its host reads. -/
structure Host where
  fullDamage : Bool
  damageRow0 : UInt16
  damageRow1 : UInt16
  replies : List UInt8
  repliesDropped : UInt32
  discardReplies : Bool
  scrolledOff : List (List Cell)
  panicked : Bool

namespace Screen

def host (s : Screen) : Host where
  fullDamage := s.fullDamage
  damageRow0 := s.damageRow0
  damageRow1 := s.damageRow1
  replies := s.replies
  repliesDropped := s.repliesDropped
  discardReplies := s.discardReplies
  scrolledOff := s.scrolledOff
  panicked := s.panicked

def setHost (s : Screen) (h : Host) : Screen :=
  { s with
    fullDamage := h.fullDamage
    damageRow0 := h.damageRow0
    damageRow1 := h.damageRow1
    replies := h.replies
    repliesDropped := h.repliesDropped
    discardReplies := h.discardReplies
    scrolledOff := h.scrolledOff
    panicked := h.panicked }

/-- SGR parameters keep two screens related that setting a pen keeps so. -/
theorem sgrLoop_rel {R : Screen → Screen → Prop} {s t : Screen}
    (hpen : ∀ {s t : Screen}, R s t → ∀ fg c, R (s.setPen fg c) (t.setPen fg c))
    (hone : ∀ {s t : Screen}, R s t → ∀ n, R (s.sgrOne n) (t.sgrOne n)) (h : R s t) (params : List UInt16) :
    R (s.sgrLoop params) (t.sgrLoop params) := by
  fun_induction Screen.sgrLoop s params generalizing t with
  | case1 => rwa [Screen.sgrLoop]
  | case2 _ _ hn =>
    rw [Screen.sgrLoop.eq_def t]
    simp only [if_pos hn]
    exact h
  | case3 _ _ hn _ hk =>
    rw [Screen.sgrLoop.eq_def t]
    simp only [if_pos hn, if_pos hk]
    exact h
  | case4 _ _ hn _ hk ih =>
    rw [Screen.sgrLoop.eq_def t]
    simp only [if_pos hn, if_neg hk]
    exact ih h
  | case5 _ _ hn _ _ ih =>
    rw [Screen.sgrLoop.eq_def t]
    simp only [if_pos hn, if_true]
    exact ih (hpen h _ _)
  | case6 _ _ hn _ _ _ _ hk ih =>
    rw [Screen.sgrLoop.eq_def t]
    simp only [if_pos hn, if_true]
    exact ih (hpen h _ _)
  | case7 _ _ hn _ short hshort hk ih =>
    rw [Screen.sgrLoop.eq_def t]
    simp only [if_pos hn, if_neg hk, if_true]
    exact ih h
  | case8 _ _ hn kind r tail h5 h2 ih =>
    rw [Screen.sgrLoop.eq_def t]
    simp only [if_pos hn, h5, h2, if_false]
    exact ih h
  | case9 _ _ _ hn ih =>
    rw [Screen.sgrLoop.eq_def t]
    simp only [if_neg hn]
    exact ih (hone h _)

/-- `t` is `s` but for what the host reads. -/
def Agree (s t : Screen) : Prop := s.setHost t.host = t

namespace Agree

variable {s t u : Screen}

theorem refl (s : Screen) : Agree s s := rfl

theorem of_setHost (s : Screen) (h : Host) : Agree s (s.setHost h) := rfl

theorem symm (h : Agree s t) : Agree t s := by
  unfold Agree at h ⊢
  rw [← h]
  rfl

theorem trans (h : Agree s t) (k : Agree t u) : Agree s u := by
  unfold Agree at h k ⊢
  rw [← k, ← h]
  rfl

theorem ite {c : Prop} [Decidable c] {a a' b b' : Screen} (h : c → Agree a a')
    (k : ¬ c → Agree b b') : Agree (if c then a else b) (if c then a' else b') := by
  split
  case isTrue hc => exact h hc
  case isFalse hc => exact k hc

theorem foldl {f : Screen → α → Screen} (hf : ∀ s t a, Agree s t → Agree (f s a) (f t a))
    (h : Agree s t) (l : List α) : Agree (l.foldl f s) (l.foldl f t) :=
  List.foldl_rel h fun a _ s t hst => hf s t a hst

theorem of_silent {f : Screen → Screen} (hf : ∀ s, Agree s (f s)) (h : Agree s t) :
    Agree (f s) (f t) := (hf s).symm.trans (h.trans (hf t))

theorem fold_silent {f : Screen → α → Screen} (hf : ∀ s a, Agree s (f s a)) (s : Screen)
    (l : List α) : Agree s (l.foldl f s) := by
  induction l generalizing s with
  | nil => exact refl s
  | cons a l ih => exact (hf s a).trans (ih (f s a))

/-- Agreeing screens are one screen under two hosts. -/
theorem eq_setHost (h : Agree s t) : ∃ k, t = s.setHost k := ⟨t.host, Eq.symm h⟩

theorem congr (h : Agree s t) (g : Screen → α) (hg : ∀ s k, g (s.setHost k) = g s) :
    g t = g s := by
  obtain ⟨k, rfl⟩ := h.eq_setHost
  exact hg s k

theorem cols (h : Agree s t) : t.cols = s.cols := h.congr Screen.cols fun _ _ => rfl

theorem rows (h : Agree s t) : t.rows = s.rows := h.congr Screen.rows fun _ _ => rfl

theorem cells (h : Agree s t) : t.cells = s.cells := h.congr Screen.cells fun _ _ => rfl

theorem cursorCol (h : Agree s t) : t.cursorCol = s.cursorCol := h.congr Screen.cursorCol fun _ _ => rfl

theorem cursorRow (h : Agree s t) : t.cursorRow = s.cursorRow := h.congr Screen.cursorRow fun _ _ => rfl

theorem pendingWrap (h : Agree s t) : t.pendingWrap = s.pendingWrap := h.congr Screen.pendingWrap fun _ _ => rfl

theorem autowrap (h : Agree s t) : t.autowrap = s.autowrap := h.congr Screen.autowrap fun _ _ => rfl

theorem scrollTop (h : Agree s t) : t.scrollTop = s.scrollTop := h.congr Screen.scrollTop fun _ _ => rfl

theorem scrollBottom (h : Agree s t) : t.scrollBottom = s.scrollBottom :=
  h.congr Screen.scrollBottom fun _ _ => rfl

theorem penAttrs (h : Agree s t) : t.penAttrs = s.penAttrs := h.congr Screen.penAttrs fun _ _ => rfl

theorem openCluster (h : Agree s t) : t.openCluster = s.openCluster := h.congr Screen.openCluster fun _ _ => rfl

theorem idx (h : Agree s t) (col row : UInt16) : t.idx col row = s.idx col row :=
  h.congr (fun s => s.idx col row) fun _ _ => rfl

theorem cellAt (h : Agree s t) (i : Nat) : t.cellAt i = s.cellAt i :=
  h.congr (fun s => s.cellAt i) fun _ _ => rfl

end Agree

-- ---------------------------------------------------------------------------
-- Cells and damage
-- ---------------------------------------------------------------------------

theorem agree_touch (s : Screen) (i : Nat) : Agree s (s.touch i) := rfl

theorem agree_dirty (s : Screen) (r : UInt16) : Agree s (s.dirty r) := by
  unfold dirty
  split
  · rfl
  · split <;> rfl

theorem agree_dirtyRows (s : Screen) (first last : Nat) : Agree s (s.dirtyRows first last) :=
  Agree.fold_silent (fun s _ => agree_dirty s _) s _

theorem agree_retireRow (s : Screen) (row : Nat) : Agree s (s.retireRow row) := by
  change Agree s (if _ then _ else s)
  split <;> rfl

theorem agree_enqueueReply (s : Screen) (bytes : List UInt8) : Agree s (s.enqueueReply bytes) := by
  unfold enqueueReply
  split
  · rfl
  · split <;> rfl

namespace Agree

variable {s t : Screen}

theorem setCell (h : Agree s t) (i : Nat) (c : Cell) : Agree (s.setCell i c) (t.setCell i c) := by
  obtain ⟨_, rfl⟩ := h.eq_setHost
  rfl

theorem copyWithin (h : Agree s t) (lo hi dst : Nat) :
    Agree (s.copyWithin lo hi dst) (t.copyWithin lo hi dst) := by
  obtain ⟨_, rfl⟩ := h.eq_setHost
  rfl

theorem copyRow (h : Agree s t) (src r : Nat) : Agree (s.copyRow src r) (t.copyRow src r) := by
  obtain ⟨_, rfl⟩ := h.eq_setHost
  rfl

theorem copyRows (h : Agree s t) (moves : List (Nat × Nat)) :
    Agree (s.copyRows moves) (t.copyRows moves) :=
  foldl (fun _ _ move h => h.copyRow move.1 move.2) h moves

theorem blankCells (h : Agree s t) (lo hi : Nat) :
    Agree (s.blankCells lo hi) (t.blankCells lo hi) := by
  obtain ⟨_, rfl⟩ := h.eq_setHost
  rfl

theorem blankRow (h : Agree s t) (r : Nat) : Agree (s.blankRow r) (t.blankRow r) := by
  obtain ⟨_, rfl⟩ := h.eq_setHost
  rfl

theorem blankRows (h : Agree s t) (first n : Nat) :
    Agree (s.blankRows first n) (t.blankRows first n) :=
  foldl (fun _ _ r h => h.blankRow r) h _

theorem dirty (h : Agree s t) (r : UInt16) : Agree (s.dirty r) (t.dirty r) :=
  h.of_silent fun s => agree_dirty s r

theorem dirtyRows (h : Agree s t) (first last : Nat) :
    Agree (s.dirtyRows first last) (t.dirtyRows first last) :=
  h.of_silent fun s => agree_dirtyRows s first last

theorem enqueueReply (h : Agree s t) (bytes : List UInt8) :
    Agree (s.enqueueReply bytes) (t.enqueueReply bytes) :=
  h.of_silent fun s => agree_enqueueReply s bytes

theorem damageAll (h : Agree s t) : Agree s.damageAll t.damageAll := h.of_silent fun _ => rfl

-- ---------------------------------------------------------------------------
-- Scrolling, cursor and modes
-- ---------------------------------------------------------------------------

theorem clearPendingWrap (h : Agree s t) : Agree s.clearPendingWrap t.clearPendingWrap := by
  obtain ⟨_, rfl⟩ := h.eq_setHost
  rfl

theorem setCursorCol (h : Agree s t) (col : UInt16) :
    Agree (s.setCursorCol col) (t.setCursorCol col) := by
  obtain ⟨_, rfl⟩ := h.eq_setHost
  rfl

theorem setOpenCluster (h : Agree s t) (o : Option OpenCluster) :
    Agree (s.setOpenCluster o) (t.setOpenCluster o) := by
  obtain ⟨_, rfl⟩ := h.eq_setHost
  rfl

theorem retireRow (h : Agree s t) (row : Nat) : Agree (s.retireRow row) (t.retireRow row) :=
  h.of_silent fun s => agree_retireRow s row

theorem scrollUp (h : Agree s t) : Agree s.scrollUp t.scrollUp := by
  unfold Screen.scrollUp
  rw [h.scrollTop, h.scrollBottom]
  exact (((h.retireRow _).copyRows _).blankRow _).damageAll

theorem scrollDown (h : Agree s t) : Agree s.scrollDown t.scrollDown := by
  unfold Screen.scrollDown
  rw [h.scrollTop, h.scrollBottom]
  exact ((h.copyRows _).blankRow _).damageAll

theorem index (h : Agree s t) : Agree s.index t.index := by
  obtain ⟨k, rfl⟩ := h.eq_setHost
  exact ite (fun _ => rfl) (fun _ => (of_setHost s k).scrollUp)

theorem reverseIndex (h : Agree s t) : Agree s.reverseIndex t.reverseIndex := by
  obtain ⟨k, rfl⟩ := h.eq_setHost
  exact ite (fun _ => rfl) (fun _ => (of_setHost s k).scrollDown)

theorem restoreCursor (h : Agree s t) (c : SavedCursor) :
    Agree (s.restoreCursor c) (t.restoreCursor c) := by
  obtain ⟨_, rfl⟩ := h.eq_setHost
  rfl

theorem setCursor (h : Agree s t) (row col : UInt16) :
    Agree (s.setCursor row col) (t.setCursor row col) := by
  obtain ⟨_, rfl⟩ := h.eq_setHost
  rfl

theorem enterAlt (h : Agree s t) (saveCursor clear : Bool) :
    Agree (s.enterAlt saveCursor clear) (t.enterAlt saveCursor clear) := by
  obtain ⟨k, rfl⟩ := h.eq_setHost
  obtain ⟨_, _, _, _, _, _, _, _, _, _, _, _, _, _, _, _, _, _, _, _, inAlt⟩ := s
  cases inAlt <;> cases clear <;> rfl

theorem leaveAlt (h : Agree s t) (restoreCursor : Bool) :
    Agree (s.leaveAlt restoreCursor) (t.leaveAlt restoreCursor) := by
  obtain ⟨k, rfl⟩ := h.eq_setHost
  obtain ⟨_, _, _, _, _, _, _, _, _, _, _, _, _, _, _, _, _, _, altCursor, savedGrid, inAlt⟩ := s
  cases inAlt <;> cases altCursor <;> cases savedGrid <;> cases restoreCursor <;> rfl

theorem setScrollRegion (h : Agree s t) (params : List UInt16) :
    Agree (s.setScrollRegion params) (t.setScrollRegion params) := by
  obtain ⟨k, rfl⟩ := h.eq_setHost
  exact ite (fun _ => rfl) (fun _ => rfl)

theorem privateModeOne (h : Agree s t) (set : Bool) (p : UInt16) :
    Agree (s.privateModeOne set p) (t.privateModeOne set p) := by
  have halt : ∀ a b, Agree (if set then s.enterAlt a true else s.leaveAlt b)
      (if set then t.enterAlt a true else t.leaveAlt b) := fun _ _ =>
    ite (fun _ => h.enterAlt _ _) fun _ => h.leaveAlt _
  obtain ⟨k, rfl⟩ := h.eq_setHost
  refine ite (fun _ => rfl) fun _ => ?_
  refine ite (fun _ => rfl) fun _ => ?_
  refine ite (fun _ => rfl) fun _ => ?_
  refine ite (fun _ => rfl) fun _ => ?_
  refine ite (fun _ => rfl) fun _ => ?_
  refine ite (fun _ => rfl) fun _ => ?_
  refine ite (fun _ => rfl) fun _ => ?_
  refine ite (fun _ => rfl) fun _ => ?_
  refine ite (fun _ => rfl) fun _ => ?_
  refine ite (fun _ => halt false false) fun _ => ?_
  exact ite (fun _ => halt true true) fun _ => rfl

theorem privateMode (h : Agree s t) (params : List UInt16) (set : Bool) :
    Agree (s.privateMode params set) (t.privateMode params set) :=
  foldl (fun _ _ p h => h.privateModeOne set p) h params

-- ---------------------------------------------------------------------------
-- Printing
-- ---------------------------------------------------------------------------

theorem remainingCols (h : Agree s t) : t.remainingCols = s.remainingCols :=
  h.congr Screen.remainingCols fun _ _ => rfl

theorem wrapIfNeededWidth (h : Agree s t) (width : UInt16) :
    Agree (s.wrapIfNeededWidth width) (t.wrapIfNeededWidth width) := by
  unfold Screen.wrapIfNeededWidth
  rw [h.pendingWrap, h.remainingCols, h.autowrap]
  refine ite (fun _ => h) fun _ => ite (fun _ => h.clearPendingWrap) fun _ => ?_
  exact (h.clearPendingWrap.setCursorCol 0).index

theorem touch (h : Agree s t) (i : Nat) : Agree (s.touch i) (t.touch i) :=
  h.of_silent fun s => agree_touch s i

theorem smashHalf (h : Agree s t) (found : Bool) (other : Nat) (attr : UInt16) :
    Agree (s.smashHalf found other attr) (t.smashHalf found other attr) := by
  obtain ⟨k, rfl⟩ := h.eq_setHost
  exact ite (fun _ => ite (fun _ => rfl) fun _ => rfl) fun _ => rfl

theorem smashWideAt (h : Agree s t) (col row : UInt16) :
    Agree (s.smashWideAt col row) (t.smashWideAt col row) := by
  unfold Screen.smashWideAt
  simp only [h.cols, h.rows, h.idx, h.cellAt]
  refine ite (fun _ => h) fun _ => ?_
  have hlead := (h.touch (s.idx col row)).smashHalf
    (decide ((s.cellAt (s.idx col row)).attrs &&& attrWideLead ≠ 0) && decide (col + 1 < s.cols))
    ((s.touch (s.idx col row)).idx (col + 1) row) attrWideTail
  rw [(h.touch _).idx, hlead.idx]
  exact hlead.smashHalf _ _ _

theorem advanceAfterWidth (h : Agree s t) (width : UInt16) :
    Agree (s.advanceAfterWidth width) (t.advanceAfterWidth width) := by
  obtain ⟨k, rfl⟩ := h.eq_setHost
  exact ite (fun _ => rfl) (fun _ => rfl)

theorem widenCluster (h : Agree s t) (cl : OpenCluster) (tailCol : UInt16) :
    Agree (s.widenCluster cl tailCol) (t.widenCluster cl tailCol) := by
  obtain ⟨k, hk⟩ := (h.smashWideAt tailCol cl.row).eq_setHost
  unfold Screen.widenCluster
  rw [hk]
  exact (((of_setHost _ k).setCell _ _).setCell _ _).setOpenCluster _ |>.dirty _

theorem maybeExpandRiPair (h : Agree s t) : Agree s.maybeExpandRiPair t.maybeExpandRiPair := by
  unfold Screen.maybeExpandRiPair
  rw [h.openCluster]
  cases s.openCluster with
  | none => exact h
  | some cl =>
    have hw := h.widenCluster cl (satAdd16 cl.col 1)
    simp only [h.cols, h.cursorRow, hw.cursorCol, hw.cursorRow]
    refine ite (fun _ => h) fun _ => ite (fun _ => h) fun _ => ?_
    exact ite (fun _ => (hw.setCursorCol _).advanceAfterWidth _) fun _ => hw

theorem shouldAppend (h : Agree s t) (c : Char) : t.shouldAppend c = s.shouldAppend c :=
  h.congr (fun s => s.shouldAppend c) fun _ _ => rfl

theorem countTruncated (h : Agree s t) (len : UInt8) :
    Agree (s.countTruncated len) (t.countTruncated len) := by
  obtain ⟨k, rfl⟩ := h.eq_setHost
  exact ite (fun _ => rfl) (fun _ => rfl)

theorem paintGlyph (h : Agree s t) (c : Char) (col row width : UInt16) :
    Agree (s.paintGlyph c col row width) (t.paintGlyph c col row width) := by
  have hlead := h.smashWideAt col row
  have htail := hlead.smashWideAt (col + 1) row
  unfold Screen.paintGlyph
  by_cases hw : width = 2
  · obtain ⟨k, hk⟩ := htail.eq_setHost
    simp only [hw, if_true, h.penAttrs]
    rw [hk]
    exact ((of_setHost _ k).setCell _ _).setCell _ _
  · obtain ⟨k, hk⟩ := hlead.eq_setHost
    simp only [hw, if_false, h.penAttrs]
    rw [hk]
    exact (of_setHost _ k).setCell _ _

theorem placeGlyph (h : Agree s t) (c : Char) (width : UInt16) :
    Agree (s.placeGlyph c width) (t.placeGlyph c width) := by
  unfold Screen.placeGlyph
  rw [h.cursorCol, h.cursorRow]
  exact (((h.paintGlyph _ _ _ _).setOpenCluster _).dirty _).advanceAfterWidth _

theorem printBase (h : Agree s t) (c : Char) : Agree (s.printBase c) (t.printBase c) := by
  have hw := h.wrapIfNeededWidth (clusterWidth c)
  unfold Screen.printBase
  simp only [hw.cols, hw.remainingCols]
  exact ite (fun _ => hw) fun _ => hw.placeGlyph _ _

theorem writeChar (h : Agree s t) (c : Char) : Agree (s.writeChar c) (t.writeChar c) := by
  unfold Screen.writeChar Screen.appendToCluster
  rw [h.shouldAppend, h.openCluster]
  cases s.shouldAppend c with
  | false => exact h.printBase c
  | true =>
    cases s.openCluster with
    | none => exact h.printBase c
    | some cl =>
      have happ := ((h.countTruncated cl.len).dirty cl.row).setOpenCluster (some { cl with
        len := if cl.len ≥ rillGraphemeMax then cl.len else cl.len + 1
        afterZwj := c = zeroWidthJoiner
        lastWasRi := isRegionalIndicator c })
      exact ite (fun _ => happ.maybeExpandRiPair) fun _ => happ

-- ---------------------------------------------------------------------------
-- Erasing and editing
-- ---------------------------------------------------------------------------

theorem smashSpan (h : Agree s t) (lo hi : Nat) :
    Agree (s.smashSpan lo hi) (t.smashSpan lo hi) := by
  unfold Screen.smashSpan
  rw [h.cols]
  exact foldl (fun _ _ i h => h.smashWideAt (UInt16.ofNat (i % max s.cols.toNat 1))
    (UInt16.ofNat (i / max s.cols.toNat 1))) h _

theorem eraseSpan (h : Agree s t) (start stop : Nat) :
    Agree (s.eraseSpan start stop) (t.eraseSpan start stop) := by
  unfold Screen.eraseSpan
  rw [h.cols, h.cells]
  have hs := (h.smashSpan (min start (min stop s.cells.length)) (min stop s.cells.length)).blankCells
    (min start (min stop s.cells.length)) (min stop s.cells.length)
  exact ite (fun _ => hs.dirtyRows _ _) fun _ => hs

theorem eraseDisplay (h : Agree s t) (mode : UInt16) :
    Agree (s.eraseDisplay mode) (t.eraseDisplay mode) := by
  unfold Screen.eraseDisplay
  rw [h.cells, h.idx, h.cursorCol, h.cursorRow]
  exact ite (fun _ => h.eraseSpan _ _) fun _ => ite (fun _ => h.eraseSpan _ _) fun _ =>
    (h.eraseSpan _ _).damageAll

theorem eraseLine (h : Agree s t) (mode : UInt16) :
    Agree (s.eraseLine mode) (t.eraseLine mode) := by
  unfold Screen.eraseLine
  simp only [h.idx, h.cursorCol, h.cursorRow, h.cols]
  exact ite (fun _ => h.eraseSpan _ _) fun _ => ite (fun _ => h.eraseSpan _ _) fun _ =>
    h.eraseSpan _ _

theorem eraseChars (h : Agree s t) (n : UInt16) : Agree (s.eraseChars n) (t.eraseChars n) := by
  unfold Screen.eraseChars
  rw [h.idx, h.cursorCol, h.cursorRow, h.cols]
  exact h.eraseSpan _ _

theorem lineCount (h : Agree s t) (n : UInt16) : t.lineCount n = s.lineCount n :=
  h.congr (fun s => s.lineCount n) fun _ _ => rfl

theorem insertLines (h : Agree s t) (n : UInt16) : Agree (s.insertLines n) (t.insertLines n) := by
  unfold Screen.insertLines
  rw [h.lineCount, h.cursorRow, h.scrollBottom]
  cases s.lineCount n with
  | none => exact h
  | some n => exact ((h.copyRows _).blankRows _ _).dirtyRows _ _

theorem deleteLines (h : Agree s t) (n : UInt16) : Agree (s.deleteLines n) (t.deleteLines n) := by
  unfold Screen.deleteLines
  rw [h.lineCount, h.cursorRow, h.scrollBottom]
  cases s.lineCount n with
  | none => exact h
  | some n => exact ((h.copyRows _).blankRows _ _).dirtyRows _ _

theorem insertCells (h : Agree s t) (n : UInt16) : Agree (s.insertCells n) (t.insertCells n) := by
  unfold Screen.insertCells
  simp only [h.idx, h.cursorCol, h.cursorRow, h.cols]
  refine ite (fun _ => h) fun _ => ?_
  exact ((ite (fun _ => h.copyWithin _ _ _) fun _ => h).blankCells _ _).dirty _

theorem smashCols (h : Agree s t) (row : UInt16) (col n : Nat) :
    Agree (s.smashCols row col n) (t.smashCols row col n) :=
  foldl (fun _ _ c h => h.smashWideAt (UInt16.ofNat c) row) h _

theorem deleteCells (h : Agree s t) (n : UInt16) : Agree (s.deleteCells n) (t.deleteCells n) := by
  unfold Screen.deleteCells
  simp only [h.idx, h.cursorCol, h.cursorRow, h.cols]
  refine ite (fun _ => h) fun _ => ?_
  have hsmash := h.smashCols s.cursorRow s.cursorCol.toNat
    (min n (satSub16 s.cols s.cursorCol)).toNat
  exact ((ite (fun _ => hsmash.copyWithin _ _ _) fun _ => hsmash).blankCells _ _).dirty _

-- ---------------------------------------------------------------------------
-- Actions
-- ---------------------------------------------------------------------------

theorem replyDsrCursor (h : Agree s t) : Agree s.replyDsrCursor t.replyDsrCursor :=
  h.of_silent fun s => agree_enqueueReply s _

theorem setPen (h : Agree s t) (fg : Bool) (c : Color) : Agree (s.setPen fg c) (t.setPen fg c) := by
  obtain ⟨k, rfl⟩ := h.eq_setHost
  exact ite (fun _ => rfl) (fun _ => rfl)

theorem sgrOne (h : Agree s t) (n : UInt16) : Agree (s.sgrOne n) (t.sgrOne n) := by
  obtain ⟨k, rfl⟩ := h.eq_setHost
  refine ite (fun _ => rfl) fun _ => ite (fun _ => rfl) fun _ => ite (fun _ => rfl) fun _ =>
    ite (fun _ => rfl) fun _ => ite (fun _ => rfl) fun _ => ite (fun _ => rfl) fun _ =>
    ite (fun _ => rfl) fun _ => ite (fun _ => rfl) fun _ => ite (fun _ => rfl) fun _ =>
    ite (fun _ => rfl) fun _ => ite (fun _ => rfl) fun _ => ite (fun _ => rfl) fun _ =>
    ite (fun _ => rfl) fun _ => rfl

theorem sgrLoop (h : Agree s t) (params : List UInt16) :
    Agree (s.sgrLoop params) (t.sgrLoop params) :=
  sgrLoop_rel setPen sgrOne h params

theorem applySgr (h : Agree s t) (params : List UInt16) :
    Agree (s.applySgr params) (t.applySgr params) := h.sgrLoop _

theorem scroll (h : Agree s t) {f : Screen → Screen}
    (hf : ∀ s t, Agree s t → Agree (f s) (f t)) (n : Nat) : Agree (n.repeat f s) (n.repeat f t) :=
  repeat_rel hf h n

theorem csiDispatch (h : Agree s t) (params : List UInt16) (action : Char) :
    Agree (s.csiDispatch params action) (t.csiDispatch params action) := by
  unfold Screen.csiDispatch
  simp only [h.cursorRow, h.cursorCol]
  split
  case h_1 | h_2 | h_3 | h_4 | h_5 | h_6 | h_7 | h_8 | h_9 | h_10 => exact h.setCursor _ _
  case h_11 => exact h.eraseDisplay _
  case h_12 => exact h.eraseLine _
  case h_13 => exact h.eraseChars _
  case h_14 => exact h.insertLines _
  case h_15 => exact h.deleteLines _
  case h_16 => exact h.insertCells _
  case h_17 => exact h.deleteCells _
  case h_18 => exact h.setScrollRegion _
  case h_19 => exact h.scroll (fun _ _ h => h.scrollUp) _
  case h_20 => exact h.scroll (fun _ _ h => h.scrollDown) _
  case h_21 => exact h.applySgr _
  case h_22 => exact ite (fun _ => h.enqueueReply _) fun _ => h
  case h_23 =>
    exact ite (fun _ => h.replyDsrCursor) fun _ => ite (fun _ => h.enqueueReply _) fun _ => h
  case h_24 => exact h

theorem execute (h : Agree s t) (byte : UInt8) : Agree (s.execute byte) (t.execute byte) := by
  have hopen := h.clearPendingWrap.setOpenCluster none
  unfold Screen.execute
  simp only [hopen.cursorCol, hopen.cols]
  refine ite (fun _ => ite (fun _ => hopen.setCursorCol _) fun _ => hopen) fun _ => ?_
  refine ite (fun _ => hopen.setCursorCol _) fun _ => ite (fun _ => hopen.index) fun _ => ?_
  exact ite (fun _ => hopen.setCursorCol _) fun _ => h

theorem csi (h : Agree s t) (params : List UInt16) (intermediates : List UInt8) (ignore : Bool)
    (action : Char) :
    Agree (s.csi params intermediates ignore action) (t.csi params intermediates ignore action) :=
  ite (fun _ => h) fun _ => ite (fun _ => h.privateMode _ _) fun _ =>
    ite (fun _ => h.enqueueReply _) fun _ => ite (fun _ => h) fun _ => h.csiDispatch _ _

theorem esc (h : Agree s t) (intermediates : List UInt8) (byte : UInt8) :
    Agree (s.esc intermediates byte) (t.esc intermediates byte) := by
  have hrestore := h.restoreCursor
  have hwrap := h.clearPendingWrap
  obtain ⟨k, rfl⟩ := h.eq_setHost
  have hsaved : (s.setHost k).savedCursor = s.savedCursor := rfl
  refine ite (fun _ => rfl) fun _ => ite (fun _ => ?_) fun _ => ?_
  · rw [hsaved]
    cases s.savedCursor with
    | none => exact h
    | some c => exact hrestore c
  refine ite (fun _ => hwrap.index) fun _ => ?_
  refine ite (fun _ => (hwrap.setCursorCol 0).index) fun _ => ?_
  refine ite (fun _ => hwrap.reverseIndex) fun _ => ?_
  exact ite (fun _ => rfl) fun _ => ite (fun _ => rfl) fun _ => rfl

theorem act (h : Agree s t) (a : Action) : Agree (s.act a) (t.act a) := by
  cases a with
  | print c => exact h.writeChar c
  | execute b => exact h.execute b
  | csi params intermediates ignore action => exact h.csi params intermediates ignore action
  | esc intermediates b => exact h.esc intermediates b
  | osc payload => exact h

theorem acts (h : Agree s t) (l : List Action) : Agree (l.foldl Screen.act s) (l.foldl Screen.act t) :=
  foldl (fun _ _ a h => h.act a) h l

end Agree
end Screen
end Rill.Vt
