import Rill.Vt.Host
import Rill.Vt.Margins

/-!
# The rows that leave

Of two screens that differ in what their hosts have taken the same rows scroll off: a row
that leaves is cells, and no host writes cells.
-/

namespace Rill.Vt

open Lib

namespace Screen

variable {s t : Screen}

-- ---------------------------------------------------------------------------
-- What sheds no row
-- ---------------------------------------------------------------------------

/-- No row has scrolled off between `s` and `t`. -/
def Still (s t : Screen) : Prop := t.scrolledOff = s.scrolledOff

namespace Still

variable {u : Screen}

theorem refl (s : Screen) : Still s s := rfl

theorem trans (h : Still s t) (k : Still t u) : Still s u := Eq.trans k h

theorem ite {c : Prop} [Decidable c] (h : c → Still s t) (k : ¬ c → Still s u) :
    Still s (if c then t else u) := by
  split
  case isTrue hc => exact h hc
  case isFalse hc => exact k hc

theorem foldl {f : Screen → α → Screen} (hf : ∀ s a, Still s (f s a)) (s : Screen) (l : List α) :
    Still s (l.foldl f s) := by
  induction l generalizing s with
  | nil => exact refl s
  | cons a l ih => exact (hf s a).trans (ih (f s a))

theorem of_pens (h : Pens s t) : Still s t := by rw [← h]; rfl

theorem dirty (s : Screen) (r : UInt16) : Still s (s.dirty r) :=
  ite (fun _ => rfl) fun _ => ite (fun _ => rfl) fun _ => rfl

theorem dirtyRows (s : Screen) (first last : Nat) : Still s (s.dirtyRows first last) :=
  foldl (fun s r => dirty s (UInt16.ofNat r)) s _

theorem blankRows (s : Screen) (first n : Nat) : Still s (s.blankRows first n) :=
  foldl (fun s r => show Still s (s.blankRow r) from rfl) s _

theorem enterAlt (s : Screen) (saveCursor clear : Bool) : Still s (s.enterAlt saveCursor clear) := by
  unfold Screen.enterAlt
  cases s.inAlt <;> cases clear <;> rfl

theorem leaveAlt (s : Screen) (restoreCursor : Bool) : Still s (s.leaveAlt restoreCursor) := by
  unfold Screen.leaveAlt Screen.takeAltCursor Screen.restoreGrid
  refine ite (fun _ => rfl) fun _ => ?_
  cases s.savedGrid <;> cases restoreCursor <;> cases s.altCursor <;> rfl

theorem setScrollRegion (s : Screen) (params : List UInt16) : Still s (s.setScrollRegion params) :=
  ite (fun _ => rfl) fun _ => rfl

theorem privateModeOne (s : Screen) (set : Bool) (p : UInt16) : Still s (s.privateModeOne set p) := by
  have halt (a b : Bool) : Still s (if set then s.enterAlt a true else s.leaveAlt b) :=
    ite (fun _ => enterAlt s a true) fun _ => leaveAlt s b
  refine ite (fun _ => rfl) fun _ => ite (fun _ => rfl) fun _ => ite (fun _ => rfl) fun _ => ?_
  refine ite (fun _ => rfl) fun _ => ite (fun _ => rfl) fun _ => ite (fun _ => rfl) fun _ => ?_
  refine ite (fun _ => rfl) fun _ => ite (fun _ => rfl) fun _ => ite (fun _ => rfl) fun _ => ?_
  exact ite (fun _ => halt false false) fun _ => ite (fun _ => halt true true) fun _ => rfl

theorem enqueueReply (s : Screen) (bytes : List UInt8) : Still s (s.enqueueReply bytes) :=
  ite (fun _ => rfl) fun _ => ite (fun _ => rfl) fun _ => rfl

theorem smashHalf (s : Screen) (found : Bool) (other : Nat) (attr : UInt16) :
    Still s (s.smashHalf found other attr) :=
  ite (fun _ => ite (fun _ => rfl) fun _ => rfl) fun _ => rfl

theorem smashWideAt (s : Screen) (col row : UInt16) : Still s (s.smashWideAt col row) := by
  unfold Screen.smashWideAt
  refine ite (fun _ => refl s) fun _ => ?_
  have htouch : Still s (s.touch (s.idx col row)) := rfl
  exact (htouch.trans (smashHalf _ _ _ _)).trans (smashHalf _ _ _ _)

theorem advanceAfterWidth (s : Screen) (width : UInt16) : Still s (s.advanceAfterWidth width) :=
  ite (fun _ => rfl) fun _ => rfl

theorem widenCluster (s : Screen) (cl : OpenCluster) (tailCol : UInt16) :
    Still s (s.widenCluster cl tailCol) := by
  have hpair {u : Screen} (h : Still s u) (i j : Nat) (a b : Cell) (o : Option OpenCluster) :
      Still s (((u.setCell i a).setCell j b).setOpenCluster o) := h
  exact (hpair (smashWideAt s tailCol cl.row) _ _ _ _ _).trans (dirty _ cl.row)

theorem maybeExpandRiPair (s : Screen) : Still s s.maybeExpandRiPair := by
  unfold Screen.maybeExpandRiPair
  cases s.openCluster with
  | none => exact refl s
  | some cl =>
    refine ite (fun _ => refl s) fun _ => ite (fun _ => refl s) fun _ => ?_
    have hwide := widenCluster s cl (satAdd16 cl.col 1)
    have hback := hwide.trans (show Still _ (Screen.setCursorCol _ (satAdd16 cl.col 1)) from rfl)
    exact ite (fun _ => hback.trans (advanceAfterWidth _ 1)) fun _ => hwide

theorem appendToCluster {c : Char} (h : s.appendToCluster c = some t) : Still s t := by
  obtain ⟨cl, -, rfl⟩ := Option.map_eq_some_iff.mp h
  have hcount : Still s (s.countTruncated cl.len) := ite (fun _ => rfl) fun _ => rfl
  exact hcount.trans (dirty _ cl.row)

theorem placeGlyph (s : Screen) (c : Char) (width : UInt16) : Still s (s.placeGlyph c width) := by
  have hpaint : Still s (s.paintGlyph c s.cursorCol s.cursorRow width) := by
    have hlead := smashWideAt s s.cursorCol s.cursorRow
    have htail := ite (c := width = 2)
      (fun _ => hlead.trans (smashWideAt _ (s.cursorCol + 1) s.cursorRow)) fun _ => hlead
    exact htail.trans (ite (fun _ => rfl) fun _ => rfl)
  have hopen {u : Screen} (h : Still s u) (o : Option OpenCluster) : Still s (u.setOpenCluster o) := h
  exact ((hopen hpaint _).trans (dirty _ s.cursorRow)).trans (advanceAfterWidth _ width)

theorem eraseSpan (s : Screen) (start stop : Nat) : Still s (s.eraseSpan start stop) := by
  have hsmash (lo hi : Nat) : Still s (s.smashSpan lo hi) := foldl (fun s _ => smashWideAt s _ _) s _
  have hblank (lo hi : Nat) : Still s ((s.smashSpan lo hi).blankCells lo hi) := (hsmash lo hi).trans rfl
  exact ite (fun _ => (hblank _ _).trans (dirtyRows _ _ _)) fun _ => hblank _ _

theorem eraseDisplay (s : Screen) (mode : UInt16) : Still s (s.eraseDisplay mode) :=
  ite (fun _ => eraseSpan s _ _) fun _ => ite (fun _ => eraseSpan s _ _) fun _ => eraseSpan s _ _

theorem eraseLine (s : Screen) (mode : UInt16) : Still s (s.eraseLine mode) :=
  ite (fun _ => eraseSpan s _ _) fun _ => ite (fun _ => eraseSpan s _ _) fun _ => eraseSpan s _ _

theorem moveRows (s : Screen) (moves : List (Nat × Nat)) (blank n first last : Nat) :
    Still s (((s.copyRows moves).blankRows blank n).dirtyRows first last) :=
  ((show Still s (s.copyRows moves) from scrolledOff_copyRows s moves).trans (blankRows _ _ _)).trans
    (dirtyRows _ _ _)

theorem insertLines (s : Screen) (n : UInt16) : Still s (s.insertLines n) := by
  unfold Screen.insertLines
  cases s.lineCount n with
  | none => exact refl s
  | some n => exact moveRows s _ _ _ _ _

theorem deleteLines (s : Screen) (n : UInt16) : Still s (s.deleteLines n) := by
  unfold Screen.deleteLines
  cases s.lineCount n with
  | none => exact refl s
  | some n => exact moveRows s _ _ _ _ _

theorem insertCells (s : Screen) (n : UInt16) : Still s (s.insertCells n) := by
  refine ite (fun _ => rfl) fun _ => ?_
  have hcopy (c : Prop) [Decidable c] (lo hi dst : Nat) : Still s (if c then s.copyWithin lo hi dst else s) :=
    ite (fun _ => rfl) fun _ => rfl
  exact (hcopy _ _ _ _).trans (dirty (blankCells _ _ _) s.cursorRow)

theorem deleteCells (s : Screen) (n : UInt16) : Still s (s.deleteCells n) := by
  refine ite (fun _ => rfl) fun _ => ?_
  have hsmash (col n : Nat) : Still s (s.smashCols s.cursorRow col n) :=
    foldl (fun s _ => smashWideAt s _ _) s _
  have hcopy (c : Prop) [Decidable c] (col n lo hi dst : Nat) :
      Still s (if c then (s.smashCols s.cursorRow col n).copyWithin lo hi dst
        else s.smashCols s.cursorRow col n) :=
    ite (fun _ => hsmash col n) fun _ => hsmash col n
  exact (hcopy _ _ _ _ _ _).trans (dirty (blankCells _ _ _) s.cursorRow)

theorem reverseIndex (s : Screen) : Still s s.reverseIndex :=
  ite (fun _ => rfl) fun _ => scrolledOff_scrollDown s

theorem scrollDowns (s : Screen) (n : Nat) : Still s (n.repeat scrollDown s) :=
  repeat_keeps (fun t ht => ht.trans (scrolledOff_scrollDown t)) (refl s) n

end Still

-- ---------------------------------------------------------------------------
-- Two hosts
-- ---------------------------------------------------------------------------

structure Alike (s t : Screen) : Prop where
  agree : Agree s t
  scrolledOff : t.scrolledOff = s.scrolledOff

namespace Alike

theorem refl (s : Screen) : Alike s s := ⟨.refl s, rfl⟩

theorem ite {c : Prop} [Decidable c] {a a' b b' : Screen} (h : c → Alike a a')
    (k : ¬ c → Alike b b') : Alike (if c then a else b) (if c then a' else b') := by
  split
  case isTrue hc => exact h hc
  case isFalse hc => exact k hc

theorem foldl {f : Screen → α → Screen} (hf : ∀ s t a, Alike s t → Alike (f s a) (f t a))
    (h : Alike s t) (l : List α) : Alike (l.foldl f s) (l.foldl f t) :=
  List.foldl_rel h fun a _ s t hst => hf s t a hst

/-- Where no row leaves, agreeing is enough. -/
theorem of_still {f : Screen → Screen} (hf : ∀ s, Still s (f s)) (h : Alike s t)
    (hagree : Agree (f s) (f t)) : Alike (f s) (f t) where
  agree := hagree
  scrolledOff := by rw [hf s, hf t, h.scrolledOff]

theorem clearPendingWrap (h : Alike s t) : Alike s.clearPendingWrap t.clearPendingWrap :=
  h.of_still (fun _ => rfl) h.agree.clearPendingWrap

theorem setCursorCol (h : Alike s t) (col : UInt16) : Alike (s.setCursorCol col) (t.setCursorCol col) :=
  h.of_still (f := fun s => s.setCursorCol col) (fun _ => rfl) (h.agree.setCursorCol col)

theorem setOpenCluster (h : Alike s t) (o : Option OpenCluster) :
    Alike (s.setOpenCluster o) (t.setOpenCluster o) :=
  h.of_still (f := fun s => s.setOpenCluster o) (fun _ => rfl) (h.agree.setOpenCluster o)

theorem enqueueReply (h : Alike s t) (bytes : List UInt8) :
    Alike (s.enqueueReply bytes) (t.enqueueReply bytes) :=
  h.of_still (fun s => .enqueueReply s bytes) (h.agree.enqueueReply bytes)

theorem scrolledOff_ite {c : Prop} [Decidable c] {a a' b b' : Screen} (ha : Still a a') (hb : Still b b') :
    Still (if c then a else b) (if c then a' else b') := by
  split
  case isTrue => exact ha
  case isFalse => exact hb

theorem retireRow (h : Alike s t) (row : Nat) : Alike (s.retireRow row) (t.retireRow row) := by
  have hoff := h.scrolledOff
  obtain ⟨k, rfl⟩ := h.agree.eq_setHost
  have hrow (r : List Cell) : (s.setHost k).scrolledOff ++ [r] = s.scrolledOff ++ [r] := by rw [hoff]
  exact ⟨h.agree.retireRow row, scrolledOff_ite (hrow _) hoff⟩

theorem scrollUp (h : Alike s t) : Alike s.scrollUp t.scrollUp := by
  have hstill (u : Screen) : Still (u.retireRow u.scrollTop.toNat) u.scrollUp :=
    scrolledOff_copyRows (u.retireRow u.scrollTop.toNat) _
  refine ⟨h.agree.scrollUp, ?_⟩
  rw [hstill t, hstill s, h.agree.scrollTop, (h.retireRow _).scrolledOff]

theorem index (h : Alike s t) : Alike s.index t.index := by
  have hoff := h.scrolledOff
  have hup := h.scrollUp.scrolledOff
  obtain ⟨k, rfl⟩ := h.agree.eq_setHost
  exact ⟨h.agree.index, scrolledOff_ite hoff hup⟩

theorem wrapIfNeededWidth (h : Alike s t) (width : UInt16) :
    Alike (s.wrapIfNeededWidth width) (t.wrapIfNeededWidth width) := by
  unfold Screen.wrapIfNeededWidth
  rw [h.agree.pendingWrap, h.agree.remainingCols, h.agree.autowrap]
  refine ite (fun _ => h) fun _ => ite (fun _ => h.clearPendingWrap) fun _ => ?_
  exact (h.clearPendingWrap.setCursorCol 0).index

theorem printBase (h : Alike s t) (c : Char) : Alike (s.printBase c) (t.printBase c) := by
  have hwrap := h.wrapIfNeededWidth (clusterWidth c)
  unfold Screen.printBase
  simp only [hwrap.agree.cols, hwrap.agree.remainingCols]
  refine ite (fun _ => hwrap) fun _ => ?_
  exact hwrap.of_still (fun s => .placeGlyph s c _) (hwrap.agree.placeGlyph c _)

theorem writeChar (h : Alike s t) (c : Char) : Alike (s.writeChar c) (t.writeChar c) := by
  refine ⟨h.agree.writeChar c, ?_⟩
  have hjoined {u v : Screen} (hv : u.appendToCluster c = some v) :
      Still u (if isRegionalIndicator c then v.maybeExpandRiPair else v) :=
    have happend := Still.appendToCluster hv
    .ite (fun _ => happend.trans (.maybeExpandRiPair v)) fun _ => happend
  have hopen : (t.appendToCluster c).isSome = (s.appendToCluster c).isSome := by
    rw [Screen.appendToCluster, Screen.appendToCluster, Option.isSome_map, Option.isSome_map,
      h.agree.openCluster]
  have hbase := (h.printBase c).scrolledOff
  unfold Screen.writeChar
  rw [h.agree.shouldAppend]
  cases s.shouldAppend c with
  | false => exact hbase
  | true =>
    rw [if_pos rfl, if_pos rfl]
    cases hs : s.appendToCluster c with
    | none =>
      rw [hs, Option.isSome_none, Option.isSome_eq_false_iff, Option.isNone_iff_eq_none] at hopen
      rw [hopen]
      exact hbase
    | some u =>
      rw [hs, Option.isSome_some, Option.isSome_iff_exists] at hopen
      obtain ⟨v, hv⟩ := hopen
      rw [hv]
      exact Eq.trans (hjoined hv) (h.scrolledOff.trans (hjoined hs).symm)

theorem csiDispatch (h : Alike s t) (params : List UInt16) (action : Char) :
    Alike (s.csiDispatch params action) (t.csiDispatch params action) := by
  have hcursor (row col : UInt16) : Alike (s.setCursor row col) (t.setCursor row col) :=
    h.of_still (f := fun s => s.setCursor row col) (fun _ => rfl) (h.agree.setCursor row col)
  unfold Screen.csiDispatch
  simp only [h.agree.cursorRow, h.agree.cursorCol]
  split
  case h_1 | h_2 | h_3 | h_4 | h_5 | h_6 | h_7 | h_8 | h_9 | h_10 => exact hcursor _ _
  case h_11 => exact h.of_still (fun s => .eraseDisplay s _) (h.agree.eraseDisplay _)
  case h_12 => exact h.of_still (fun s => .eraseLine s _) (h.agree.eraseLine _)
  case h_13 =>
    exact h.of_still (f := fun s => s.eraseChars _) (fun s => .eraseSpan s _ _) (h.agree.eraseChars _)
  case h_14 => exact h.of_still (fun s => .insertLines s _) (h.agree.insertLines _)
  case h_15 => exact h.of_still (fun s => .deleteLines s _) (h.agree.deleteLines _)
  case h_16 => exact h.of_still (fun s => .insertCells s _) (h.agree.insertCells _)
  case h_17 => exact h.of_still (fun s => .deleteCells s _) (h.agree.deleteCells _)
  case h_18 => exact h.of_still (fun s => .setScrollRegion s _) (h.agree.setScrollRegion _)
  case h_19 => exact repeat_rel (fun _ _ h => h.scrollUp) h _
  case h_20 =>
    refine h.of_still (fun s => .scrollDowns s _) ?_
    exact h.agree.scroll (fun _ _ h => h.scrollDown) _
  case h_21 => exact h.of_still (fun s => .of_pens (.sgrLoop s _)) (h.agree.applySgr _)
  case h_22 => exact ite (fun _ => h.enqueueReply _) fun _ => h
  case h_23 =>
    refine ite (fun _ => ?_) fun _ => ite (fun _ => h.enqueueReply _) fun _ => h
    exact h.of_still (fun s => .enqueueReply s _) h.agree.replyDsrCursor
  case h_24 => exact h

theorem execute (h : Alike s t) (byte : UInt8) : Alike (s.execute byte) (t.execute byte) := by
  have hopen := h.clearPendingWrap.setOpenCluster none
  unfold Screen.execute
  simp only [hopen.agree.cursorCol, hopen.agree.cols]
  refine ite (fun _ => ite (fun _ => hopen.setCursorCol _) fun _ => hopen) fun _ => ?_
  refine ite (fun _ => hopen.setCursorCol _) fun _ => ite (fun _ => hopen.index) fun _ => ?_
  exact ite (fun _ => hopen.setCursorCol _) fun _ => h

theorem csi (h : Alike s t) (params : List UInt16) (intermediates : List UInt8) (ignore : Bool)
    (action : Char) :
    Alike (s.csi params intermediates ignore action) (t.csi params intermediates ignore action) := by
  have hmode (set : Bool) : Alike (s.privateMode params set) (t.privateMode params set) :=
    h.of_still (fun s => .foldl (fun s p => .privateModeOne s set p) s params)
      (h.agree.privateMode params set)
  refine ite (fun _ => h) fun _ => ite (fun _ => hmode _) fun _ => ?_
  exact ite (fun _ => h.enqueueReply _) fun _ => ite (fun _ => h) fun _ => h.csiDispatch _ _

theorem esc (h : Alike s t) (intermediates : List UInt8) (byte : UInt8) :
    Alike (s.esc intermediates byte) (t.esc intermediates byte) := by
  have hwrap := h.clearPendingWrap
  have hrestore (c : SavedCursor) : Alike (s.restoreCursor c) (t.restoreCursor c) :=
    h.of_still (f := fun s => s.restoreCursor c) (fun _ => rfl) (h.agree.restoreCursor c)
  have hup : Alike s.clearPendingWrap.reverseIndex t.clearPendingWrap.reverseIndex :=
    hwrap.of_still .reverseIndex hwrap.agree.reverseIndex
  have hoff := h.scrolledOff
  obtain ⟨k, rfl⟩ := h.agree.eq_setHost
  have hsaved : (s.setHost k).savedCursor = s.savedCursor := rfl
  refine ite (fun _ => ⟨rfl, hoff⟩) fun _ => ite (fun _ => ?_) fun _ => ?_
  · rw [hsaved]
    cases s.savedCursor with
    | none => exact h
    | some c => exact hrestore c
  refine ite (fun _ => hwrap.index) fun _ => ite (fun _ => (hwrap.setCursorCol 0).index) fun _ => ?_
  refine ite (fun _ => hup) fun _ => ite (fun _ => ⟨rfl, hoff⟩) fun _ => ?_
  exact ite (fun _ => ⟨rfl, hoff⟩) fun _ => h

theorem act (h : Alike s t) (a : Action) : Alike (s.act a) (t.act a) := by
  cases a with
  | print c => exact h.writeChar c
  | execute b => exact h.execute b
  | csi params intermediates ignore action => exact h.csi params intermediates ignore action
  | esc intermediates b => exact h.esc intermediates b
  | osc payload => exact h

theorem acts (h : Alike s t) (l : List Action) : Alike (l.foldl Screen.act s) (l.foldl Screen.act t) :=
  foldl (fun _ _ a h => h.act a) h l

end Alike

end Screen

end Rill.Vt
