import Rill.Vt.Delta
import Rill.Vt.Draw
import Rill.Vt.Spans

/-!
# The pending wrap

The flag is to say that the cursor stands behind a glyph in the last column and that
the next glyph wraps. Printing sets it so and what moves the cursor clears it; it comes
back with a saved cursor, which a resize has moved without a look at the flag.
-/

namespace Rill.Vt

namespace Screen

variable {s t u : Screen}

/-- The cursor at the start of the next row, where a wrap leaves it. -/
def wrapped (s : Screen) : Screen := (s.clearPendingWrap.setCursorCol 0).index

/-- A glyph where it fits, with no wrap before it. -/
def fitGlyph (s : Screen) (c : Char) : Screen :=
  if s.cols < clusterWidth c || s.remainingCols < clusterWidth c then s
  else s.placeGlyph c (clusterWidth c)

/-- The flag is no lie: the cursor is on the last column, and the next printable that
takes a cell of its own wraps. -/
structure WrapsNext (s : Screen) : Prop where
  last : s.cursorCol = s.lastCol
  wraps : ∀ c, s.shouldAppend c = false → s.print c = s.wrapped.fitGlyph c

/-- A cursor may be restored: it brings no flag, or on the last column and under
autowrap. -/
def MayRestore (s : Screen) (c : SavedCursor) : Prop :=
  c.pendingWrap = true → min c.col s.lastCol = s.lastCol ∧ s.autowrap = true

/-- A mode may be reset: not autowrap while a wrap is pending, nor the alternate screen
when the cursor it restores may not be. -/
def MayReset (s : Screen) (p : UInt16) : Prop :=
  (p = 7 → s.pendingWrap = false) ∧
    (p = 1049 → s.inAlt = true → ∀ c, s.altCursor = some c → s.MayRestore c)

/-- The same for modes reset in turn. -/
def MayResetAll : Screen → List UInt16 → Prop
  | _, [] => True
  | s, p :: params => s.MayReset p ∧ (s.privateModeOne false p).MayResetAll params

/-- What a call must not do for the flag to stay true. -/
def MayAct (s : Screen) : Action → Prop
  | .csi params intermediates ignore action =>
    ignore = false → intermediates = [0x3f] → action = 'l' → s.MayResetAll params
  | .esc _ byte => byte = 0x38 → ∀ c, s.savedCursor = some c → s.MayRestore c
  | _ => True

def MayActAll : Screen → List Action → Prop
  | _, [] => True
  | s, a :: acts => s.MayAct a ∧ (s.act a).MayActAll acts

/-- The invariant: a pending wrap is one of the last column, under autowrap. -/
def Pending (s : Screen) : Prop :=
  s.pendingWrap = true → s.cursorCol = s.lastCol ∧ s.autowrap = true

/-- `t` has the flag, the column and the mode of `s`. -/
structure Stays (s t : Screen) : Prop where
  cursorCol : t.cursorCol = s.cursorCol
  pendingWrap : t.pendingWrap = s.pendingWrap
  cols : t.cols = s.cols
  autowrap : t.autowrap = s.autowrap

namespace Stays

theorem refl (s : Screen) : Stays s s := ⟨rfl, rfl, rfl, rfl⟩

theorem trans (h : Stays s t) (k : Stays t u) : Stays s u where
  cursorCol := k.cursorCol.trans h.cursorCol
  pendingWrap := k.pendingWrap.trans h.pendingWrap
  cols := k.cols.trans h.cols
  autowrap := k.autowrap.trans h.autowrap

theorem ite {c : Prop} [Decidable c] (h : Stays s t) (k : Stays s u) :
    Stays s (if c then t else u) := by
  split
  case isTrue => exact h
  case isFalse => exact k

theorem of_edits (h : Edits s t) : Stays s t where
  cursorCol := h.congr Screen.cursorCol fun _ _ _ _ _ _ _ => rfl
  pendingWrap := h.congr Screen.pendingWrap fun _ _ _ _ _ _ _ => rfl
  cols := h.cols
  autowrap := h.congr Screen.autowrap fun _ _ _ _ _ _ _ => rfl

theorem of_pens (h : Pens s t) : Stays s t where
  cursorCol := by rw [← h]
  pendingWrap := by rw [← h]
  cols := by rw [← h]
  autowrap := by rw [← h]

theorem enqueueReply (s : Screen) (bytes : List UInt8) : Stays s (s.enqueueReply bytes) :=
  ite ⟨rfl, rfl, rfl, rfl⟩ (ite ⟨rfl, rfl, rfl, rfl⟩ ⟨rfl, rfl, rfl, rfl⟩)

theorem countTruncated (s : Screen) (len : UInt8) : Stays s (s.countTruncated len) :=
  ite ⟨rfl, rfl, rfl, rfl⟩ (refl s)

theorem setOpenCluster (s : Screen) (o : Option OpenCluster) : Stays s (s.setOpenCluster o) :=
  ⟨rfl, rfl, rfl, rfl⟩

theorem setCell (s : Screen) (i : Nat) (c : Cell) : Stays s (s.setCell i c) := ⟨rfl, rfl, rfl, rfl⟩

theorem dirty (s : Screen) (row : UInt16) : Stays s (s.dirty row) := of_edits (Edits.dirty s row)

theorem widenCluster (s : Screen) (cl : OpenCluster) (tailCol : UInt16) :
    Stays s (s.widenCluster cl tailCol) :=
  ((((of_edits (Edits.smashWideAt s tailCol cl.row)).trans (setCell _ _ _)).trans
    (setCell _ _ _)).trans (setOpenCluster _ _)).trans (dirty _ _)

theorem restoreGrid (s : Screen) : Stays s s.restoreGrid := by
  unfold Screen.restoreGrid
  cases s.savedGrid with
  | none => exact refl s
  | some grid => exact ⟨rfl, rfl, rfl, rfl⟩

end Stays

namespace Pending

theorem of_clear (h : s.pendingWrap = false) : Pending s := fun k =>
  absurd (h.symm.trans k) Bool.false_ne_true

theorem stays (h : Pending s) (k : Stays s t) : Pending t := by
  intro hp
  obtain ⟨hcol, hauto⟩ := h (k.pendingWrap ▸ hp)
  rw [k.cursorCol, k.autowrap, lastCol, k.cols]
  exact ⟨hcol, hauto⟩

theorem ite {c : Prop} [Decidable c] (h : c → Pending s) (k : ¬ c → Pending t) :
    Pending (if c then s else t) := by
  split
  case isTrue hc => exact h hc
  case isFalse hc => exact k hc

-- ---------------------------------------------------------------------------
-- Printing
-- ---------------------------------------------------------------------------

theorem advanceAfterWidth (s : Screen) (width : UInt16) : Pending (s.advanceAfterWidth width) := by
  refine ite (fun _ => of_clear rfl) fun _ => ?_
  exact fun hp => ⟨rfl, hp⟩

theorem index (h : s.pendingWrap = false) : s.index.pendingWrap = false := by
  unfold Screen.index
  split
  · exact h
  · exact ((Edits.scrollUp s).congr Screen.pendingWrap fun _ _ _ _ _ _ _ => rfl).trans h

theorem wrapIfNeededWidth (h : Pending s) (width : UInt16) : Pending (s.wrapIfNeededWidth width) :=
  ite (fun _ => h) fun _ => ite (fun _ => of_clear rfl) fun _ => of_clear (index rfl)

theorem printBase (h : Pending s) (c : Char) : Pending (s.printBase c) :=
  ite (fun _ => h.wrapIfNeededWidth _) fun _ => advanceAfterWidth _ _

theorem maybeExpandRiPair (h : Pending s) : Pending s.maybeExpandRiPair := by
  unfold Screen.maybeExpandRiPair
  cases s.openCluster with
  | none => exact h
  | some cl =>
    refine ite (fun _ => h) fun _ => ite (fun _ => h) fun _ => ?_
    exact ite (fun _ => advanceAfterWidth _ _) fun _ => h.stays (Stays.widenCluster _ _ _)

theorem writeChar (h : Pending s) (c : Char) : Pending (s.writeChar c) := by
  unfold Screen.writeChar Screen.appendToCluster
  cases s.shouldAppend c with
  | false => exact h.printBase c
  | true =>
    cases s.openCluster with
    | none => exact h.printBase c
    | some cl =>
      have happ := h.stays (((Stays.countTruncated s cl.len).trans (Stays.dirty _ cl.row)).trans
        (Stays.setOpenCluster _ (some { cl with
          len := if cl.len ≥ rillGraphemeMax then cl.len else cl.len + 1
          afterZwj := c = zeroWidthJoiner
          lastWasRi := isRegionalIndicator c })))
      exact ite (fun _ => happ.maybeExpandRiPair) fun _ => happ

-- ---------------------------------------------------------------------------
-- Cursors and modes
-- ---------------------------------------------------------------------------

theorem clear_ite {c : Prop} [Decidable c] (h : s.pendingWrap = false) (k : t.pendingWrap = false) :
    (if c then s else t).pendingWrap = false := by
  split
  case isTrue => exact h
  case isFalse => exact k

/-- A restored cursor tells the truth just when it may be restored. -/
theorem restoreCursor_iff (s : Screen) (c : SavedCursor) : Pending (s.restoreCursor c) ↔ s.MayRestore c :=
  Iff.rfl

theorem takeAltCursor (h : Pending s) (restore : Bool)
    (hc : restore = true → ∀ c, s.altCursor = some c → s.MayRestore c) :
    Pending (s.takeAltCursor restore) := by
  cases restore with
  | false => exact h
  | true =>
    unfold Screen.takeAltCursor
    cases ha : s.altCursor with
    | none => exact h
    | some c => exact (restoreCursor_iff { s with altCursor := none } c).mpr (hc rfl c ha)

theorem enterAlt (h : Pending s) (saveCursor clear : Bool) : Pending (s.enterAlt saveCursor clear) := by
  have hsave : Pending (if !s.inAlt then s.saveGrid saveCursor else s) := ite (fun _ => h) fun _ => h
  exact (ite (fun _ => of_clear rfl) fun _ => hsave :
    Pending (if clear then (if !s.inAlt then s.saveGrid saveCursor else s).clearGrid
      else if !s.inAlt then s.saveGrid saveCursor else s))

theorem leaveAlt (h : Pending s) (restore : Bool)
    (hc : restore = true → s.inAlt = true → ∀ c, s.altCursor = some c → s.MayRestore c) :
    Pending (s.leaveAlt restore) := by
  unfold Screen.leaveAlt
  refine ite (fun _ => h) fun hin => ?_
  have hdone : ∀ t : Screen, Pending t → Pending (t.setInAlt false).damageAll := fun _ ht => ht
  have hgrid := Stays.restoreGrid s
  refine hdone _ ((h.stays hgrid).takeAltCursor restore fun hrestore c ha => ?_)
  have hsame : s.restoreGrid.altCursor = s.altCursor := by
    unfold Screen.restoreGrid
    cases s.savedGrid <;> rfl
  have hmay := hc hrestore (by simpa using hin) c (hsame ▸ ha)
  unfold MayRestore lastCol at hmay ⊢
  rwa [hgrid.cols, hgrid.autowrap]

theorem privateModeOne_set (h : Pending s) (p : UInt16) : Pending (s.privateModeOne true p) := by
  unfold Screen.privateModeOne
  refine ite (fun _ => h) fun _ => ite (fun _ => fun hp => ⟨(h hp).1, rfl⟩) fun _ => ?_
  refine ite (fun _ => h) fun _ => ite (fun _ => h) fun _ => ite (fun _ => h) fun _ => ?_
  refine ite (fun _ => h) fun _ => ite (fun _ => h) fun _ => ite (fun _ => h) fun _ => ?_
  refine ite (fun _ => h) fun _ => ite (fun _ => h.enterAlt false true) fun _ => ?_
  exact ite (fun _ => h.enterAlt true true) fun _ => h

theorem privateModeOne_reset (h : Pending s) {p : UInt16} (hmay : s.MayReset p) :
    Pending (s.privateModeOne false p) := by
  unfold Screen.privateModeOne
  refine ite (fun _ => h) fun _ => ite (fun hp => of_clear (hmay.1 hp)) fun _ => ?_
  refine ite (fun _ => h) fun _ => ite (fun _ => h) fun _ => ite (fun _ => h) fun _ => ?_
  refine ite (fun _ => h) fun _ => ite (fun _ => h) fun _ => ite (fun _ => h) fun _ => ?_
  refine ite (fun _ => h) fun _ => ite (fun _ => ?_) fun _ => ite (fun hp => ?_) fun _ => h
  · exact h.leaveAlt false fun hrestore => absurd hrestore Bool.false_ne_true
  · exact h.leaveAlt true fun _ => hmay.2 hp

theorem privateMode_set (h : Pending s) (params : List UInt16) : Pending (s.privateMode params true) := by
  induction params generalizing s with
  | nil => exact h
  | cons p params ih => exact ih (h.privateModeOne_set p)

theorem privateMode_reset (h : Pending s) {params : List UInt16} (hmay : s.MayResetAll params) :
    Pending (s.privateMode params false) := by
  induction params generalizing s with
  | nil => exact h
  | cons p params ih => exact ih (h.privateModeOne_reset hmay.1) hmay.2

theorem setScrollRegion (h : Pending s) (params : List UInt16) : Pending (s.setScrollRegion params) :=
  ite (fun _ => h) fun _ => of_clear rfl

-- ---------------------------------------------------------------------------
-- Calls
-- ---------------------------------------------------------------------------

theorem execute (h : Pending s) (byte : UInt8) : Pending (s.execute byte) := by
  unfold Screen.execute
  refine ite (fun _ => of_clear (clear_ite rfl rfl)) fun _ => ite (fun _ => of_clear rfl) fun _ => ?_
  exact ite (fun _ => of_clear (index rfl)) fun _ => ite (fun _ => of_clear rfl) fun _ => h

theorem csiDispatch (h : Pending s) (params : List UInt16) (action : Char) :
    Pending (s.csiDispatch params action) := by
  unfold Screen.csiDispatch
  split
  case h_1 | h_2 | h_3 | h_4 | h_5 | h_6 | h_7 | h_8 | h_9 | h_10 => exact of_clear rfl
  case h_11 => exact h.stays (Stays.of_edits (Edits.eraseDisplay s _))
  case h_12 => exact h.stays (Stays.of_edits (Edits.eraseLine s _))
  case h_13 => exact h.stays (Stays.of_edits (Edits.eraseSpan s _ _))
  case h_14 => exact h.stays (Stays.of_edits (Edits.insertLines s _))
  case h_15 => exact h.stays (Stays.of_edits (Edits.deleteLines s _))
  case h_16 => exact h.stays (Stays.of_edits (Edits.insertCells s _))
  case h_17 => exact h.stays (Stays.of_edits (Edits.deleteCells s _))
  case h_18 => exact h.setScrollRegion params
  case h_19 => exact h.stays (Stays.of_edits (Edits.iterate Edits.scrollUp s _))
  case h_20 => exact h.stays (Stays.of_edits (Edits.iterate Edits.scrollDown s _))
  case h_21 => exact h.stays (Stays.of_pens (Pens.sgrLoop s _))
  case h_22 => exact ite (fun _ => h.stays (Stays.enqueueReply s _)) fun _ => h
  case h_23 =>
    refine ite (fun _ => h.stays (Stays.enqueueReply s _)) fun _ => ?_
    exact ite (fun _ => h.stays (Stays.enqueueReply s _)) fun _ => h
  case h_24 => exact h

theorem csi (h : Pending s) (params : List UInt16) (intermediates : List UInt8) (ignore : Bool)
    (action : Char) (hmay : s.MayAct (.csi params intermediates ignore action)) :
    Pending (s.csi params intermediates ignore action) := by
  unfold Screen.csi
  refine ite (fun _ => h) fun hign => ite (fun hmode => ?_) fun _ => ?_
  · simp only [Bool.and_eq_true, Bool.or_eq_true, decide_eq_true_eq] at hmode
    obtain ⟨hinter, rfl | rfl⟩ := hmode
    · exact h.privateMode_set params
    · exact h.privateMode_reset (hmay (by simpa using hign) hinter rfl)
  · refine ite (fun _ => h.stays (Stays.enqueueReply s _)) fun _ => ?_
    exact ite (fun _ => h) fun _ => h.csiDispatch params action

theorem reverseIndex (h : s.pendingWrap = false) : s.reverseIndex.pendingWrap = false := by
  refine clear_ite h ?_
  exact ((Edits.scrollDown s).congr Screen.pendingWrap fun _ _ _ _ _ _ _ => rfl).trans h

theorem esc (h : Pending s) (intermediates : List UInt8) (byte : UInt8)
    (hmay : s.MayAct (.esc intermediates byte)) : Pending (s.esc intermediates byte) := by
  unfold Screen.esc
  refine ite (fun _ => h) fun _ => ite (fun hrestore => ?_) fun _ => ?_
  · cases hsaved : s.savedCursor with
    | none => exact h
    | some c => exact (restoreCursor_iff s c).mpr (hmay hrestore c hsaved)
  · refine ite (fun _ => of_clear (index rfl)) fun _ => ite (fun _ => of_clear (index rfl)) fun _ => ?_
    refine ite (fun _ => of_clear (reverseIndex rfl)) fun _ => ?_
    exact ite (fun _ => h) fun _ => ite (fun _ => h) fun _ => h

/-- One call, one that may be made, keeps the invariant. -/
theorem act (h : Pending s) {a : Action} (hmay : s.MayAct a) : Pending (s.act a) := by
  cases a with
  | print c => exact h.writeChar c
  | execute byte => exact h.execute byte
  | csi params intermediates ignore action => exact h.csi params intermediates ignore action hmay
  | esc intermediates byte => exact h.esc intermediates byte hmay
  | osc _ => exact h

theorem acts (h : Pending s) {acts : List Action} (hmay : s.MayActAll acts) :
    Pending (acts.foldl Screen.act s) := by
  induction acts generalizing s with
  | nil => exact h
  | cons a acts ih => exact ih (h.act hmay.1) hmay.2

/-- The invariant makes the flag true: a glyph of its own goes to the next row. -/
theorem wrapsNext (h : Pending s) (hp : s.pendingWrap = true) : s.WrapsNext := by
  obtain ⟨hlast, hauto⟩ := h hp
  refine ⟨hlast, fun c hown => ?_⟩
  have hwrap : s.wrapIfNeededWidth (clusterWidth c) = s.wrapped := by
    unfold Screen.wrapIfNeededWidth
    rw [hp, hauto]
    rfl
  calc s.print c = s.printBase c := by
        unfold Screen.print Screen.writeChar
        rw [hown]
        rfl
    _ = s.wrapped.fitGlyph c := by
        unfold Screen.printBase
        dsimp only
        rw [hwrap]
        rfl

end Pending

theorem pendingWrap_new {cols rows : UInt16} (h : Screen.new cols rows = .ok s) :
    s.pendingWrap = false := by
  unfold Screen.new at h
  split at h
  case isTrue => cases h
  case isFalse =>
    obtain rfl := Except.ok.inj h
    rfl

theorem pendingWrap_resize {cols rows : UInt16} (h : s.resize cols rows = .ok t) :
    t.pendingWrap = false := by
  unfold Screen.resize at h
  split at h
  case isTrue => cases h
  case isFalse =>
    obtain rfl := Except.ok.inj h
    rfl

end Screen

-- ---------------------------------------------------------------------------
-- Runs
-- ---------------------------------------------------------------------------

namespace VtEngine

/-- The engines that feeds and resizes reach while each call of the parser may be made. -/
inductive Steady : VtEngine → Prop
  | new : VtEngine.new cols rows = .ok e → Steady e
  | feed (bytes : List UInt8) :
    Steady e → e.screen.MayActAll (e.parser.feed bytes).2 → Steady (e.feed bytes)
  | resize : Steady e → e.resize cols rows = .ok f → Steady f

variable {e : VtEngine}

theorem Steady.pending (h : Steady e) : e.screen.Pending := by
  induction h with
  | new hnew => exact Screen.Pending.of_clear (Screen.pendingWrap_new (new_ok hnew))
  | feed bytes _ hmay ih => exact ih.acts hmay
  | resize _ hres _ => exact Screen.Pending.of_clear (Screen.pendingWrap_resize (resize_ok hres))

/-- In a run that restores no cursor it may not and leaves autowrap on while a wrap is
pending, the flag means the last column and the wrap to come. -/
theorem wraps_next (h : Steady e) (hp : e.screen.pendingWrap = true) : e.screen.WrapsNext :=
  h.pending.wrapsNext hp

/-- Saved behind the last column of three, the cursor is behind the last of two after a
resize, and may be restored there. -/
theorem wraps_next_narrowed :
    let e := (VtEngine.new 3 1).toOption.get rfl
    let f := ((e.feed [0x61, 0x62, 0x63, 0x1b, 0x37]).resize 2 1).toOption.get rfl
    (f.feed [0x1b, 0x38]).screen.WrapsNext := by
  intro e f
  have hsaved : Steady (e.feed [0x61, 0x62, 0x63, 0x1b, 0x37]) :=
    .feed _ (.new (show VtEngine.new 3 1 = .ok e from rfl))
      (show e.screen.MayActAll [.print 'a', .print 'b', .print 'c', .esc [] 0x37] from
        ⟨trivial, trivial, trivial, nofun, trivial⟩)
  have hresized : Steady f := .resize hsaved (show VtEngine.resize _ 2 1 = .ok f from rfl)
  have hslot : f.screen.savedCursor = some ⟨1, 0, true, .default, .default, 0⟩ := by decide +kernel
  have hmay : f.screen.MayRestore ⟨1, 0, true, .default, .default, 0⟩ := fun _ => by decide +kernel
  have hrestored : Steady (f.feed [0x1b, 0x38]) := by
    refine .feed _ hresized (show f.screen.MayActAll [.esc [] 0x38] from ⟨fun _ c hc => ?_, trivial⟩)
    obtain rfl := Option.some.inj (hslot.symm.trans hc)
    exact hmay
  exact wraps_next hrestored (by decide +kernel)

/-- Saved behind the last column of two, the cursor is there in a grid of three as well:
ESC 8 brings the flag back in the middle of the row. -/
theorem wraps_next_widened :
    let e := (VtEngine.new 2 1).toOption.get rfl
    let f := ((e.feed [0x61, 0x62, 0x1b, 0x37]).resize 3 1).toOption.get rfl
    let g := f.feed [0x1b, 0x38]
    g.screen.pendingWrap = true ∧ ¬ g.screen.cursorCol = g.screen.lastCol := by
  decide +kernel

end VtEngine

end Rill.Vt
