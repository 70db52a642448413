import Rill.Vt.Readback

/-!
# What a resync leaves behind

A mirror that has read the resync of a screen has the pen the repaint ended
with, and the modes, the region and the saved cursor of a new engine, but for
the alternate screen and the visibility of the cursor.
-/

namespace Rill.Vt

-- ---------------------------------------------------------------------------
-- Typing
-- ---------------------------------------------------------------------------

namespace Screen

/-- `t` is `s` but for what drawing and pens change. -/
def Types (s t : Screen) : Prop := (s.setDrawing t.drawing).withPen t.pen = t

namespace Types

variable {s t u : Screen}

theorem refl (s : Screen) : Types s s := rfl

theorem trans (h : Types s t) (k : Types t u) : Types s u := by
  unfold Types at h k ⊢
  rw [← k, ← h]
  rfl

theorem withPen (h : Types s t) (p : Pen) : Types s (t.withPen p) := h.trans rfl

theorem of_draws (h : Draws s t) : Types s t := by
  unfold Draws at h
  unfold Types
  rw [← h]
  rfl

/-- What neither changes is what it was. -/
theorem congr (h : Types s t) (g : Screen → α)
    (hg : ∀ s d p, g ((Screen.setDrawing s d).withPen p) = g s) : g t = g s := by
  rw [← h]
  exact hg s _ _

theorem typeCell (h : Types s t) (cell : Cell) : Types s (t.typeCell cell) := by
  unfold Screen.typeCell
  split
  · exact h.withPen _
  · exact (h.withPen _).trans (of_draws ((Draws.refl _).writeChar _))

theorem typeCells (h : Types s t) (cells : List Cell) : Types s (t.typeCells cells) := by
  unfold Screen.typeCells
  induction cells generalizing t with
  | nil => exact h
  | cons c cells ih => exact ih (h.typeCell c)

theorem nextRow (h : Types s t) : Types s t.nextRow :=
  (h.trans (of_draws (((Draws.refl t).execute 0x0d).execute 0x0a))).withPen _

theorem typeRows (e : Screen) (h : Types s t) (rows : List Nat) : Types s (e.typeRows t rows) := by
  induction rows generalizing t with
  | nil => exact h
  | cons r rows ih =>
    dsimp only [Screen.typeRows]
    split
    · exact ih (h.typeCells _).nextRow
    · exact ih (h.typeCells _)

end Types

-- ---------------------------------------------------------------------------
-- The last pen
-- ---------------------------------------------------------------------------

def lastInk (s : Screen) : Pen := ((s.inkOfRow s.lastRow.toNat).getLast?.map Cell.pen).getD .reset

theorem pen_typeCells (s : Screen) (cells : List Cell) :
    (s.typeCells cells).pen = (cells.getLast?.map Cell.pen).getD s.pen := by
  unfold typeCells
  induction cells generalizing s with
  | nil => rfl
  | cons c cells ih =>
    rw [List.foldl_cons, ih, pen_typeCell, List.getLast?_cons]
    cases cells.getLast? <;> rfl

/-- Every row but the last ends with the reset pen. -/
theorem pen_typeRows (e : Screen) {s : Screen} (hs : s.pen = .reset) {rows : List Nat}
    (h : ∀ r ∈ rows, r + 1 < e.rows.toNat) : (e.typeRows s rows).pen = .reset := by
  induction rows generalizing s with
  | nil => exact hs
  | cons r rows ih =>
    dsimp only [typeRows]
    rw [if_pos (h r List.mem_cons_self)]
    exact ih rfl fun q hq => h q (List.mem_cons_of_mem r hq)

theorem typeRows_append (e s : Screen) (rows more : List Nat) :
    e.typeRows s (rows ++ more) = e.typeRows (e.typeRows s rows) more := by
  induction rows generalizing s with
  | nil => rfl
  | cons r rows ih =>
    simp only [List.cons_append, typeRows]
    split <;> exact ih _

theorem pen_typeScreen_rows (e : Screen) {s : Screen} (hs : s.pen = .reset) (hrows : 0 < e.rows.toNat) :
    (e.typeRows s (List.range e.rows.toNat)).pen = e.lastInk := by
  obtain ⟨n, hn⟩ : ∃ n, e.rows.toNat = n + 1 := ⟨e.rows.toNat - 1, by omega⟩
  have hlast : e.lastRow.toNat = n := by
    rw [lastRow, toNat_satSub16, UInt16.toNat_one]
    omega
  have hbefore : (e.typeRows s (List.range n)).pen = .reset := pen_typeRows e hs fun r hr => by
    have hr := List.mem_range.mp hr
    omega
  rw [hn, List.range_succ, typeRows_append]
  dsimp only [typeRows]
  rw [if_neg (by omega), pen_typeCells, hbefore, lastInk, hlast]

-- ---------------------------------------------------------------------------
-- Standing state
-- ---------------------------------------------------------------------------

/-- What lasts from one byte to the next beside the picture, the pen, and the two
modes a repaint writes. -/
def standing (s : Screen) : TerminalModeState × Bool × UInt16 × UInt16 × Option SavedCursor :=
  ({ s.modeState with alternateScreen := false, cursorVisible := false }, s.autowrap, s.scrollTop,
    s.scrollBottom, s.savedCursor)

theorem standing_types {s t : Screen} (h : Types s t) : t.standing = s.standing :=
  h.congr standing fun _ _ _ => rfl

theorem standing_enterAlt (s : Screen) (saveCursor clear : Bool) :
    (s.enterAlt saveCursor clear).standing = s.standing := by
  unfold enterAlt
  cases s.inAlt <;> cases clear <;> rfl

theorem standing_withPen (s : Screen) (p : Pen) : (s.withPen p).standing = s.standing := rfl

theorem cursorVisible_withPen (s : Screen) (p : Pen) : (s.withPen p).cursorVisible = s.cursorVisible := rfl

theorem types_home (s : Screen) : Types s ((s.csiDispatch [2] 'J').csiDispatch [] 'H') :=
  .of_draws (((Draws.refl s).eraseDisplay _).setCursor _ _)

theorem types_cup (s : Screen) (row col : UInt16) : Types s (s.csiDispatch [row, col] 'H') :=
  .of_draws ((Draws.refl s).setCursor _ _)

/-- The screen a repaint types its rows on. -/
def typingOn (e s : Screen) : Screen :=
  let s := (s.csiDispatch [2] 'J').csiDispatch [] 'H'
  (if e.inAlt then s.privateMode [1049] true else s).withPen .reset

theorem types_resyncOn (e s : Screen) : ∃ t, Types (e.typingOn s) t ∧
    t.pen = (e.typeRows (e.typingOn s) (List.range e.rows.toNat)).pen ∧
    e.resyncOn s = if e.cursorVisible then t else t.privateMode [25] false :=
  ⟨_, ((Types.refl _).typeRows e _).trans (types_cup _ _ _), rfl, rfl⟩

theorem standing_resyncOn (e s : Screen) : (e.resyncOn s).standing = s.standing := by
  obtain ⟨t, htypes, -, heq⟩ := types_resyncOn e s
  have hstart : (e.typingOn s).standing = s.standing := by
    have hhome := standing_types (types_home s)
    unfold typingOn
    dsimp only
    rw [standing_withPen]
    split
    case isTrue => exact (standing_enterAlt _ true true).trans hhome
    case isFalse => exact hhome
  have hend : (e.resyncOn s).standing = t.standing := by
    rw [heq]
    cases e.cursorVisible <;> rfl
  rw [hend, standing_types htypes, hstart]

theorem inAlt_resyncOn (e : Screen) {s : Screen} (hs : s.inAlt = false) :
    (e.resyncOn s).inAlt = e.inAlt := by
  obtain ⟨t, htypes, -, heq⟩ := types_resyncOn e s
  have hstart : (e.typingOn s).inAlt = e.inAlt := by
    unfold typingOn
    cases e.inAlt with
    | false => exact ((types_home s).congr Screen.inAlt fun _ _ _ => rfl).trans hs
    | true => rfl
  have hend : (e.resyncOn s).inAlt = t.inAlt := by
    rw [heq]
    cases e.cursorVisible <;> rfl
  rw [hend, htypes.congr Screen.inAlt fun _ _ _ => rfl, hstart]

theorem cursorVisible_enterAlt (s : Screen) (saveCursor clear : Bool) :
    (s.enterAlt saveCursor clear).cursorVisible = s.cursorVisible := by
  unfold enterAlt
  cases s.inAlt <;> cases clear <;> rfl

theorem cursorVisible_resyncOn (e : Screen) {s : Screen} (hs : s.cursorVisible = true) :
    (e.resyncOn s).cursorVisible = e.cursorVisible := by
  obtain ⟨t, htypes, -, heq⟩ := types_resyncOn e s
  have hstart : (e.typingOn s).cursorVisible = true := by
    have hhome := ((types_home s).congr Screen.cursorVisible fun _ _ _ => rfl).trans hs
    unfold typingOn
    dsimp only
    rw [cursorVisible_withPen]
    split
    case isTrue => exact (cursorVisible_enterAlt _ true true).trans hhome
    case isFalse => exact hhome
  have ht := (htypes.congr Screen.cursorVisible fun _ _ _ => rfl).trans hstart
  rw [heq]
  cases e.cursorVisible with
  | false => rfl
  | true => exact ht

theorem pen_resyncOn (e s : Screen) (hrows : 0 < e.rows.toNat) : (e.resyncOn s).pen = e.lastInk := by
  obtain ⟨t, -, hpen, heq⟩ := types_resyncOn e s
  have hend : (e.resyncOn s).pen = t.pen := by
    rw [heq]
    cases e.cursorVisible <;> rfl
  rw [hend, hpen, pen_typeScreen_rows e rfl hrows]

end Screen

-- ---------------------------------------------------------------------------
-- Going on
-- ---------------------------------------------------------------------------

/-- What the bytes that follow and the host's encoder depend on beside the picture. -/
structure SameSession (s t : Screen) : Prop where
  modes : s.modeState = t.modeState
  autowrap : s.autowrap = t.autowrap
  pen : s.pen = t.pen
  region : s.scrollTop = t.scrollTop ∧ s.scrollBottom = t.scrollBottom
  savedCursor : s.savedCursor = t.savedCursor

/-- The screen's standing state is a new one's, and its pen is the one the last row
was written with. -/
structure Resumable (s : Screen) : Prop where
  applicationCursorKeys : s.applicationCursorKeys = false
  applicationKeypad : s.applicationKeypad = false
  bracketedPaste : s.bracketedPaste = false
  mouseX10 : s.mouseX10 = false
  mouseButton : s.mouseButton = false
  mouseAny : s.mouseAny = false
  mouseSgr : s.mouseSgr = false
  focusEvents : s.focusEvents = false
  autowrap : s.autowrap = true
  region : s.scrollTop = 0 ∧ s.scrollBottom = s.lastRow
  savedCursor : s.savedCursor = none
  pen : s.pen = s.lastInk

theorem sameSession_iff {s t : Screen} (halt : s.inAlt = t.inAlt)
    (hvisible : s.cursorVisible = t.cursorVisible) :
    SameSession s t ↔ s.standing = t.standing ∧ s.pen = t.pen := by
  constructor
  · intro h
    refine ⟨?_, h.pen⟩
    unfold Screen.standing
    rw [h.modes, h.autowrap, h.region.1, h.region.2, h.savedCursor]
  · intro ⟨h, hpen⟩
    simp only [Screen.standing, Prod.mk.injEq, TerminalModeState.mk.injEq, Screen.modeState,
      and_true] at h
    obtain ⟨⟨h1, h2, h3, h4, h5, h6, h7, h8⟩, hautowrap, htop, hbottom, hsaved⟩ := h
    refine ⟨?_, hautowrap, hpen, ⟨htop, hbottom⟩, hsaved⟩
    simp only [Screen.modeState, h1, h2, h3, h4, h5, h6, h7, h8, halt, hvisible]

theorem standing_eq_iff {s : Screen} :
    ((⟨false, false, false, false, false, false, false, false, false, false⟩ : TerminalModeState), true,
      (0 : UInt16), s.lastRow, (none : Option SavedCursor)) = s.standing ∧ s.lastInk = s.pen ↔
      Resumable s := by
  constructor
  · intro ⟨h, hpen⟩
    simp only [Screen.standing, Prod.mk.injEq, TerminalModeState.mk.injEq, Screen.modeState,
      and_true] at h
    obtain ⟨⟨h1, h2, h3, h4, h5, h6, h7, h8⟩, hautowrap, htop, hbottom, hsaved⟩ := h
    exact ⟨h1.symm, h2.symm, h3.symm, h4.symm, h5.symm, h6.symm, h7.symm, h8.symm, hautowrap.symm,
      ⟨htop.symm, hbottom.symm⟩, hsaved.symm, hpen.symm⟩
  · intro h
    refine ⟨?_, h.pen.symm⟩
    simp only [Screen.standing, Screen.modeState, h.applicationCursorKeys, h.applicationKeypad,
      h.bracketedPaste, h.mouseX10, h.mouseButton, h.mouseAny, h.mouseSgr, h.focusEvents, h.autowrap,
      h.region.1, h.region.2, h.savedCursor]

namespace VtEngine

variable {cols rows : UInt16} {e r r' : VtEngine} {history bytes : List UInt8}

theorem size_feed (hnew : VtEngine.new cols rows = .ok e) (history : List UInt8) :
    (e.feed history).screen.cols = cols ∧ (e.feed history).screen.rows = rows := by
  have hs := (sound_of_new hnew).acts (e.parser.feed history).2
  exact ⟨UInt16.toNat_inj.mp hs.cols_eq, UInt16.toNat_inj.mp hs.rows_eq⟩

/-- The mirror of a resync goes on as the engine it mirrors just when that one's
standing state is a new engine's and its pen the last row's. -/
theorem resync_sameSession_iff (hnew : VtEngine.new cols rows = .ok e)
    (hsize : r.screen.cols = cols ∧ r.screen.rows = rows)
    (hres : r.resyncFromHistory history = .ok (bytes, r')) :
    SameSession (e.feed bytes).screen (e.feed history).screen ↔
      Resumable (e.feed history).screen := by
  have hsnew := new_ok hnew
  have hrows := (size_feed hnew history).2
  have hpos : 0 < (e.feed history).screen.rows.toNat := by
    rw [hrows]
    exact (sound_of_new hnew).rows_pos
  unfold Screen.new at hsnew
  split at hsnew
  case isTrue => exact nomatch hsnew
  case isFalse =>
    have hscreen := (Except.ok.inj hsnew).symm
    have hstanding : e.screen.standing =
        (⟨false, false, false, false, false, false, false, false, false, false⟩, true, 0,
          (e.feed history).screen.lastRow, none) := by
      rw [Screen.lastRow, hrows, hscreen]
      rfl
    have halt : e.screen.inAlt = false := by rw [hscreen]
    have hvisible : e.screen.cursorVisible = true := by rw [hscreen]
    rw [feed_resync hnew hsize hres, sameSession_iff (Screen.inAlt_resyncOn _ halt)
      (Screen.cursorVisible_resyncOn _ hvisible), Screen.standing_resyncOn,
      Screen.pen_resyncOn _ _ hpos, hstanding]
    exact standing_eq_iff

/-- A 2 by 1 engine and its own resync of a bold letter. -/
theorem resync_sameSession_bold :
    let e := (VtEngine.new 2 1).toOption.get rfl
    let history : List UInt8 := [0x1b, 0x5b, 0x31, 0x6d, 0x61]
    let bytes := ((e.resyncFromHistory history).toOption.get rfl).1
    SameSession (e.feed bytes).screen (e.feed history).screen := by
  intro e history bytes
  have hnew : VtEngine.new 2 1 = .ok e := rfl
  have hres : e.resyncFromHistory history = .ok (bytes, _) := rfl
  refine (resync_sameSession_iff hnew ⟨rfl, rfl⟩ hres).mpr ?_
  exact {
    applicationCursorKeys := by decide +kernel
    applicationKeypad := by decide +kernel
    bracketedPaste := by decide +kernel
    mouseX10 := by decide +kernel
    mouseButton := by decide +kernel
    mouseAny := by decide +kernel
    mouseSgr := by decide +kernel
    focusEvents := by decide +kernel
    autowrap := by decide +kernel
    region := by decide +kernel
    savedCursor := by decide +kernel
    pen := by decide +kernel }

/-- A program that asked for bracketed pastes gets plain ones from the mirror. -/
theorem resync_drops_bracketedPaste :
    let e := (VtEngine.new 1 1).toOption.get rfl
    let history : List UInt8 := [0x1b, 0x5b, 0x3f, 0x32, 0x30, 0x30, 0x34, 0x68]
    let bytes := ((e.resyncFromHistory history).toOption.get rfl).1
    (e.feed history).parser.isIdle ∧ ¬ SameSession (e.feed bytes).screen (e.feed history).screen := by
  intro e history bytes
  refine ⟨by decide, fun h => ?_⟩
  exact absurd (congrArg TerminalModeState.bracketedPaste h.modes) (by decide +kernel)

end VtEngine

end Rill.Vt
