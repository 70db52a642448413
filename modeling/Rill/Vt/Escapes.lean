import Rill.Vt.Bounds
import Rill.Vt.Margins
import Rill.Vt.Strings

/-!
# Escape sequences with intermediates

None of them is known, and they are meant to do nothing. The screen looks at the final
byte alone, and takes some of them for the commands without intermediates.
-/

namespace Rill.Vt

open Lib

-- ---------------------------------------------------------------------------
-- The sequence
-- ---------------------------------------------------------------------------

namespace Parser

variable {inters : List UInt8} {final b : UInt8}

def inEscape (intermediates : List UInt8) (ignore : Bool) : Parser :=
  { Parser.new with state := .escapeIntermediate, intermediates, ignore }

theorem step_inEscape (intermediates : List UInt8) (ignore : Bool) (b : UInt8) :
    (inEscape intermediates ignore).step b = (inEscape intermediates ignore).escapeIntermediate b := rfl

theorem escaped_inter (hb : isInter b) : escaped.step b = (inEscape [b] false, []) := by
  obtain ⟨h20, hinter, -⟩ := inter_class b hb
  obtain ⟨hc0, hcancel, hesc⟩ := control_class b h20
  change escaped.escape b = _
  rw [escape, hc0, hcancel, hinter, if_neg Bool.false_ne_true, if_neg Bool.false_ne_true, if_neg hesc,
    if_pos rfl]
  rfl

theorem inEscape_inter (hb : isInter b) (intermediates : List UInt8) (ignore : Bool) :
    ∃ ignore', (inEscape intermediates ignore).step b =
      (inEscape ((intermediates ++ [b]).take (max 2 intermediates.length)) ignore', []) := by
  obtain ⟨h20, hinter, -⟩ := inter_class b hb
  obtain ⟨hc0, hcancel, hesc⟩ := control_class b h20
  rw [step_inEscape, escapeIntermediate, hc0, hcancel, hinter, if_neg Bool.false_ne_true,
    if_neg Bool.false_ne_true, if_neg hesc, if_pos rfl, pushInter]
  by_cases hroom : intermediates.length < maxInter
  · have hmax : max 2 intermediates.length = 2 := Nat.max_eq_left (Nat.le_of_lt hroom)
    have hlen : (intermediates ++ [b]).length ≤ 2 := by
      rw [List.length_append, List.length_singleton]
      exact hroom
    refine ⟨ignore, ?_⟩
    rw [hmax, List.take_of_length_le hlen]
    exact congrArg (·, []) (if_pos hroom)
  · have hmax : max 2 intermediates.length = intermediates.length :=
      Nat.max_eq_right (Nat.not_lt.mp hroom)
    refine ⟨true, ?_⟩
    rw [hmax, List.take_left]
    exact congrArg (·, []) (if_neg hroom)

theorem inEscape_final (hfinal : between 0x30 0x7e final = true) (intermediates : List UInt8)
    (ignore : Bool) :
    (inEscape intermediates ignore).step final = (.new, [.esc intermediates final]) := by
  have hclass : ∀ b : UInt8, between 0x30 0x7e b = true → 0x20 ≤ b ∧ between 0x20 0x2f b = false := by
    intro b h
    grind [between]
  obtain ⟨h20, hinter⟩ := hclass final hfinal
  obtain ⟨hc0, hcancel, hesc⟩ := control_class final h20
  rw [step_inEscape, escapeIntermediate, hc0, hcancel, hinter, hfinal, if_neg Bool.false_ne_true,
    if_neg Bool.false_ne_true, if_neg hesc, if_neg Bool.false_ne_true, if_pos rfl]
  rfl

theorem feed_inEscape (hinters : ∀ b ∈ inters, isInter b) (hfinal : between 0x30 0x7e final = true)
    {intermediates : List UInt8} (hne : intermediates ≠ []) (ignore : Bool) :
    ∃ kept, kept ≠ [] ∧
      (inEscape intermediates ignore).feed (inters ++ [final]) = (.new, [.esc kept final]) := by
  induction inters generalizing intermediates ignore with
  | nil =>
    exact ⟨intermediates, hne, feed_one rfl rfl (inEscape_final hfinal intermediates ignore)⟩
  | cons b inters ih =>
    obtain ⟨ignore', hstep⟩ := inEscape_inter (hinters b List.mem_cons_self) intermediates ignore
    have hkept : (intermediates ++ [b]).take (max 2 intermediates.length) ≠ [] := by
      intro hnil
      have hlen := congrArg List.length hnil
      rw [List.length_take, List.length_append, List.length_singleton, List.length_nil] at hlen
      omega
    obtain ⟨kept, hne', hfeed⟩ := ih (fun c hc => hinters c (List.mem_cons_of_mem _ hc)) hkept ignore'
    exact ⟨kept, hne', by rw [List.cons_append, feed_step rfl rfl hstep, hfeed]⟩

/-- However many intermediates there are, the screen is called with some of them. -/
theorem feed_escape_inters (hne : inters ≠ []) (hinters : ∀ b ∈ inters, isInter b)
    (hfinal : between 0x30 0x7e final = true) :
    ∃ kept, kept ≠ [] ∧
      Parser.new.feed (0x1b :: inters ++ [final]) = (.new, [.esc kept final]) := by
  obtain ⟨b, inters, rfl⟩ := List.exists_cons_of_ne_nil hne
  have hesc : Parser.new.step 0x1b = (escaped, []) := by decide
  have hfirst : [b] ≠ [] := List.cons_ne_nil b []
  obtain ⟨kept, hkept, hfeed⟩ := feed_inEscape
    (fun c hc => hinters c (List.mem_cons_of_mem _ hc)) hfinal hfirst false
  refine ⟨kept, hkept, ?_⟩
  rw [List.cons_append, List.cons_append, feed_step rfl rfl hesc,
    feed_step rfl rfl (escaped_inter (hinters b List.mem_cons_self)), hfeed]

end Parser

-- ---------------------------------------------------------------------------
-- The command
-- ---------------------------------------------------------------------------

namespace Screen

variable {s t : Screen} {cols rows : Nat}

/-- Nothing that a program sees of the screen is another. -/
structure Untouched (s t : Screen) : Prop where
  cells : t.cells = s.cells
  cursor : t.captureCursor = s.captureCursor
  modes : t.modeState = s.modeState
  autowrap : t.autowrap = s.autowrap
  scrollTop : t.scrollTop = s.scrollTop
  scrollBottom : t.scrollBottom = s.scrollBottom
  savedCursor : t.savedCursor = s.savedCursor
  scrolledOff : t.scrolledOff = s.scrolledOff

theorem Untouched.refl (s : Screen) : Untouched s s := ⟨rfl, rfl, rfl, rfl, rfl, rfl, rfl, rfl⟩

/-- The region scrolled by a line shows the same rows. -/
def StillRegion (s : Screen) : Prop := ∀ row ∈ s.region, row = s.blankLine

/-- The command that the final byte is without intermediates happens to do nothing; any other final
byte is none. -/
def Inert (s : Screen) (final : UInt8) : Prop :=
  if final = 0x37 then s.savedCursor = some s.captureCursor
  else if final = 0x38 then
    ∀ c, s.savedCursor = some c → clampCursor s.cols s.rows c = s.captureCursor
  else if final = 0x44 then s.pendingWrap = false ∧ s.scrollBottom ≤ s.cursorRow ∧ s.StillRegion ∧
    ¬ (s.inAlt = false ∧ s.scrollTop.toNat = 0)
  else if final = 0x45 then s.pendingWrap = false ∧ s.cursorCol = 0 ∧ s.scrollBottom ≤ s.cursorRow ∧
    s.StillRegion ∧ ¬ (s.inAlt = false ∧ s.scrollTop.toNat = 0)
  else if final = 0x4d then s.pendingWrap = false ∧ s.cursorRow ≤ s.scrollTop ∧ s.StillRegion
  else True

theorem cells_of_rowList (h : Sound True cols rows s) (ht : Sound True cols rows t)
    (hrows : t.rowList = s.rowList) : t.cells = s.cells := by
  refine List.ext_getElem? fun i => ?_
  by_cases hi : i < cols * rows
  · have hr : i / cols < rows := Nat.div_lt_of_lt_mul hi
    have hc : i % cols < cols := Nat.mod_lt _ h.cols_pos
    have hrow : some (t.rowCells (i / cols)) = some (s.rowCells (i / cols)) := by
      rw [← getElem?_rowList h hr, ← getElem?_rowList ht hr, hrows]
    have hcell := congrArg (·[i % cols]?) (Option.some.inj hrow)
    rwa [getElem?_rowCells, getElem?_rowCells, h.cols_eq, ht.cols_eq, if_pos hc, if_pos hc,
      Nat.div_add_mod'] at hcell
  · rw [List.getElem?_eq_none (by rw [ht.length_cells]; omega),
      List.getElem?_eq_none (by rw [h.length_cells]; omega)]

theorem rowList_of_cells (hcells : t.cells = s.cells) (hcols : t.cols = s.cols) (hrows : t.rows = s.rows) :
    t.rowList = s.rowList := by
  rw [rowList, rowList, hrows]
  exact List.map_congr_left fun r _ => rowCells_congr hcells hcols r

theorem scrollUp_untouched_iff (h : Sound True cols rows s) :
    s.scrollUp.cells = s.cells ∧ s.scrollUp.scrolledOff = s.scrolledOff ↔
      s.StillRegion ∧ ¬ (s.inAlt = false ∧ s.scrollTop.toNat = 0) := by
  have hedits := Edits.scrollUp s
  have hrows : s.scrollUp.rows = s.rows := hedits.congr Screen.rows fun _ _ _ _ _ _ _ => rfl
  have hcells : s.scrollUp.cells = s.cells ↔ s.StillRegion := by
    rw [StillRegion, ← rowList_scrollUp_eq_iff h]
    exact ⟨fun heq => rowList_of_cells heq hedits.cols hrows, cells_of_rowList h h.scrollUp⟩
  have hoff : s.scrollUp.scrolledOff = s.scrolledOff ↔ ¬ (s.inAlt = false ∧ s.scrollTop.toNat = 0) := by
    rw [scrolledOff_scrollUp h, List.append_right_eq_self]
    split
    case isTrue hc => exact iff_of_false (List.cons_ne_nil _ _) (not_not_intro hc)
    case isFalse hc => exact iff_of_true rfl hc
  rw [hcells, hoff]

theorem scrollDown_untouched_iff (h : Sound True cols rows s) :
    s.scrollDown.cells = s.cells ↔ s.StillRegion := by
  have hedits := Edits.scrollDown s
  have hrows : s.scrollDown.rows = s.rows := hedits.congr Screen.rows fun _ _ _ _ _ _ _ => rfl
  rw [StillRegion, ← rowList_scrollDown_eq_iff h]
  exact ⟨fun heq => rowList_of_cells heq hedits.cols hrows, cells_of_rowList h h.scrollDown⟩

theorem Untouched.of_edits (h : Edits s t) (hcells : t.cells = s.cells)
    (hoff : t.scrolledOff = s.scrolledOff) : Untouched s t where
  cells := hcells
  cursor := h.congr captureCursor fun _ _ _ _ _ _ _ => rfl
  modes := h.congr modeState fun _ _ _ _ _ _ _ => rfl
  autowrap := h.congr Screen.autowrap fun _ _ _ _ _ _ _ => rfl
  scrollTop := h.scrollTop
  scrollBottom := h.scrollBottom
  savedCursor := h.congr Screen.savedCursor fun _ _ _ _ _ _ _ => rfl
  scrolledOff := hoff

theorem cursorRow_of_untouched (h : Untouched s t) : t.cursorRow = s.cursorRow :=
  congrArg SavedCursor.row h.cursor

theorem index_untouched_iff (h : Sound True cols rows s) :
    Untouched s s.index ↔ s.scrollBottom ≤ s.cursorRow ∧ s.StillRegion ∧
      ¬ (s.inAlt = false ∧ s.scrollTop.toNat = 0) := by
  by_cases hmove : s.cursorRow < s.scrollBottom
  · have hindex : s.index = { s with cursorRow := s.cursorRow + 1 } := if_pos hmove
    refine iff_of_false (fun hkept => ?_) fun hstay => absurd hmove (UInt16.not_lt.mpr hstay.1)
    have hrow := congrArg UInt16.toNat (cursorRow_of_untouched hkept)
    rw [hindex] at hrow
    change (s.cursorRow + 1).toNat = _ at hrow
    rw [toNat_succ16 (UInt16.lt_iff_toNat_lt.mp hmove)] at hrow
    omega
  · have hindex : s.index = s.scrollUp := if_neg hmove
    rw [hindex, and_iff_right (UInt16.not_lt.mp hmove), ← scrollUp_untouched_iff h]
    exact ⟨fun hkept => ⟨hkept.cells, hkept.scrolledOff⟩,
      fun hkept => .of_edits (Edits.scrollUp s) hkept.1 hkept.2⟩

theorem reverseIndex_untouched_iff (h : Sound True cols rows s) :
    Untouched s s.reverseIndex ↔ s.cursorRow ≤ s.scrollTop ∧ s.StillRegion := by
  by_cases hmove : s.cursorRow > s.scrollTop
  · have hindex : s.reverseIndex = { s with cursorRow := s.cursorRow - 1 } := if_pos hmove
    refine iff_of_false (fun hkept => ?_) fun hstay => absurd hmove (UInt16.not_lt.mpr hstay.1)
    have hrow := congrArg UInt16.toNat (cursorRow_of_untouched hkept)
    have hlt := UInt16.lt_iff_toNat_lt.mp hmove
    rw [hindex] at hrow
    change (s.cursorRow - 1).toNat = _ at hrow
    rw [toNat_pred16 hlt] at hrow
    omega
  · have hindex : s.reverseIndex = s.scrollDown := if_neg hmove
    rw [hindex, and_iff_right (UInt16.not_lt.mp hmove), ← scrollDown_untouched_iff h]
    exact ⟨fun hkept => hkept.cells,
      fun hkept => .of_edits (Edits.scrollDown s) hkept (scrolledOff_scrollDown s)⟩

/-- A cursor restored in place is one that was saved there. -/
theorem restoreCursor_untouched_iff (s : Screen) (c : SavedCursor) :
    Untouched s (s.restoreCursor c) ↔ clampCursor s.cols s.rows c = s.captureCursor :=
  ⟨fun h => h.cursor, fun h => ⟨rfl, h, rfl, rfl, rfl, rfl, rfl, rfl⟩⟩

theorem pendingWrap_index (s : Screen) : s.index.pendingWrap = s.pendingWrap := by
  unfold index
  split
  case isTrue => rfl
  case isFalse => exact (Edits.scrollUp s).congr Screen.pendingWrap fun _ _ _ _ _ _ _ => rfl

theorem cursorCol_index (s : Screen) : s.index.cursorCol = s.cursorCol := by
  unfold index
  split
  case isTrue => rfl
  case isFalse => exact (Edits.scrollUp s).congr Screen.cursorCol fun _ _ _ _ _ _ _ => rfl

theorem pendingWrap_reverseIndex (s : Screen) : s.reverseIndex.pendingWrap = s.pendingWrap := by
  unfold reverseIndex
  split
  case isTrue => rfl
  case isFalse => exact (Edits.scrollDown s).congr Screen.pendingWrap fun _ _ _ _ _ _ _ => rfl

theorem clearPendingWrap_of (h : s.pendingWrap = false) : s.clearPendingWrap = s := by
  rw [clearPendingWrap, ← h]

/-- A command that clears the wrap and goes on leaves nothing changed just when there was no wrap
pending and the rest leaves nothing changed. -/
theorem cleared_untouched_iff {f : Screen → Screen}
    (hf : (f s.clearPendingWrap).pendingWrap = false) :
    Untouched s (f s.clearPendingWrap) ↔ s.pendingWrap = false ∧ Untouched s (f s) := by
  constructor
  · intro h
    have hwrap : s.pendingWrap = false := (congrArg SavedCursor.pendingWrap h.cursor).symm.trans hf
    rw [clearPendingWrap_of hwrap] at h
    exact ⟨hwrap, h⟩
  · rintro ⟨hwrap, h⟩
    rwa [clearPendingWrap_of hwrap]

theorem esc_untouched_iff (h : Sound True cols rows s) {intermediates : List UInt8}
    (hne : intermediates ≠ []) (final : UInt8) :
    Untouched s (s.esc intermediates final) ↔ s.Inert final := by
  have hsome : intermediates.isEmpty = false := by
    rw [← Bool.not_eq_true, List.isEmpty_iff]
    exact hne
  unfold esc Inert
  by_cases h7 : final = 0x37
  · rw [if_pos h7, if_pos h7]
    exact ⟨fun hkept => hkept.savedCursor.symm, fun heq => ⟨rfl, rfl, rfl, rfl, rfl, rfl, heq.symm, rfl⟩⟩
  rw [if_neg h7, if_neg h7]
  by_cases h8 : final = 0x38
  · rw [if_pos h8, if_pos h8]
    cases hsaved : s.savedCursor with
    | none => exact iff_of_true (.refl s) nofun
    | some c =>
      refine (restoreCursor_untouched_iff s c).trans ⟨?_, fun hall => hall c rfl⟩
      rintro heq _ ⟨⟩
      exact heq
  rw [if_neg h8, if_neg h8]
  by_cases hD : final = 0x44
  · rw [if_pos hD, if_pos hD, cleared_untouched_iff (f := index) (pendingWrap_index _),
      index_untouched_iff h]
  rw [if_neg hD, if_neg hD]
  by_cases hE : final = 0x45
  · rw [if_pos hE, if_pos hE,
      cleared_untouched_iff (f := fun s => (s.setCursorCol 0).index) (pendingWrap_index _)]
    refine and_congr_right fun _ => ?_
    constructor
    · intro hkept
      have hcol : s.cursorCol = 0 := by
        rw [← show _ = s.cursorCol from congrArg SavedCursor.col hkept.cursor]
        exact cursorCol_index _
      have hsame : s.setCursorCol 0 = s := by rw [setCursorCol, ← hcol]
      rw [hsame] at hkept
      exact ⟨hcol, (index_untouched_iff h).mp hkept⟩
    · rintro ⟨hcol, hrest⟩
      have hsame : s.setCursorCol 0 = s := by rw [setCursorCol, ← hcol]
      rw [hsame]
      exact (index_untouched_iff h).mpr hrest
  rw [if_neg hE, if_neg hE]
  by_cases hM : final = 0x4d
  · rw [if_pos hM, if_pos hM, cleared_untouched_iff (f := reverseIndex) (pendingWrap_reverseIndex _),
      reverseIndex_untouched_iff h]
  rw [if_neg hM, if_neg hM, hsome, Bool.and_false, if_neg Bool.false_ne_true, Bool.and_false,
    if_neg Bool.false_ne_true]
  exact iff_of_true (.refl s) trivial

end Screen

namespace VtEngine

variable {e f : VtEngine}

theorem fed_resyncFromHistory {history bytes : List UInt8}
    (hr : e.resyncFromHistory history = .ok (bytes, f)) : f.parser.Fed := by
  unfold VtEngine.resyncFromHistory at hr
  cases hn : e.reset with
  | error err =>
    rw [hn] at hr
    cases hr
  | ok fresh =>
    rw [hn] at hr
    obtain ⟨-, rfl⟩ := Prod.mk.inj (Except.ok.inj hr)
    have hfresh := parser_new hn
    dsimp only
    split
    case isTrue => exact ⟨[], hfresh.symm⟩
    case isFalse => exact ⟨history, by rw [← hfresh]; rfl⟩

theorem fed_importCheckpoint {blob : List UInt8} {ending : UInt64}
    (hi : e.importCheckpoint blob = .ok (ending, f)) : f.parser.Fed := by
  unfold VtEngine.importCheckpoint at hi
  cases hs : e.screen.importCheckpoint blob with
  | error err =>
    rw [hs] at hi
    cases hi
  | ok r =>
    rw [hs] at hi
    obtain ⟨-, rfl⟩ := Prod.mk.inj (Except.ok.inj hi)
    exact ⟨[], rfl⟩

theorem Hosted.fed (h : Hosted e) : e.parser.Fed := by
  induction h with
  | new hn => exact ⟨[], (parser_new hn).symm⟩
  | feed _ bytes ih =>
    obtain ⟨before, hbefore⟩ := ih
    refine ⟨before ++ bytes, ?_⟩
    rw [Parser.feed_append, hbefore]
    rfl
  | resize _ hr ih =>
    obtain ⟨s, -, rfl⟩ := resize_eq hr
    exact ih
  | reset _ hr => exact ⟨[], (parser_new hr).symm⟩
  | setPalette _ _ ih | snapshot _ ih | takeReplies _ ih | takeScrolledOff _ ih => exact ih
  | resyncFromHistory _ hr => exact fed_resyncFromHistory hr
  | importCheckpoint _ _ _ hi => exact fed_importCheckpoint hi

/-- An escape sequence with intermediates does nothing just when the command that its final byte is
without them happens to. -/
theorem inters_untouched_iff (h : Hosted e) (hidle : e.parser.isIdle) (inters : List UInt8)
    (hne : inters ≠ []) (hinters : ∀ b ∈ inters, isInter b) (final : UInt8)
    (hfinal : between 0x30 0x7e final = true) :
    (e.screen.Untouched (e.feed (0x1b :: inters ++ [final])).screen ∧
      (e.feed (0x1b :: inters ++ [final])).parser.isIdle) ↔ e.screen.Inert final := by
  have hrest := Parser.resting_of_idle h.fed hidle
  obtain ⟨⟨cols, rows, hwhole⟩, -⟩ := h.fits
  obtain ⟨kept, hkept, hfeed⟩ := Parser.feed_escape_inters hne hinters hfinal
  have hrun : e.feed (0x1b :: inters ++ [final]) = ⟨.new, e.screen.esc kept final⟩ := by
    rw [List.cons_append] at hfeed ⊢
    rw [feed, Parser.feed_of_resting hrest, hfeed]
    rfl
  rw [hrun]
  exact (and_iff_left rfl).trans (Screen.esc_untouched_iff hwhole.sound hkept final)

/-- The designation of a character set, on a new screen. -/
theorem inters_untouched_ascii :
    let e := (VtEngine.new 2 1).toOption.get rfl
    e.screen.Untouched (e.feed [0x1b, 0x28, 0x42]).screen := by
  intro e
  have hnew : VtEngine.new 2 1 = .ok e := rfl
  refine ((inters_untouched_iff (.new hnew) rfl [0x28] (List.cons_ne_nil _ _)
    (List.forall_mem_singleton.mpr rfl) 0x42 rfl).mpr ?_).1
  exact trivial

/-- The alignment pattern, `ESC # 8`, takes the cursor back to where it was saved. -/
theorem alignment_restores :
    ∃ e f, Hosted e ∧ e.parser.isIdle ∧ f = e.feed [0x1b, 0x23, 0x38] ∧
      e.screen.cursorCol = 1 ∧ f.screen.cursorCol = 0 ∧ ¬ e.screen.Untouched f.screen := by
  let e := ((VtEngine.new 2 1).toOption.get rfl).feed [0x1b, 0x37, 0x41]
  have hhosted : Hosted e := .feed (.new (show VtEngine.new 2 1 = _ from rfl)) _
  refine ⟨e, _, hhosted, by decide, rfl, by decide, by decide, fun hkept => ?_⟩
  have hcol : (e.feed [0x1b, 0x23, 0x38]).screen.cursorCol = e.screen.cursorCol :=
    congrArg SavedCursor.col hkept.cursor
  revert hcol
  decide

end VtEngine

end Rill.Vt
