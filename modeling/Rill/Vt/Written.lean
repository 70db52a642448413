import Rill.Vt.Draw
import Rill.Vt.Text
import Rill.Vt.Engine

/-!
# What a cell can hold

The parser prints no control character, and cells change in three ways alone: a
glyph is written with the pen, a glyph is widened, a cell is blanked. So what
holds of such cells holds of every cell.
-/

namespace Rill.Vt

open Lib

-- ---------------------------------------------------------------------------
-- Printed scalars
-- ---------------------------------------------------------------------------

theorem printable_replacement : Printable replacement.val := by decide

/-- The scalar printed, where one is. -/
def Action.Clean : Action → Prop
  | .print c => Printable c.val
  | _ => True

namespace Parser

/-- Only printable scalars are printed. -/
def Clean (x : Parser × List Action) : Prop := ∀ a ∈ x.2, a.Clean

namespace Clean

theorem nil (p : Parser) : Clean (p, []) := nofun

theorem one {p : Parser} {a : Action} (h : a.Clean) : Clean (p, [a]) := fun b hb => by
  rwa [List.mem_singleton.mp hb]

theorem ite {c : Prop} [Decidable c] {x y : Parser × List Action} (hx : c → Clean x)
    (hy : ¬ c → Clean y) : Clean (if c then x else y) := by
  split
  case isTrue hc => exact hx hc
  case isFalse hc => exact hy hc

end Clean

theorem clean_abortUtf8 (p : Parser) : Clean p.abortUtf8 :=
  .ite (fun _ => .one printable_replacement) fun _ => .nil _

/-- A scalar of two bytes or more is past the control characters. -/
theorem printable_decodeUtf8 {bytes : List UInt8} {c : Char} (h : decodeUtf8 bytes = some c) :
    Printable c.val := by
  have hscalar : ∀ {least n : Nat}, 0x80 ≤ least →
      (if least ≤ n ∧ n.isValidChar then some (Char.ofNat n) else none) = some c →
      Printable c.val := by
    intro least n hleast hc
    split at hc
    case isFalse => exact nomatch hc
    case isTrue hn =>
      have hc : Char.ofNat n = c := Option.some.inj hc
      have hval : c.val.toNat = n := by
        rw [← hc, Char.ofNat, dif_pos hn.2]
        rfl
      refine ⟨c.valid, ?_, fun k => ?_⟩
      · rw [UInt32.le_iff_toNat_le, hval]
        have hlo : (0x20 : UInt32).toNat = 0x20 := rfl
        omega
      · have hne : (0x7f : UInt32).toNat = 0x7f := rfl
        rw [k] at hval
        omega
  unfold decodeUtf8 at h
  split at h
  · exact hscalar (by decide) h
  · exact hscalar (by decide) h
  · exact hscalar (by decide) h
  · exact nomatch h

theorem printable_ascii : ∀ n < 256, between 0x20 0x7e (UInt8.ofNat n) = true →
    Printable (charFrom (UInt8.ofNat n)).val := by
  decide +kernel

theorem clean_ground (p : Parser) (b : UInt8) : Clean (p.ground b) := by
  have hascii := printable_ascii b.toNat b.toNat_lt
  rw [UInt8.ofNat_toNat] at hascii
  refine .ite (fun _ => ?_) fun _ => ?_
  · refine .ite (fun _ => .ite (fun _ => .one ?_) fun _ => .nil _) fun _ => clean_abortUtf8 p
    change Printable ((decodeUtf8 _).getD replacement).val
    cases h : decodeUtf8 _ with
    | none => exact printable_replacement
    | some c => exact printable_decodeUtf8 h
  · refine .ite (fun _ => .one trivial) fun _ => .ite (fun _ => .one trivial) fun _ => ?_
    refine .ite (fun _ => .nil _) fun _ => .ite (fun h => .one (hascii h)) fun _ => ?_
    refine .ite (fun _ => .nil _) fun _ => .ite (fun _ => .one printable_replacement) fun _ => ?_
    refine .ite (fun _ => .nil _) fun _ => .ite (fun _ => .nil _) fun _ => ?_
    exact .ite (fun _ => .nil _) fun _ => .one printable_replacement

theorem clean_dispatch (p : Parser) (b : UInt8) : Clean (p.dispatch b) := by
  unfold dispatch
  split
  · exact clean_ground p b
  all_goals
    simp only [escape, escapeIntermediate, csiEntry, csiParam, csiIntermediate, csiIgnore, oscString,
      oscEscape, dcsPassthrough, dcsEscape, sos, sosEscape, stringEscape, dispatchCsi]
    repeat' refine Clean.ite (fun _ => ?_) fun _ => ?_
    all_goals first | exact .nil _ | exact .one trivial

theorem Clean.append {x y : Parser × List Action} {p : Parser} (hx : Clean x) (hy : Clean y) :
    Clean (p, x.2 ++ y.2) := fun a ha =>
  (List.mem_append.mp ha).elim (hx a) (hy a)

theorem clean_step (p : Parser) (b : UInt8) : Clean (p.step b) := by
  have habort : Clean (if p.state ≠ .ground then p.abortUtf8 else (p, [])) :=
    .ite (fun _ => clean_abortUtf8 p) fun _ => .nil _
  exact habort.append (clean_dispatch _ b)

theorem clean_settle (n : Nat) (p : Parser) : Clean (p.settle n) := by
  induction n generalizing p with
  | zero => exact .nil p
  | succ n ih =>
    unfold settle
    cases p.putback with
    | none => exact .nil p
    | some b => exact (clean_step { p with putback := none } b).append (ih _)

theorem clean_feed (p : Parser) (bytes : List UInt8) : Clean (p.feed bytes) := by
  induction bytes generalizing p with
  | nil => exact clean_settle 2 p
  | cons b bytes ih =>
    have h := (clean_settle 2 p).append (p := p) (clean_step (p.settle 2).1 b)
    exact h.append (ih _)

end Parser

-- ---------------------------------------------------------------------------
-- Cells
-- ---------------------------------------------------------------------------

/-- A cell as it is blanked, printed or widened. -/
structure Written (c : Cell) : Prop where
  printable : Printable c.codepoint
  attrs : (c.attrs = c.attrs &&& sgrMask ∧ isWide c.codepoint = false) ∨
    c.attrs = (c.attrs &&& sgrMask) ||| attrWideLead ∨
    c.attrs = (c.attrs &&& sgrMask) ||| attrWideTail

theorem sgr_and_sgr (a : UInt16) : (a &&& sgrMask) &&& sgrMask = a &&& sgrMask := by
  rw [UInt16.and_assoc, UInt16.and_self]

theorem written_narrow {cp : UInt32} (h : Printable cp) (hw : isWide cp = false) (fg bg : Color)
    (a : UInt16) : Written ⟨cp, fg, bg, a &&& sgrMask⟩ :=
  ⟨h, .inl ⟨(sgr_and_sgr a).symm, hw⟩⟩

theorem written_half {cp : UInt32} (h : Printable cp) (fg bg : Color) (a : UInt16) {half : UInt16}
    (hhalf : half = attrWideLead ∨ half = attrWideTail) :
    Written ⟨cp, fg, bg, (a &&& sgrMask) ||| half⟩ := by
  have hsgr : ((a &&& sgrMask) ||| half) &&& sgrMask = a &&& sgrMask := by
    rw [or_and16, sgr_and_sgr]
    obtain rfl | rfl := hhalf
    all_goals exact UInt16.or_zero
  refine ⟨h, .inr ?_⟩
  dsimp only
  rw [hsgr]
  exact hhalf.imp (fun k => by rw [k]) fun k => by rw [k]

theorem written_blank (bg : Color) : Written (Cell.blank bg) :=
  ⟨(by decide : Printable 32), .inl ⟨UInt16.zero_and.symm, (by decide : isWide 32 = false)⟩⟩

/-- A written cell made half of a wide glyph. -/
theorem Written.half {c : Cell} (h : Written c) {half : UInt16}
    (hhalf : half = attrWideLead ∨ half = attrWideTail) :
    Written { c with attrs := (c.attrs &&& sgrMask) ||| half } :=
  written_half h.printable c.fg c.bg c.attrs hhalf

/-- Every cell of the active grid is written. -/
def Inked (s : Screen) : Prop := ∀ c ∈ s.cells, Written c

namespace Inked

variable {s t : Screen}

theorem of_cells (h : Inked s) (hcells : t.cells = s.cells) : Inked t := fun c hc =>
  h c (hcells ▸ hc)

theorem ite {c : Prop} [Decidable c] (hs : c → Inked s) (ht : ¬ c → Inked t) :
    Inked (if c then s else t) := by
  split
  case isTrue hc => exact hs hc
  case isFalse hc => exact ht hc

theorem foldl {f : Screen → α → Screen} (hf : ∀ s a, Inked s → Inked (f s a)) (l : List α)
    (h : Inked s) : Inked (l.foldl f s) :=
  List.foldlRecOn l f h fun s hs a _ => hf s a hs

theorem iterate {f : Screen → Screen} (hf : ∀ s, Inked s → Inked (f s)) (h : Inked s) (n : Nat) :
    Inked (n.repeat f s) :=
  repeat_keeps hf h n

theorem touch (h : Inked s) (i : Nat) : Inked (s.touch i) := h

theorem clearPendingWrap (h : Inked s) : Inked s.clearPendingWrap := h

theorem setCursorCol (h : Inked s) (col : UInt16) : Inked (s.setCursorCol col) := h

theorem setOpenCluster (h : Inked s) (cluster : Option OpenCluster) :
    Inked (s.setOpenCluster cluster) := h

theorem cellAt (h : Inked s) (i : Nat) : Written (s.cellAt i) := by
  unfold Screen.cellAt
  rw [List.getD_eq_getElem?_getD]
  cases hi : s.cells[i]? with
  | none => exact written_blank _
  | some c => exact h c (List.mem_of_getElem? hi)

theorem setCell (h : Inked s) (i : Nat) {c : Cell} (hc : Written c) : Inked (s.setCell i c) :=
  fun d hd => (List.mem_or_eq_of_mem_set hd).elim (h d) fun k => k ▸ hc

theorem blankCells (h : Inked s) (lo hi : Nat) : Inked (s.blankCells lo hi) := by
  intro d hd
  obtain ⟨i, hi, rfl⟩ := List.mem_mapIdx.mp hd
  split
  · exact written_blank _
  · exact h _ (List.getElem_mem hi)

theorem copyWithin (h : Inked s) (lo hi dst : Nat) : Inked (s.copyWithin lo hi dst) := by
  intro d hd
  obtain ⟨i, hi, rfl⟩ := List.mem_mapIdx.mp hd
  split
  · exact h.cellAt _
  · exact h _ (List.getElem_mem hi)

theorem copyRows (h : Inked s) (moves : List (Nat × Nat)) : Inked (s.copyRows moves) :=
  foldl (fun _ _ h => h.copyWithin _ _ _) moves h

theorem blankRows (h : Inked s) (first n : Nat) : Inked (s.blankRows first n) :=
  foldl (fun _ _ h => h.blankCells _ _) _ h

theorem dirty (h : Inked s) (row : UInt16) : Inked (s.dirty row) :=
  ite (fun _ => h) fun _ => ite (fun _ => h) fun _ => h

theorem dirtyRows (h : Inked s) (first last : Nat) : Inked (s.dirtyRows first last) :=
  foldl (fun _ _ h => h.dirty _) _ h

-- ---------------------------------------------------------------------------
-- Scrolling
-- ---------------------------------------------------------------------------

theorem retireRow (h : Inked s) (row : Nat) : Inked (s.retireRow row) := ite (fun _ => h) fun _ => h

theorem scrollUp (h : Inked s) : Inked s.scrollUp := ((h.retireRow _).copyRows _).blankCells _ _

theorem scrollDown (h : Inked s) : Inked s.scrollDown := (h.copyRows _).blankCells _ _

theorem index (h : Inked s) : Inked s.index := ite (fun _ => h) fun _ => h.scrollUp

theorem reverseIndex (h : Inked s) : Inked s.reverseIndex := ite (fun _ => h) fun _ => h.scrollDown

-- ---------------------------------------------------------------------------
-- Printing
-- ---------------------------------------------------------------------------

theorem wrapIfNeededWidth (h : Inked s) (width : UInt16) : Inked (s.wrapIfNeededWidth width) :=
  ite (fun _ => h) fun _ => ite (fun _ => h) fun _ =>
    (h.clearPendingWrap.setCursorCol 0).index

theorem smashHalf (h : Inked s) (found : Bool) (other : Nat) (attr : UInt16) :
    Inked (s.smashHalf found other attr) :=
  ite (fun _ => ite (fun _ => (h.touch _).setCell _ (written_blank _)) fun _ => h.touch _) fun _ => h

theorem smashWideAt (h : Inked s) (col row : UInt16) : Inked (s.smashWideAt col row) :=
  ite (fun _ => h) fun _ => ((h.touch _).smashHalf _ _ _).smashHalf _ _ _

theorem advanceAfterWidth (h : Inked s) (width : UInt16) : Inked (s.advanceAfterWidth width) :=
  ite (fun _ => h) fun _ => h

theorem widenCluster (h : Inked s) (cl : OpenCluster) (tailCol : UInt16) :
    Inked (s.widenCluster cl tailCol) := by
  have hs := h.smashWideAt tailCol cl.row
  have hcell := hs.cellAt ((s.smashWideAt tailCol cl.row).idx cl.col cl.row)
  have hlead := hs.setCell ((s.smashWideAt tailCol cl.row).idx cl.col cl.row) (hcell.half (.inl rfl))
  exact ((hlead.setCell _ (hcell.half (.inr rfl))).setOpenCluster _).dirty _

theorem maybeExpandRiPair (h : Inked s) : Inked s.maybeExpandRiPair := by
  unfold Screen.maybeExpandRiPair
  cases s.openCluster with
  | none => exact h
  | some cl =>
    have hw := h.widenCluster cl (satAdd16 cl.col 1)
    refine ite (fun _ => h) fun _ => ite (fun _ => h) fun _ => ite (fun _ => ?_) fun _ => hw
    exact (hw.setCursorCol _).advanceAfterWidth 1

theorem paintGlyph (h : Inked s) {c : Char} (hc : Printable c.val) (col row : UInt16) :
    Inked (s.paintGlyph c col row (Screen.clusterWidth c)) := by
  have hlead := h.smashWideAt col row
  have htail := ite (c := Screen.clusterWidth c = 2) (fun _ => hlead.smashWideAt (col + 1) row)
    fun _ => hlead
  refine ite (fun hw => ?_) fun hw => ?_
  · refine (htail.setCell _ ?_).setCell _ (written_half hc _ _ _ (.inr rfl))
    exact written_half hc _ _ _ (.inl (if_pos hw))
  · refine htail.setCell _ ?_
    have hnarrow : isWide c.val = false := by
      unfold Screen.clusterWidth at hw
      cases hwide : isWide c.val with
      | false => rfl
      | true => exact absurd (if_pos hwide) hw
    have hattrs : ((s.penAttrs &&& sgrMask) ||| if Screen.clusterWidth c = 2 then attrWideLead else 0) =
        s.penAttrs &&& sgrMask := by
      rw [if_neg hw, UInt16.or_zero]
    rw [hattrs]
    exact written_narrow hc hnarrow _ _ _

theorem printBase (h : Inked s) {c : Char} (hc : Printable c.val) : Inked (s.printBase c) := by
  have hw := h.wrapIfNeededWidth (Screen.clusterWidth c)
  refine ite (fun _ => hw) fun _ => ?_
  exact (((hw.paintGlyph hc _ _).setOpenCluster _).dirty _).advanceAfterWidth _

theorem writeChar (h : Inked s) {c : Char} (hc : Printable c.val) : Inked (s.writeChar c) := by
  unfold Screen.writeChar Screen.appendToCluster
  cases s.shouldAppend c with
  | false => exact h.printBase hc
  | true =>
    cases s.openCluster with
    | none => exact h.printBase hc
    | some cl =>
      have hcount : Inked (s.countTruncated cl.len) := ite (fun _ => h) fun _ => h
      have happ := fun cluster => (hcount.dirty cl.row).setOpenCluster cluster
      exact ite (fun _ => (happ _).maybeExpandRiPair) fun _ => happ _

-- ---------------------------------------------------------------------------
-- Erasing and editing
-- ---------------------------------------------------------------------------

theorem eraseSpan (h : Inked s) (start stop : Nat) : Inked (s.eraseSpan start stop) := by
  have hs := (foldl (fun _ _ h => h.smashWideAt _ _) _ h : Inked (s.smashSpan
    (min start (min stop s.cells.length)) (min stop s.cells.length)))
  exact ite (fun _ => (hs.blankCells _ _).dirtyRows _ _) fun _ => hs.blankCells _ _

theorem eraseDisplay (h : Inked s) (mode : UInt16) : Inked (s.eraseDisplay mode) :=
  ite (fun _ => h.eraseSpan _ _) fun _ => ite (fun _ => h.eraseSpan _ _) fun _ => h.eraseSpan _ _

theorem eraseLine (h : Inked s) (mode : UInt16) : Inked (s.eraseLine mode) :=
  ite (fun _ => h.eraseSpan _ _) fun _ => ite (fun _ => h.eraseSpan _ _) fun _ => h.eraseSpan _ _

theorem insertLines (h : Inked s) (n : UInt16) : Inked (s.insertLines n) := by
  unfold Screen.insertLines
  cases s.lineCount n with
  | none => exact h
  | some n => exact ((h.copyRows _).blankRows _ _).dirtyRows _ _

theorem deleteLines (h : Inked s) (n : UInt16) : Inked (s.deleteLines n) := by
  unfold Screen.deleteLines
  cases s.lineCount n with
  | none => exact h
  | some n => exact ((h.copyRows _).blankRows _ _).dirtyRows _ _

theorem insertCells (h : Inked s) (n : UInt16) : Inked (s.insertCells n) :=
  ite (fun _ => h) fun _ =>
    ((ite (fun _ => h.copyWithin _ _ _) fun _ => h).blankCells _ _).dirty _

theorem deleteCells (h : Inked s) (n : UInt16) : Inked (s.deleteCells n) := by
  refine ite (fun _ => h) fun _ => (blankCells (ite (fun _ => ?_) fun _ => ?_) _ _).dirty _
  · exact (foldl (fun _ _ h => h.smashWideAt _ _) _ h).copyWithin _ _ _
  · exact foldl (fun _ _ h => h.smashWideAt _ _) _ h

theorem execute (h : Inked s) (byte : UInt8) : Inked (s.execute byte) := by
  refine ite (fun _ => ite (fun _ => h) fun _ => h) fun _ => ite (fun _ => h) fun _ => ?_
  refine ite (fun _ => (h.clearPendingWrap.setOpenCluster none).index) fun _ => ?_
  exact ite (fun _ => h) fun _ => h

end Inked

-- ---------------------------------------------------------------------------
-- Both grids
-- ---------------------------------------------------------------------------

structure Stored (s : Screen) : Prop where
  cells : Inked s
  saved : ∀ grid, s.savedGrid = some grid → ∀ c ∈ grid, Written c

namespace Stored

variable {s t : Screen}

theorem ite {c : Prop} [Decidable c] (hs : c → Stored s) (ht : ¬ c → Stored t) :
    Stored (if c then s else t) := by
  split
  case isTrue hc => exact hs hc
  case isFalse hc => exact ht hc

theorem of_same (h : Stored s) (hcells : t.cells = s.cells) (hsaved : t.savedGrid = s.savedGrid) :
    Stored t := ⟨h.cells.of_cells hcells, fun grid hg => h.saved grid (hsaved ▸ hg)⟩

theorem draws (h : Stored s) (hcells : Inked t) (hd : Screen.Draws s t) : Stored t :=
  ⟨hcells, fun grid hg => h.saved grid (hd.congr Screen.savedGrid (fun _ _ => rfl) ▸ hg)⟩

theorem enterAlt (h : Stored s) (saveCursor clear : Bool) : Stored (s.enterAlt saveCursor clear) := by
  have hsave : Stored (if !s.inAlt then s.saveGrid saveCursor else s) :=
    ite (fun _ => ⟨h.cells, by rintro _ ⟨⟩; exact h.cells⟩) fun _ => h
  have hblank : Inked (if !s.inAlt then s.saveGrid saveCursor else s).clearGrid := fun c hc => by
    rw [List.eq_of_mem_replicate hc]
    exact written_blank _
  have hclear : Stored (if clear then (if !s.inAlt then s.saveGrid saveCursor else s).clearGrid
      else (if !s.inAlt then s.saveGrid saveCursor else s)) :=
    ite (fun _ => ⟨hblank, hsave.saved⟩) fun _ => hsave
  exact hclear.of_same rfl rfl

theorem leaveAlt (h : Stored s) (restoreCursor : Bool) : Stored (s.leaveAlt restoreCursor) := by
  refine ite (fun _ => h) fun _ => ?_
  have hgrid : Stored s.restoreGrid := by
    unfold Screen.restoreGrid
    split
    case h_1 grid hg => exact ⟨h.saved grid hg, nofun⟩
    case h_2 => exact h
  have htake : Stored (s.restoreGrid.takeAltCursor restoreCursor) := by
    unfold Screen.takeAltCursor
    split <;> exact hgrid.of_same rfl rfl
  exact htake.of_same rfl rfl

theorem privateModeOne (h : Stored s) (set : Bool) (p : UInt16) : Stored (s.privateModeOne set p) := by
  have halt : ∀ a b, Stored (if set then s.enterAlt a true else s.leaveAlt b) :=
    fun _ _ => ite (fun _ => h.enterAlt _ _) fun _ => h.leaveAlt _
  have hflag : ∀ {t : Screen}, t.cells = s.cells → t.savedGrid = s.savedGrid → Stored t := h.of_same
  refine ite (fun _ => hflag rfl rfl) fun _ => ite (fun _ => hflag rfl rfl) fun _ => ?_
  refine ite (fun _ => hflag rfl rfl) fun _ => ite (fun _ => hflag rfl rfl) fun _ => ?_
  refine ite (fun _ => hflag rfl rfl) fun _ => ite (fun _ => hflag rfl rfl) fun _ => ?_
  refine ite (fun _ => hflag rfl rfl) fun _ => ite (fun _ => hflag rfl rfl) fun _ => ?_
  refine ite (fun _ => hflag rfl rfl) fun _ => ite (fun _ => halt false false) fun _ => ?_
  exact ite (fun _ => halt true true) fun _ => h

theorem privateMode (h : Stored s) (params : List UInt16) (set : Bool) :
    Stored (s.privateMode params set) := by
  unfold Screen.privateMode
  induction params generalizing s with
  | nil => exact h
  | cons p params ih => exact ih (h.privateModeOne set p)

theorem enqueueReply (h : Stored s) (bytes : List UInt8) : Stored (s.enqueueReply bytes) :=
  ite (fun _ => h.of_same rfl rfl) fun _ => ite (fun _ => h.of_same rfl rfl) fun _ => h.of_same rfl rfl

theorem csiDispatch (h : Stored s) (params : List UInt16) (action : Char) :
    Stored (s.csiDispatch params action) := by
  have hd := Screen.Draws.refl s
  have hc := h.cells
  unfold Screen.csiDispatch
  dsimp only
  split
  case h_1 | h_2 | h_3 | h_4 | h_5 | h_6 | h_7 | h_8 | h_9 | h_10 => exact h.of_same rfl rfl
  case h_11 => exact h.draws (hc.eraseDisplay _) (hd.eraseDisplay _)
  case h_12 => exact h.draws (hc.eraseLine _) (hd.eraseLine _)
  case h_13 => exact h.draws (hc.eraseSpan _ _) (hd.eraseSpan _ _)
  case h_14 => exact h.draws (hc.insertLines _) (hd.insertLines _)
  case h_15 => exact h.draws (hc.deleteLines _) (hd.deleteLines _)
  case h_16 => exact h.draws (hc.insertCells _) (hd.insertCells _)
  case h_17 => exact h.draws (hc.deleteCells _) (hd.deleteCells _)
  case h_18 =>
    unfold Screen.setScrollRegion
    dsimp only
    exact ite (fun _ => h) fun _ => h.of_same rfl rfl
  case h_19 =>
    exact h.draws (hc.iterate (fun _ h => h.scrollUp) _) (hd.iterate (fun _ h => h.scrollUp) _)
  case h_20 =>
    exact h.draws (hc.iterate (fun _ h => h.scrollDown) _) (hd.iterate (fun _ h => h.scrollDown) _)
  case h_21 =>
    have hp := Screen.Pens.sgrLoop s (if params.isEmpty then [0] else params)
    exact h.of_same (congrArg Screen.cells hp).symm (congrArg Screen.savedGrid hp).symm
  case h_22 => exact ite (fun _ => h.enqueueReply _) fun _ => h
  case h_23 =>
    exact ite (fun _ => h.enqueueReply _) fun _ => ite (fun _ => h.enqueueReply _) fun _ => h
  case h_24 => exact h

theorem csi (h : Stored s) (params : List UInt16) (intermediates : List UInt8) (ignore : Bool)
    (action : Char) : Stored (s.csi params intermediates ignore action) :=
  ite (fun _ => h) fun _ => ite (fun _ => h.privateMode params _) fun _ =>
    ite (fun _ => h.enqueueReply _) fun _ => ite (fun _ => h) fun _ => h.csiDispatch _ _

theorem esc (h : Stored s) (intermediates : List UInt8) (byte : UInt8) :
    Stored (s.esc intermediates byte) := by
  have hd := (Screen.Draws.refl s).clearPendingWrap
  have hc := h.cells.clearPendingWrap
  refine ite (fun _ => h.of_same rfl rfl) fun _ => ite (fun _ => ?_) fun _ => ?_
  · cases s.savedCursor with
    | none => exact h
    | some c => exact h.of_same rfl rfl
  refine ite (fun _ => h.draws hc.index hd.index) fun _ => ite (fun _ => ?_) fun _ => ?_
  · exact h.draws (hc.setCursorCol 0).index (hd.setCursorCol 0).index
  refine ite (fun _ => h.draws hc.reverseIndex hd.reverseIndex) fun _ => ?_
  exact ite (fun _ => h.of_same rfl rfl) fun _ => ite (fun _ => h.of_same rfl rfl) fun _ => h

theorem act (h : Stored s) {a : Action} (ha : a.Clean) : Stored (s.act a) := by
  have hd := Screen.Draws.refl s
  cases a with
  | print c => exact h.draws (h.cells.writeChar ha) (hd.writeChar c)
  | execute b => exact h.draws (h.cells.execute b) (hd.execute b)
  | csi params intermediates ignore action => exact h.csi params intermediates ignore action
  | esc intermediates b => exact h.esc intermediates b
  | osc payload => exact h

theorem acts (h : Stored s) {l : List Action} (hl : ∀ a ∈ l, a.Clean) :
    Stored (l.foldl Screen.act s) := by
  induction l generalizing s with
  | nil => exact h
  | cons a l ih =>
    exact ih (h.act (hl a List.mem_cons_self)) fun b hb => hl b (List.mem_cons_of_mem a hb)

end Stored

theorem stored_new {cols rows : UInt16} {s : Screen} (h : Screen.new cols rows = .ok s) : Stored s := by
  unfold Screen.new at h
  split at h
  case isTrue => exact nomatch h
  case isFalse =>
    cases h
    refine ⟨fun c hc => ?_, nofun⟩
    rw [List.eq_of_mem_replicate hc]
    exact written_blank _

theorem VtEngine.stored_feed {e : VtEngine} (h : Stored e.screen) (bytes : List UInt8) :
    Stored (e.feed bytes).screen := h.acts (Parser.clean_feed e.parser bytes)

end Rill.Vt
