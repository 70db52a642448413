import Rill.Vt.Replace
import Rill.Vt.Rows
import Rill.Vt.Spans
import Rill.Vt.Typeset
import Rill.Vt.Utf8

/-!
# Scrollback

Lines of narrow text on a new screen: the rows that scrolled off and the rows of
the grid are the lines cut at the width of the grid, whatever the host takes and
when.
-/

namespace Rill.Vt

open Lib

-- ---------------------------------------------------------------------------
-- The layout
-- ---------------------------------------------------------------------------

/-- A line cut into rows of `cols` entries. An empty line is one row, and a full row
is followed by another only when there is more. -/
def wrapRows {α : Type} (cols : Nat) (line : List α) : List (List α) :=
  if line.length ≤ cols ∨ cols = 0 then [line]
  else line.take cols :: wrapRows cols (line.drop cols)
termination_by line.length
decreasing_by
  rw [List.length_drop]
  omega

/-- A character printed with the pen of a new screen. -/
def Cell.plain (c : Char) : Cell := ⟨c.val, .default, .default, 0⟩

def plainRow (cols : Nat) (row : List Char) : List Cell := padded cols (row.map Cell.plain)

def layout (cols : Nat) (lines : List (List Char)) : List (List Cell) :=
  (lines.flatMap (wrapRows cols)).map (plainRow cols)

/-- The rows of a grid that shows these at its top, or more when there are more. -/
def filled (cols rows : Nat) (shown : List (List Cell)) : List (List Cell) :=
  shown ++ List.replicate (rows - shown.length) (plainRow cols [])

def lineBytes (lines : List (List Char)) : List UInt8 :=
  [0x0d, 0x0a].intercalate (lines.map fun line => line.flatMap String.utf8EncodeChar)

structure Plain (c : Char) : Prop where
  printable : 0x20 ≤ c.val.toNat ∧ c.val.toNat ≠ 0x7f
  narrow : isWide c.val = false
  continuer : isClusterContinuer c = false
  indicator : isRegionalIndicator c = false

variable {α : Type} {cols rows : Nat}

theorem wrapRows_of_le {line : List α} (h : line.length ≤ cols) : wrapRows cols line = [line] := by
  rw [wrapRows, if_pos (.inl h)]

theorem wrapRows_full {cur line : List α} {c : α} (hcols : 0 < cols) (hcur : cur.length = cols) :
    wrapRows cols (cur ++ c :: line) = cur :: wrapRows cols (c :: line) := by
  have hlong : ¬ ((cur ++ c :: line).length ≤ cols ∨ cols = 0) := by
    rw [List.length_append, List.length_cons]
    omega
  rw [wrapRows, if_neg hlong, List.take_left' hcur, List.drop_left' hcur]

/-- The rows done and the row being typed, after one more character. -/
def typeOne (cols : Nat) (rows : List (List α) × List α) (c : α) : List (List α) × List α :=
  if rows.2.length < cols then (rows.1, rows.2 ++ [c]) else (rows.1 ++ [rows.2], [c])

theorem foldl_typeOne (hcols : 0 < cols) (line : List α) (done : List (List α)) {cur : List α}
    (hcur : cur.length ≤ cols) :
    (line.foldl (typeOne cols) (done, cur)).1 ++ [(line.foldl (typeOne cols) (done, cur)).2] =
      done ++ wrapRows cols (cur ++ line) := by
  induction line generalizing done cur with
  | nil => rw [List.append_nil, wrapRows_of_le hcur]; rfl
  | cons c line ih =>
    rw [List.foldl_cons, typeOne]
    by_cases hlt : cur.length < cols
    · have hnext : (cur ++ [c]).length ≤ cols := by
        rw [List.length_append]
        exact hlt
      rw [if_pos hlt, ih done hnext, List.append_assoc, List.singleton_append]
    · rw [if_neg hlt, ih _ (show [c].length ≤ cols from hcols), wrapRows_full hcols (by omega),
        List.append_assoc]
      rfl

-- ---------------------------------------------------------------------------
-- The screen
-- ---------------------------------------------------------------------------

/-- The rows `done` and then `cur` have been typed on a new screen, and are what has
scrolled off and what the grid shows. -/
structure Laid (cols rows : Nat) (done : List (List Char)) (cur : List Char) (s : Screen) : Prop where
  sound : Sound True cols rows s
  autowrap : s.autowrap = true
  inAlt : s.inAlt = false
  top : s.scrollTop = 0
  bottom : s.scrollBottom.toNat + 1 = rows
  pen : s.pen = ⟨.default, .default, 0⟩
  picture : s.scrolledOff ++ s.rowList = (done ++ [cur]).map (plainRow cols) ++
    List.replicate (rows - 1 - s.cursorRow.toNat) (plainRow cols [])
  row : done.length = s.scrolledOff.length + s.cursorRow.toNat
  bottomed : s.scrolledOff = [] ∨ s.cursorRow.toNat + 1 = rows
  fits : cur.length ≤ cols
  pending : s.pendingWrap = true → cur.length = cols
  column : s.pendingWrap = false → s.cursorCol.toNat = cur.length
  cluster : ∀ c, Plain c → s.shouldAppend c = false

namespace Laid

open Screen

variable {done : List (List Char)} {cur : List Char} {s t : Screen}

theorem rowCells_cursor (h : Laid cols rows done cur s) :
    s.rowCells s.cursorRow.toNat = plainRow cols cur := by
  have hrow := h.row
  have hgrid := getElem?_rowList h.sound h.sound.cursorRow_lt
  have hpicture := congrArg (fun l => l[done.length]?) h.picture
  rw [List.getElem?_append_right (by omega), show done.length - s.scrolledOff.length = s.cursorRow.toNat by
    omega, hgrid, List.map_append, List.append_assoc, List.getElem?_append_right (by simp),
    List.length_map, Nat.sub_self] at hpicture
  exact Option.some.inj hpicture

/-- Past what has been typed the row is blank. -/
theorem cellAt_cursor (h : Laid cols rows done cur s) (hpending : s.pendingWrap = false) :
    s.cellAt (s.idx s.cursorCol s.cursorRow) = Cell.blank .default := by
  have hcol := h.column hpending
  have hlt := h.sound.cursorCol_lt
  have hcell := getElem?_rowCells_lt h.sound hlt s.cursorRow.toNat
  rw [h.rowCells_cursor, plainRow, padded, List.getElem?_append_right (by rw [List.length_map]; omega),
    List.getElem?_replicate_of_lt (by rw [List.length_map]; omega)] at hcell
  rw [cellAt, List.getD_eq_getElem?_getD, idx, h.sound.cols_eq, ← hcell]
  rfl

/-- The whole grid up by one row, the first of them among those that scrolled off. -/
theorem scrollUp_all (ht : Sound True cols rows t) (halt : t.inAlt = false) (htop : t.scrollTop = 0)
    (hbottom : t.scrollBottom.toNat + 1 = rows) :
    t.scrollUp.scrolledOff ++ t.scrollUp.rowList = t.scrolledOff ++ t.rowList ++ [t.blankLine] ∧
      t.scrollUp.scrolledOff.length = t.scrolledOff.length + 1 := by
  have hrows := ht.rows_pos
  have hlen := length_rowList ht
  have hzero : t.scrollTop.toNat = 0 := by
    rw [htop]
    rfl
  have hoff := scrolledOff_scrollUp ht
  rw [if_pos ⟨halt, hzero⟩] at hoff
  have hlist := rowList_scrollUp ht
  rw [hzero, hbottom, Nat.sub_zero, ← hlen, onSegment_all, shiftLeft, Nat.min_eq_left (by omega),
    List.replicate_one] at hlist
  have hsplit : t.rowList = t.rowCells 0 :: t.rowList.drop 1 := by
    have hfirst := getElem?_rowList ht hrows
    rw [← List.head?_eq_getElem?] at hfirst
    exact (List.head?_eq_some_iff.mp hfirst).elim fun rest hrest => by rw [hrest]; rfl
  refine ⟨?_, by rw [hoff, List.length_append, List.length_singleton]⟩
  rw [hoff, hlist, List.append_assoc, List.singleton_append, ← List.cons_append, ← hsplit,
    List.append_assoc]

/-- The cursor goes to the start of the next row, and the grid scrolls when there is none. -/
theorem nextRow (h : Laid cols rows done cur s) {o : Option OpenCluster}
    (ht : t = { s with pendingWrap := false, cursorCol := 0, openCluster := o })
    (ho : ∀ cl, o = some cl → cl.col.toNat < cols ∧ cl.row.toNat < rows)
    (hcluster : ∀ c, Plain c → t.shouldAppend c = false) :
    Laid cols rows (done ++ [cur]) [] t.index := by
  have hsound : Sound True cols rows t := by
    rw [ht]
    exact { h.sound with
      cursorCol_lt := h.sound.cols_pos
      cluster_lt := fun _ => ho }
  have hbottom := h.bottom
  have hrow := h.row
  have hlt := h.sound.cursorRow_lt
  have hsnoc : ((done ++ [cur]) ++ [[]]).map (plainRow cols) =
      (done ++ [cur]).map (plainRow cols) ++ [plainRow cols []] := List.map_append
  by_cases hend : s.cursorRow < s.scrollBottom
  · have hcursor := UInt16.lt_iff_toNat_lt.mp hend
    have hnext : (s.cursorRow + 1).toNat = s.cursorRow.toNat + 1 := toNat_succ16 hcursor
    have hindex : t.index = { t with cursorRow := s.cursorRow + 1 } := by
      rw [ht]
      exact if_pos hend
    have hkeep := hsound.index
    rw [hindex] at hkeep ⊢
    subst ht
    exact {
      sound := hkeep
      autowrap := h.autowrap
      inAlt := h.inAlt
      top := h.top
      bottom := h.bottom
      pen := h.pen
      picture := by
        change s.scrolledOff ++ s.rowList = _ ++ List.replicate (rows - 1 - (s.cursorRow + 1).toNat) _
        have hrest : rows - 1 - s.cursorRow.toNat = rows - 1 - (s.cursorRow + 1).toNat + 1 := by omega
        rw [h.picture, hrest, List.replicate_succ, hsnoc, List.append_assoc, List.singleton_append]
      row := by
        rw [List.length_append, List.length_singleton]
        change _ = s.scrolledOff.length + (s.cursorRow + 1).toNat
        omega
      bottomed := h.bottomed.imp_right fun hlast => by omega
      fits := Nat.zero_le _
      pending := nofun
      column := fun _ => rfl
      cluster := hcluster }
  · have hlast : s.cursorRow.toNat = s.scrollBottom.toNat := by
      have hge : ¬ s.cursorRow.toNat < s.scrollBottom.toNat := fun k => hend (UInt16.lt_iff_toNat_lt.mpr k)
      omega
    have hindex : t.index = t.scrollUp := by
      rw [ht]
      exact if_neg hend
    have hedits := Edits.scrollUp t
    have hup := scrollUp_all hsound (ht ▸ h.inAlt) (ht ▸ h.top) (ht ▸ h.bottom)
    have hblank : t.blankLine = plainRow cols [] := by
      have hpen : s.penBg = .default := congrArg Pen.bg h.pen
      rw [blankLine, hsound.cols_eq, ht, plainRow, padded]
      dsimp only
      rw [hpen]
      rfl
    have hcursor : t.scrollUp.cursorRow = s.cursorRow :=
      (hedits.congr Screen.cursorRow fun _ _ _ _ _ _ _ => rfl).trans (by rw [ht])
    rw [hindex]
    exact {
      sound := hsound.scrollUp
      autowrap := (hedits.congr Screen.autowrap fun _ _ _ _ _ _ _ => rfl).trans (ht ▸ h.autowrap)
      inAlt := hedits.inAlt.trans (ht ▸ h.inAlt)
      top := hedits.scrollTop.trans (ht ▸ h.top)
      bottom := by rw [hedits.scrollBottom, ht, ← h.bottom]
      pen := (hedits.congr Screen.pen fun _ _ _ _ _ _ _ => rfl).trans (ht ▸ h.pen)
      picture := by
        have hnone : rows - 1 - s.cursorRow.toNat = 0 := by omega
        have hsame : t.scrolledOff ++ t.rowList = s.scrolledOff ++ s.rowList := by
          rw [ht]
          rfl
        rw [hup.1, hsame, h.picture, hcursor, hnone, hblank, hsnoc, List.replicate_zero, List.append_nil,
          List.append_nil]
      row := by
        have hoff : t.scrolledOff = s.scrolledOff := by rw [ht]
        rw [hup.2, hcursor, hoff, List.length_append, List.length_singleton]
        omega
      bottomed := .inr (by rw [hcursor]; omega)
      fits := Nat.zero_le _
      pending := by
        have hpending : t.scrollUp.pendingWrap = false :=
          (hedits.congr Screen.pendingWrap fun _ _ _ _ _ _ _ => rfl).trans (by rw [ht])
        intro k
        exact absurd (hpending.symm.trans k) Bool.false_ne_true
      column := by
        have hcol : t.scrollUp.cursorCol = 0 :=
          (hedits.congr Screen.cursorCol fun _ _ _ _ _ _ _ => rfl).trans (by rw [ht])
        rw [hcol]
        exact fun _ => rfl
      cluster := fun c hc =>
        (hedits.congr (fun s => s.shouldAppend c) fun _ _ _ _ _ _ _ => rfl).trans (hcluster c hc) }

theorem rowList_setCell (h : Sound True cols rows s) (col : UInt16) (hcol : col.toNat < cols) (c : Cell)
    (hcells : t.cells = s.cells.set (s.idx col s.cursorRow) c) (ht : Sound True cols rows t) :
    t.rowList = s.rowList.set s.cursorRow.toNat ((s.rowCells s.cursorRow.toNat).set col.toNat c) := by
  have hline := length_rowCells h h.cursorRow_lt
  refine rowList_eq_set h ht h.cursorRow_lt (by rw [List.length_set, hline]) (fun j hj => ?_)
    fun i hi => ?_
  · rw [hcells, idx, h.cols_eq, List.getElem?_set, List.getElem?_set, hline, h.length_cells,
      ← getElem?_rowCells_lt h hj]
    have hspan := row_span_le cols h.cursorRow_lt
    by_cases hjc : col.toNat = j
    · rw [if_pos (by omega), if_pos (by omega), if_pos hjc, if_pos hcol]
    · rw [if_neg (by omega), if_neg hjc]
  · rw [hcells, idx, h.cols_eq, List.getElem?_set_ne (by omega)]

/-- A character has been written at the cursor, and the cursor moves on. -/
theorem of_written (h : Laid cols rows done cur s) (hlt : cur.length < cols) {c : Char} (hc : Plain c)
    (hpending : s.pendingWrap = false) {u : Screen} {cl : OpenCluster} {damageRow0 damageRow1 : UInt16}
    {panicked : Bool}
    (hu : u = { s with
      cells := s.cells.set (s.idx s.cursorCol s.cursorRow) (Cell.plain c)
      openCluster := some cl
      damageRow0, damageRow1, panicked })
    (hcl : cl.afterZwj = decide (c = zeroWidthJoiner) ∧ cl.lastWasRi = isRegionalIndicator c)
    (hsound : Sound True cols rows (u.advanceAfterWidth 1)) :
    Laid cols rows done (cur ++ [c]) (u.advanceAfterWidth 1) := by
  have hcol := h.column hpending
  have hrow := h.row
  have hlen : (cur ++ [c]).length = cur.length + 1 := List.length_append
  have hwidth : u.cursorCol.toNat + (1 : UInt16).toNat = cur.length + 1 := by
    rw [hu, ← hcol]
    rfl
  obtain ⟨hnext, hcolumn⟩ := Typing.advance (show u.cols.toNat = cols by rw [hu]; exact h.sound.cols_eq)
    h.sound.cols_pos (by rw [hu]; exact h.autowrap) hwidth hlt
  obtain ⟨cursorCol, pendingWrap, hadvance⟩ := Typing.advance_eq u 1
  rw [hadvance] at hsound hnext hcolumn ⊢
  have hlist := rowList_setCell h.sound s.cursorCol h.sound.cursorCol_lt (Cell.plain c) (by rw [hu])
    hsound
  have hwritten : (plainRow cols cur).set cur.length (Cell.plain c) = plainRow cols (cur ++ [c]) := by
    have hset := padded_set (show (cur.map Cell.plain).length < cols by rw [List.length_map]; exact hlt)
      (Cell.plain c)
    rwa [List.length_map, ← List.map_singleton, ← List.map_append] at hset
  rw [hcol, h.rowCells_cursor, hwritten] at hlist
  subst hu
  exact {
    sound := hsound
    autowrap := h.autowrap
    inAlt := h.inAlt
    top := h.top
    bottom := h.bottom
    pen := h.pen
    picture := by
      change s.scrolledOff ++ _ = _ ++ List.replicate (rows - 1 - s.cursorRow.toNat) _
      have hset := congrArg (fun l => l.set done.length (plainRow cols (cur ++ [c]))) h.picture
      rw [List.map_append, List.append_assoc, List.set_append_right _ _ (by omega), hrow,
        Nat.add_sub_cancel_left, ← hrow, List.set_append_right _ _ (by simp), List.length_map,
        Nat.sub_self, List.map_singleton, List.singleton_append, List.set_cons_zero] at hset
      rw [hlist, hset, List.map_append, List.append_assoc]
      rfl
    row := hrow
    bottomed := h.bottomed
    fits := by omega
    pending := fun k => by rw [hlen]; exact hnext k
    column := fun k => by rw [hlen]; exact hcolumn k
    cluster := fun d hd => by
      have hjoiner : c ≠ zeroWidthJoiner := by
        rintro rfl
        have hjoiner : isClusterContinuer zeroWidthJoiner = true := by simp [isClusterContinuer]
        rw [hc.continuer] at hjoiner
        exact Bool.false_ne_true hjoiner
      change (isClusterContinuer d || cl.afterZwj || (cl.lastWasRi && isRegionalIndicator d)) = false
      rw [hcl.1, hcl.2, hd.continuer, hc.indicator, decide_eq_false hjoiner]
      rfl }

theorem place (h : Laid cols rows done cur s) (hlt : cur.length < cols) {c : Char} (hc : Plain c) :
    Laid cols rows done (cur ++ [c]) (s.placeGlyph c (clusterWidth c)) := by
  have hwidth : clusterWidth c = 1 := by rw [clusterWidth, hc.narrow]; rfl
  have hpending : s.pendingWrap = false := by
    cases hp : s.pendingWrap with
    | false => rfl
    | true =>
      have hfull := h.pending hp
      omega
  have hblank : (s.cellAt (s.idx s.cursorCol s.cursorRow)).attrs = 0 := by
    rw [h.cellAt_cursor hpending]
    rfl
  have hsound := h.sound.placeGlyph c (show clusterWidth c = 2 → _ from fun htwo =>
    absurd (hwidth.symm.trans htwo) (by decide))
  obtain ⟨panicked, hpaint⟩ := paintGlyph_of_blank (c := c) hblank fun hwide =>
    absurd (hc.narrow.symm.trans hwide) (by decide)
  have hpen : s.pen.cell c = Cell.plain c := by
    rw [h.pen]
    rfl
  rw [hc.narrow, hpen, if_neg Bool.false_ne_true] at hpaint
  unfold placeGlyph at hsound ⊢
  dsimp only at hsound ⊢
  rw [hpaint] at hsound ⊢
  obtain ⟨damageRow0, damageRow1, hdirty⟩ := Typing.dirty_eq (setOpenCluster _ _) s.cursorRow
  rw [hdirty, hwidth] at hsound ⊢
  exact h.of_written hlt hc hpending rfl ⟨rfl, rfl⟩ hsound

theorem printBase_of_room (h : Sound True cols rows t) {c : Char} (hc : Plain c)
    (hwrap : s.wrapIfNeededWidth (clusterWidth c) = t) :
    s.printBase c = t.placeGlyph c (clusterWidth c) := by
  have hwidth : clusterWidth c = 1 := by rw [clusterWidth, hc.narrow]; rfl
  have hlt := h.cursorCol_lt
  have hcols : ¬ t.cols < 1 := by
    rw [UInt16.lt_iff_toNat_lt, h.cols_eq, UInt16.toNat_one]
    omega
  have hremaining : ¬ t.remainingCols < 1 := by
    rw [UInt16.lt_iff_toNat_lt, remainingCols, toNat_satSub16, h.cols_eq, UInt16.toNat_one]
    omega
  unfold printBase
  dsimp only
  rw [hwrap, hwidth, decide_eq_false hcols, decide_eq_false hremaining]
  rfl

theorem print (h : Laid cols rows done cur s) {c : Char} (hc : Plain c) :
    Laid cols rows (typeOne cols (done, cur) c).1 (typeOne cols (done, cur) c).2 (s.print c) := by
  have hwidth : clusterWidth c = 1 := by rw [clusterWidth, hc.narrow]; rfl
  have hbase : s.print c = s.printBase c := by
    rw [Screen.print, writeChar, h.cluster c hc]
    rfl
  rw [hbase, typeOne]
  by_cases hlt : cur.length < cols
  · have hpending : s.pendingWrap = false := by
      cases hp : s.pendingWrap with
      | false => rfl
      | true =>
        have hfull := h.pending hp
        omega
    have hwrap : s.wrapIfNeededWidth (clusterWidth c) = s := by
      have hremaining : ¬ s.remainingCols < 1 := by
        rw [UInt16.lt_iff_toNat_lt, remainingCols, toNat_satSub16, h.sound.cols_eq, h.column hpending,
          UInt16.toNat_one]
        omega
      rw [wrapIfNeededWidth, hpending, hwidth, decide_eq_false hremaining]
      rfl
    rw [if_pos hlt, printBase_of_room h.sound hc hwrap]
    exact h.place hlt hc
  · have hpending : s.pendingWrap = true := by
      cases hp : s.pendingWrap with
      | true => rfl
      | false =>
        have hcol := h.column hp
        have hcur := h.sound.cursorCol_lt
        omega
    have hwrap : s.wrapIfNeededWidth (clusterWidth c) = (s.clearPendingWrap.setCursorCol 0).index := by
      rw [wrapIfNeededWidth, hpending, h.autowrap]
      rfl
    have hnext := h.nextRow (t := s.clearPendingWrap.setCursorCol 0) rfl (h.sound.cluster_lt trivial)
      h.cluster
    rw [if_neg hlt, printBase_of_room hnext.sound hc hwrap]
    exact hnext.place h.sound.cols_pos hc

theorem line (h : Laid cols rows done cur s) {text : List Char} (htext : ∀ c ∈ text, Plain c) :
    Laid cols rows (text.foldl (typeOne cols) (done, cur)).1 (text.foldl (typeOne cols) (done, cur)).2
      ((text.map Action.print).foldl act s) := by
  induction text generalizing done cur s with
  | nil => exact h
  | cons c text ih =>
    exact ih (h.print (htext c List.mem_cons_self)) fun d hd => htext d (List.mem_cons_of_mem _ hd)

theorem newline (h : Laid cols rows done cur s) :
    Laid cols rows (done ++ [cur]) [] ((s.execute 0x0d).execute 0x0a) :=
  h.nextRow (o := none) (t := (((s.execute 0x0d).clearPendingWrap).setOpenCluster none)) rfl nofun
    fun _ _ => rfl

/-- The calls the lines make, the first of them on an empty row. -/
theorem lines (h : Laid cols rows done [] s) (line : List Char) (lines : List (List Char))
    (hplain : ∀ l ∈ line :: lines, ∀ c ∈ l, Plain c) :
    ∃ done' cur', done' ++ [cur'] = done ++ (line :: lines).flatMap (wrapRows cols) ∧
      Laid cols rows done' cur' ((([Action.execute 0x0d, .execute 0x0a].intercalate
        ((line :: lines).map (List.map Action.print)))).foldl act s) := by
  induction lines generalizing done line s with
  | nil =>
    rw [List.map_singleton, List.intercalate_singleton]
    refine ⟨_, _, ?_, h.line (hplain line List.mem_cons_self)⟩
    rw [foldl_typeOne h.sound.cols_pos line done (Nat.zero_le _), List.flatMap_singleton]
    rfl
  | cons next lines ih =>
    have hfirst := h.line (hplain line List.mem_cons_self)
    obtain ⟨done', cur', hrows, hlaid⟩ := ih hfirst.newline next fun l hl =>
      hplain l (List.mem_cons_of_mem _ hl)
    refine ⟨done', cur', ?_, ?_⟩
    · rw [hrows, foldl_typeOne h.sound.cols_pos line done (Nat.zero_le _), List.flatMap_cons,
        List.append_assoc]
      rfl
    · rw [List.map_cons, List.map_cons, List.intercalate_cons_cons, List.foldl_append, List.foldl_append]
      exact hlaid

theorem picture_eq (h : Laid cols rows done cur s) :
    s.scrolledOff ++ s.rowList = filled cols rows ((done ++ [cur]).map (plainRow cols)) := by
  have hrow := h.row
  have hlt := h.sound.cursorRow_lt
  have hlen : ((done ++ [cur]).map (plainRow cols)).length = done.length + 1 := by
    rw [List.length_map, List.length_append, List.length_singleton]
  have hrest : rows - 1 - s.cursorRow.toNat = rows - (done.length + 1) := by
    obtain hnone | hlast := h.bottomed
    · rw [hnone, List.length_nil] at hrow
      omega
    · omega
  rw [h.picture, filled, hlen, hrest]

end Laid

namespace Screen

variable {s : Screen}

theorem rowList_new {cols rows : UInt16} (h : Screen.new cols rows = .ok s) :
    s.scrolledOff ++ s.rowList = List.replicate rows.toNat (plainRow cols.toNat []) := by
  have hsound : Sound True cols.toNat rows.toNat s := sound_new h
  have hcells : s.cells = List.replicate (cols.toNat * rows.toNat) (Cell.blank .default) ∧
      s.scrolledOff = [] := by
    unfold Screen.new at h
    split at h
    case isTrue => cases h
    case isFalse =>
      obtain rfl := Except.ok.inj h
      exact ⟨rfl, rfl⟩
  rw [hcells.2, List.nil_append]
  refine List.eq_replicate_iff.mpr ⟨length_rowList hsound, fun row hrow => ?_⟩
  obtain ⟨r, hr, rfl⟩ := List.mem_map.mp hrow
  rw [List.mem_range, hsound.rows_eq] at hr
  have hspan := row_span_le cols.toNat hr
  rw [rowCells, hcells.1, hsound.cols_eq, List.drop_replicate, List.take_replicate,
    Nat.min_eq_left (by omega)]
  rfl

theorem laid_new {cols rows : UInt16} (h : Screen.new cols rows = .ok s) :
    Laid cols.toNat rows.toNat [] [] s := by
  have hsound : Sound True cols.toNat rows.toNat s := sound_new h
  have hpicture := rowList_new h
  have hrows := hsound.rows_pos
  have hone : List.replicate rows.toNat (plainRow cols.toNat []) =
      ([] ++ [[]]).map (plainRow cols.toNat) ++ List.replicate (rows.toNat - 1) (plainRow cols.toNat []) := by
    have hsucc : rows.toNat = rows.toNat - 1 + 1 := by omega
    rw [hsucc, List.replicate_succ, Nat.add_sub_cancel]
    rfl
  rw [hone] at hpicture
  have hbottom : (satSub16 rows 1).toNat + 1 = rows.toNat := by
    rw [toNat_satSub16, UInt16.toNat_one]
    omega
  unfold Screen.new at h
  split at h
  case isTrue => cases h
  case isFalse =>
    obtain rfl := Except.ok.inj h
    exact {
      sound := hsound
      autowrap := rfl
      inAlt := rfl
      top := rfl
      bottom := hbottom
      pen := rfl
      picture := hpicture
      row := rfl
      bottomed := .inl rfl
      fits := Nat.zero_le _
      pending := nofun
      column := fun _ => rfl
      cluster := fun _ _ => rfl }

theorem picture_lines {cols rows : UInt16} (h : Screen.new cols rows = .ok s) (lines : List (List Char))
    (hplain : ∀ l ∈ lines, ∀ c ∈ l, Plain c) {t : Screen}
    (ht : t = (([Action.execute 0x0d, .execute 0x0a].intercalate
      (lines.map (List.map Action.print)))).foldl act s) :
    t.scrolledOff ++ t.rowList = filled cols.toNat rows.toNat (layout cols.toNat lines) := by
  cases lines with
  | nil =>
    rw [ht]
    exact (rowList_new h).trans (by rw [filled]; rfl)
  | cons line lines =>
    obtain ⟨done, cur, hrows, hlaid⟩ := (laid_new h).lines line lines hplain
    rw [ht, hlaid.picture_eq, hrows]
    rfl

end Screen

-- ---------------------------------------------------------------------------
-- The host
-- ---------------------------------------------------------------------------

/-- What a host does that feeds the engine and keeps what scrolls off. -/
inductive Drain
  | feed (chunk : List UInt8)
  | takeScrolledOff

def PodGrid.rowList (g : PodGrid) : List (List PodCell) :=
  (List.range g.rows.toNat).map fun r => (g.cells.drop (r * g.cols.toNat)).take g.cols.toNat

theorem rowList_snapshot (s : Screen) :
    s.snapshot.1.rowList = s.rowList.map (List.map s.podCell) := by
  rw [PodGrid.rowList, Screen.rowList, List.map_map]
  refine List.map_congr_left fun r _ => ?_
  rw [Function.comp, Screen.rowCells, List.map_take, List.map_drop]
  rfl

namespace Makes

theorem lines {lines : List (List Char)} (h : ∀ l ∈ lines, ∀ c ∈ l, Plain c) :
    Makes (lineBytes lines)
      ([Action.execute 0x0d, .execute 0x0a].intercalate (lines.map (List.map Action.print))) := by
  have htext : ∀ l ∈ lines, Makes (l.flatMap String.utf8EncodeChar) (l.map .print) := fun l hl =>
    Parser.makes_text fun c hc => (h l hl c hc).printable
  clear h
  induction lines with
  | nil => exact .nil
  | cons line lines ih =>
    have hline := htext line List.mem_cons_self
    have hrest := ih fun l hl => htext l (List.mem_cons_of_mem _ hl)
    unfold lineBytes at hrest ⊢
    cases lines with
    | nil =>
      rw [List.map_singleton, List.map_singleton, List.intercalate_singleton, List.intercalate_singleton]
      exact hline
    | cons next lines =>
      have hbreak : Makes [0x0d, 0x0a] [.execute 0x0d, .execute 0x0a] := rfl
      rw [List.map_cons, List.map_cons, List.map_cons, List.map_cons, List.intercalate_cons_cons,
        List.intercalate_cons_cons]
      exact (hline.append hbreak).append hrest

end Makes

namespace VtEngine

variable {e f : VtEngine}

def drain (x : List (List PodCell) × VtEngine) : Drain → List (List PodCell) × VtEngine
  | .feed chunk => (x.1, x.2.feed chunk)
  | .takeScrolledOff => (x.1 ++ x.2.takeScrolledOff.1, x.2.takeScrolledOff.2)

def fedBytes : List Drain → List UInt8
  | [] => []
  | .feed chunk :: drains => chunk ++ fedBytes drains
  | .takeScrolledOff :: drains => fedBytes drains

/-- The host of `x` and an engine `f` that was fed the same and never drained. -/
def Drained (pod : Cell → PodCell) (f : VtEngine) (x : List (List PodCell) × VtEngine) : Prop :=
  ∃ old, x.2.parser = f.parser ∧ Screen.Behind old x.2.screen f.screen ∧ f.screen.podCell = pod ∧
    x.1 = old.map (List.map pod)

theorem podCell_congr {s t : Screen} (h : t.palette = s.palette) : t.podCell = s.podCell := by
  funext c
  simp only [Screen.podCell, Screen.resolve, h]

variable {pod : Cell → PodCell} {x : List (List PodCell) × VtEngine}

theorem Drained.feed (h : Drained pod f x) (chunk : List UInt8) :
    Drained pod (f.feed chunk) (drain x (.feed chunk)) := by
  obtain ⟨old, hparser, hbehind, hpod, htaken⟩ := h
  refine ⟨old, ?_, ?_, ?_, htaken⟩
  · exact congrArg (fun p => (p.feed chunk).1) hparser
  · change Screen.Behind old ((x.2.parser.feed chunk).2.foldl Screen.act x.2.screen) _
    rw [hparser]
    exact hbehind.acts _
  · exact (podCell_congr (Screen.palette_acts _ _)).trans hpod

theorem podCell_behind {old : List (List Cell)} {s t : Screen} (h : Screen.Behind old s t) :
    t.podCell = s.podCell := by
  rw [h]
  rfl

theorem Drained.take (h : Drained pod f x) : Drained pod f (drain x .takeScrolledOff) := by
  obtain ⟨old, hparser, hbehind, hpod, htaken⟩ := h
  have hsame : x.2.screen.podCell = pod := (podCell_behind hbehind).symm.trans hpod
  refine ⟨old ++ x.2.screen.scrolledOff, hparser, ?_, hpod, ?_⟩
  · rw [hbehind]
    change Screen.behind old x.2.screen =
      { x.2.screen with scrolledOff := (old ++ x.2.screen.scrolledOff) ++ [] }
    rw [List.append_nil]
    rfl
  · change x.1 ++ x.2.screen.scrolledOff.map (List.map x.2.screen.podCell) = _
    rw [htaken, hsame, List.map_append]

theorem Drained.run (h : Drained pod f x) (hput : f.parser.putback = none) (drains : List Drain) :
    Drained pod (f.feed (fedBytes drains)) (drains.foldl drain x) := by
  induction drains generalizing f x with
  | nil =>
    rw [fedBytes, feed_nil hput]
    exact h
  | cons d drains ih =>
    cases d with
    | feed chunk =>
      rw [fedBytes, ← feed_feed]
      exact ih (h.feed chunk) (Parser.putback_feed _ chunk)
    | takeScrolledOff => exact ih h.take hput

/-- The rows a host took, those it has not yet taken and those on the grid are the
lines as they are cut, whatever the chunks and whenever it took. -/
theorem scrollback_kept {cols rows : UInt16} (he : VtEngine.new cols rows = .ok e)
    (lines : List (List Char)) (hplain : ∀ l ∈ lines, ∀ c ∈ l, Plain c) (drains : List Drain)
    (hfed : fedBytes drains = lineBytes lines) :
    let x := drains.foldl drain ([], e)
    x.1 ++ x.2.takeScrolledOff.1 ++ x.2.snapshot.1.rowList =
      (filled cols.toNat rows.toNat (layout cols.toNat lines)).map (List.map e.screen.podCell) := by
  have hscreen := new_ok he
  have hput : e.parser.putback = none := by
    rw [parser_new he]
    rfl
  obtain ⟨old, -, hbehind, hpod, htaken⟩ := (show Drained e.screen.podCell e ([], e) from
    ⟨[], rfl, rfl, rfl, rfl⟩).run hput drains
  have hacts : (e.feed (fedBytes drains)).screen =
      ([Action.execute 0x0d, .execute 0x0a].intercalate (lines.map (List.map Action.print))).foldl
        Screen.act e.screen := by
    have hmakes := Makes.lines hplain
    unfold Makes at hmakes
    rw [hfed, VtEngine.feed, parser_new he, hmakes]
  have hpicture := Screen.picture_lines hscreen lines hplain hacts
  have hsame : (drains.foldl drain ([], e)).2.screen.podCell = e.screen.podCell :=
    (podCell_behind hbehind).symm.trans hpod
  have hsplit : (e.feed (fedBytes drains)).screen.scrolledOff ++
      (e.feed (fedBytes drains)).screen.rowList =
        old ++ (drains.foldl drain ([], e)).2.screen.scrolledOff ++
          (drains.foldl drain ([], e)).2.screen.rowList := by
    rw [hbehind]
    rfl
  have hgrid : (drains.foldl drain ([], e)).2.snapshot.1.rowList =
      (drains.foldl drain ([], e)).2.screen.rowList.map (List.map e.screen.podCell) := by
    rw [← hsame]
    exact rowList_snapshot _
  have hleft : (drains.foldl drain ([], e)).2.takeScrolledOff.1 =
      (drains.foldl drain ([], e)).2.screen.scrolledOff.map (List.map e.screen.podCell) := by
    rw [← hsame]
    rfl
  dsimp only
  rw [htaken, hleft, hgrid, ← hpicture, hsplit, List.map_append, List.map_append]

/-- A line that does not fit and an empty one, on one row of two cells. -/
theorem scrollback_kept_wrapped :
    let e := (VtEngine.new 2 1).toOption.get rfl
    let x := [Drain.feed [0x61, 0x61, 0x61], .takeScrolledOff, .feed [0x0d, 0x0a]].foldl drain ([], e)
    x.1 ++ x.2.takeScrolledOff.1 ++ x.2.snapshot.1.rowList =
      (filled 2 1 (layout 2 [List.replicate 3 'a', []])).map (List.map e.screen.podCell) := by
  have hplain : ∀ l ∈ [List.replicate 3 'a', []], ∀ c ∈ l, Plain c := by
    refine List.forall_mem_cons.mpr ⟨fun c hc => ?_, List.forall_mem_singleton.mpr nofun⟩
    obtain rfl := List.eq_of_mem_replicate hc
    exact ⟨by decide, by decide, by decide +kernel, by decide⟩
  exact scrollback_kept (show VtEngine.new 2 1 = .ok _ from rfl) _ hplain _ rfl

end VtEngine

end Rill.Vt
