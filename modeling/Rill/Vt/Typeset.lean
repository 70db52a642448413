import Rill.Vt.Line
import Rill.Vt.Resume

/-!
# Typesetting

Typing on a grid whose remaining cells are blank writes the lines of `Line`, one
under the other. So the mirror of a resync shows the typed lines of the picture,
and it shows the picture itself just when every row replays.
-/

namespace Rill.Vt

open Screen

-- ---------------------------------------------------------------------------
-- Blank cells
-- ---------------------------------------------------------------------------

theorem length_snoc (cells : List Cell) (c : Cell) : (cells ++ [c]).length = cells.length + 1 := by
  rw [List.length_append, List.length_singleton]

theorem padded_set {n : Nat} {cells : List Cell} (h : cells.length < n) (c : Cell) :
    (padded n cells).set cells.length c = padded n (cells ++ [c]) := by
  obtain ⟨k, hk⟩ : ∃ k, n - cells.length = k + 1 := ⟨n - cells.length - 1, by omega⟩
  have hrest : n - (cells ++ [c]).length = k := by
    rw [length_snoc]
    omega
  rw [padded, padded, hk, hrest, List.set_append_right _ _ (Nat.le_refl _), Nat.sub_self,
    List.replicate_succ, List.set_cons_zero, List.append_assoc, List.singleton_append]

/-- The last cell of a beginning, read and rewritten. -/
theorem padded_last (n : Nat) (cells : List Cell) (last c : Cell) :
    (padded n (cells ++ [last])).getD cells.length (Cell.blank .default) = last ∧
      (padded n (cells ++ [last])).set cells.length c = padded n (cells ++ [c]) := by
  constructor
  · rw [padded, List.getD_eq_getElem?_getD, List.append_assoc,
      List.getElem?_append_right (Nat.le_refl _), Nat.sub_self]
    rfl
  · rw [padded, padded, List.append_assoc, List.append_assoc,
      List.set_append_right _ _ (Nat.le_refl _), Nat.sub_self, List.length_append, List.length_append]
    rfl

theorem padded_blank {n i : Nat} {cells : List Cell} (h : cells.length ≤ i) :
    (padded n cells).getD i (Cell.blank .default) = Cell.blank .default := by
  rw [padded, List.getD_eq_getElem?_getD, List.getElem?_append_right h, List.getElem?_replicate]
  split <;> rfl

namespace Screen

variable {s : Screen}

theorem smashWideAt_of_blank {col row : UInt16} (h : (s.cellAt (s.idx col row)).attrs = 0) :
    ∃ panicked, s.smashWideAt col row = { s with panicked } := by
  unfold smashWideAt
  dsimp only
  split
  case isTrue => exact ⟨s.panicked, rfl⟩
  case isFalse =>
    rw [h]
    exact ⟨_, rfl⟩

/-- The cells a glyph takes, where they are blank. -/
theorem paintGlyph_of_blank {c : Char} {col row : UInt16}
    (h : (s.cellAt (s.idx col row)).attrs = 0)
    (hnext : isWide c.val = true → (s.cellAt (s.idx (col + 1) row)).attrs = 0) :
    ∃ panicked, s.paintGlyph c col row (clusterWidth c) = { s with
      cells := if isWide c.val then (s.cells.set (s.idx col row) (s.pen.cell c).leadHalf).set
          (s.idx (col + 1) row) (s.pen.cell c).tailHalf
        else s.cells.set (s.idx col row) (s.pen.cell c)
      panicked } := by
  obtain ⟨panicked, hfirst⟩ := smashWideAt_of_blank h
  have hlead : (s.pen.cell c).leadHalf =
      ⟨c.val, s.penFg, s.penBg, (s.penAttrs &&& sgrMask) ||| attrWideLead⟩ := by
    rw [Cell.leadHalf, Pen.cell]
    dsimp only [pen]
    rw [sgr_and_sgr]
  have htail : (s.pen.cell c).tailHalf =
      ⟨c.val, s.penFg, s.penBg, (s.penAttrs &&& sgrMask) ||| attrWideTail⟩ := by
    rw [Cell.tailHalf, Pen.cell]
    dsimp only [pen]
    rw [sgr_and_sgr]
  cases hwide : isWide c.val with
  | true =>
    have hwidth : clusterWidth c = 2 := by rw [clusterWidth, hwide]; rfl
    obtain ⟨panicked', hsecond⟩ := smashWideAt_of_blank (s := { s with panicked }) (hnext hwide)
    unfold paintGlyph
    dsimp only
    rw [hwidth, hfirst, if_pos rfl, if_pos rfl, if_pos rfl, if_pos rfl, hsecond, hlead, htail]
    exact ⟨_, rfl⟩
  | false =>
    have hwidth : clusterWidth c = 1 := by rw [clusterWidth, hwide]; rfl
    unfold paintGlyph
    dsimp only
    rw [hwidth, hfirst, if_neg (by decide), if_neg (by decide), if_neg (by decide),
      if_neg (by decide), UInt16.or_zero]
    exact ⟨_, rfl⟩

end Screen

-- ---------------------------------------------------------------------------
-- The line on the screen
-- ---------------------------------------------------------------------------

/-- The open cluster of a screen is the last glyph of the line. -/
structure Opens (s : Screen) (l : Line) (prev : Char) (wide : Bool) (cl : OpenCluster) : Prop where
  row : cl.row = s.cursorRow
  col : cl.col.toNat + (if wide then 2 else 1) = l.cells.length
  width : cl.width = if wide then 2 else 1
  afterZwj : cl.afterZwj = decide (prev = zeroWidthJoiner)
  lastWasRi : cl.lastWasRi = isRegionalIndicator prev

/-- Below the rows `above` the line `l` has been typed, and nothing else. -/
structure Typing (cols rows : Nat) (above : List Cell) (l : Line) (s : Screen) : Prop where
  sound : Sound True cols rows s
  autowrap : s.autowrap = true
  bottom : s.scrollBottom.toNat + 1 = rows
  start : above.length = s.cursorRow.toNat * cols
  fits : l.cells.length ≤ cols
  cells : s.cells = padded (cols * rows) (above ++ l.cells)
  pending : s.pendingWrap = true → l.cells.length = cols
  column : s.pendingWrap = false → s.cursorCol.toNat = l.cells.length
  closed : l.cluster = none → s.openCluster = none
  opened : ∀ prev wide, l.cluster = some (prev, wide) →
    ∃ cl, s.openCluster = some cl ∧ Opens s l prev wide cl

namespace Typing

variable {cols rows : Nat} {above : List Cell} {l : Line} {s : Screen}

theorem shouldAppend (h : Typing cols rows above l s) (c : Char) :
    s.shouldAppend c = (l.cluster.map fun cl => joinsAfter cl.1 c).getD false := by
  unfold Screen.shouldAppend
  cases hcluster : l.cluster with
  | none => rw [h.closed hcluster]; rfl
  | some cl =>
    obtain ⟨cl, hopen, hopens⟩ := h.opened cl.1 cl.2 hcluster
    rw [hopen]
    dsimp only
    rw [hopens.afterZwj, hopens.lastWasRi]
    rfl

theorem cellAt_blank (h : Typing cols rows above l s) {i : Nat} (hi : (above ++ l.cells).length ≤ i) :
    (s.cellAt i).attrs = 0 := by
  rw [Screen.cellAt, h.cells, padded_blank hi]
  rfl

theorem idx_cursor (h : Typing cols rows above l s) (hpending : s.pendingWrap = false) :
    s.idx s.cursorCol s.cursorRow = (above ++ l.cells).length := by
  rw [Screen.idx, h.sound.cols_eq, List.length_append, h.start, h.column hpending]

theorem length_lt (h : Typing cols rows above l s) {n : Nat} (hn : 0 < n) (hfit : l.cells.length + n ≤ cols) :
    s.pendingWrap = false ∧ (above ++ l.cells).length + n ≤ cols * rows := by
  constructor
  · cases hp : s.pendingWrap with
    | false => rfl
    | true =>
      have hfull := h.pending hp
      omega
  · have hspan := row_span_le cols h.sound.cursorRow_lt
    rw [List.length_append, h.start]
    omega

/-- The cursor after glyphs that end at column `n` of the row. -/
theorem advance {u : Screen} {n : Nat} {width : UInt16} (hcols : u.cols.toNat = cols) (hpos : 0 < cols)
    (hauto : u.autowrap = true) (hn : u.cursorCol.toNat + width.toNat = n) (hfit : n ≤ cols) :
    ((u.advanceAfterWidth width).pendingWrap = true → n = cols) ∧
      ((u.advanceAfterWidth width).pendingWrap = false →
        (u.advanceAfterWidth width).cursorCol.toNat = n) := by
  have hlt := u.cols.toNat_lt
  have hsum : (satAdd16 u.cursorCol width).toNat = n := by
    have hmax : (65535 : UInt16).toNat = 65535 := rfl
    unfold satAdd16
    split
    case isTrue h =>
      rw [UInt16.toNat_add]
      omega
    case isFalse => omega
  unfold advanceAfterWidth
  dsimp only
  split
  case isTrue => exact ⟨nofun, fun _ => hsum⟩
  case isFalse h =>
    rw [UInt16.lt_iff_toNat_lt, hsum, hcols] at h
    exact ⟨fun _ => by omega, fun k => absurd (hauto.symm.trans k) (by decide)⟩

theorem advance_eq (u : Screen) (width : UInt16) :
    ∃ cursorCol pendingWrap, u.advanceAfterWidth width = { u with cursorCol, pendingWrap } := by
  unfold advanceAfterWidth
  dsimp only
  split
  · exact ⟨_, _, rfl⟩
  · exact ⟨_, _, rfl⟩

/-- What has been written and opened, once the cursor has moved past it. -/
theorem of_advance {u : Screen} {l' : Line} {width : UInt16} {prev : Char} {wide : Bool} {cl : OpenCluster}
    (hsound : Sound True cols rows (u.advanceAfterWidth width)) (hcols : u.cols.toNat = cols)
    (hauto : u.autowrap = true) (hbottom : u.scrollBottom.toNat + 1 = rows)
    (hstart : above.length = u.cursorRow.toNat * cols)
    (hcells : u.cells = padded (cols * rows) (above ++ l'.cells))
    (hcolumn : u.cursorCol.toNat + width.toNat = l'.cells.length) (hfit : l'.cells.length ≤ cols)
    (hcluster : l'.cluster = some (prev, wide)) (hopen : u.openCluster = some cl)
    (hopens : Opens u l' prev wide cl) : Typing cols rows above l' (u.advanceAfterWidth width) := by
  obtain ⟨hpending, hcolumn⟩ := advance hcols hsound.cols_pos hauto hcolumn hfit
  obtain ⟨cursorCol, pendingWrap, hadvance⟩ := advance_eq u width
  refine ⟨hsound, ?_, ?_, ?_, hfit, ?_, hpending, hcolumn, fun k => ?_, fun q w hq => ?_⟩
  · rw [hadvance, ← hauto]
  · rw [hadvance, ← hbottom]
  · rw [hadvance, hstart]
  · rw [hadvance, ← hcells]
  · rw [hcluster] at k
    exact nomatch k
  · obtain ⟨rfl, rfl⟩ := Prod.mk.inj (Option.some.inj (hcluster.symm.trans hq))
    refine ⟨cl, ?_, ?_, hopens.col, hopens.width, hopens.afterZwj, hopens.lastWasRi⟩
    · rw [hadvance, ← hopen]
    · rw [hadvance, hopens.row]

theorem dirty_eq (u : Screen) (row : UInt16) :
    ∃ damageRow0 damageRow1, u.dirty row = { u with damageRow0, damageRow1 } := by
  unfold dirty
  split
  · exact ⟨_, _, rfl⟩
  · split
    · exact ⟨_, _, rfl⟩
    · exact ⟨_, _, rfl⟩

theorem toNat_clusterWidth (p : Pen) (c : Char) : (clusterWidth c).toNat = (p.glyph c).length := by
  unfold clusterWidth Pen.glyph
  cases isWide c.val <;> rfl

/-- Where the glyph fits it is placed at once. -/
theorem printBase_eq (h : Typing cols rows above l s) (c : Char)
    (hfit : l.cells.length + (clusterWidth c).toNat ≤ cols) (hpending : s.pendingWrap = false) :
    s.printBase c = s.placeGlyph c (clusterWidth c) := by
  have hremaining : ¬ s.remainingCols < clusterWidth c := by
    rw [UInt16.lt_iff_toNat_lt, remainingCols, toNat_satSub16, h.sound.cols_eq, h.column hpending]
    omega
  have hcols : ¬ s.cols < clusterWidth c := by
    rw [UInt16.lt_iff_toNat_lt, h.sound.cols_eq]
    omega
  have hwrap : s.wrapIfNeededWidth (clusterWidth c) = s := by
    unfold wrapIfNeededWidth
    rw [hpending, decide_eq_false hremaining]
    rfl
  unfold printBase
  dsimp only
  rw [hwrap, decide_eq_false hremaining, decide_eq_false hcols]
  rfl

theorem place (h : Typing cols rows above l s) (c : Char)
    (hfit : (l.place s.pen c).cells.length ≤ cols) :
    Typing cols rows above (l.place s.pen c) (s.printBase c) := by
  have hlen : (l.place s.pen c).cells.length = l.cells.length + (clusterWidth c).toNat := by
    rw [Line.place, List.length_append, toNat_clusterWidth s.pen]
  have hwpos : 0 < (clusterWidth c).toNat := by
    rw [toNat_clusterWidth s.pen]
    exact List.length_pos_iff.mpr (Pen.glyph_ne_nil _ _)
  rw [hlen] at hfit
  obtain ⟨hpending, hspan⟩ := h.length_lt hwpos hfit
  have hidx := h.idx_cursor hpending
  have hsound := h.sound.printBase c
  have hnext : isWide c.val = true → s.idx (s.cursorCol + 1) s.cursorRow = (above ++ l.cells).length + 1 := by
    intro hwide
    have hwidth : (clusterWidth c).toNat = 2 := by rw [clusterWidth, hwide]; rfl
    rw [← hidx]
    refine idx_succ h.sound.cols_eq ?_ _
    rw [h.column hpending]
    omega
  obtain ⟨panicked, hpaint⟩ := paintGlyph_of_blank (s := s) (c := c)
    (h.cellAt_blank (Nat.le_of_eq hidx.symm)) fun hwide =>
      h.cellAt_blank (by rw [hnext hwide]; exact Nat.le_succ _)
  have hcells : (s.paintGlyph c s.cursorCol s.cursorRow (clusterWidth c)).cells =
      padded (cols * rows) (above ++ (l.place s.pen c).cells) := by
    rw [hpaint, h.cells, hidx, Line.place, ← List.append_assoc]
    dsimp only
    unfold Pen.glyph
    rw [toNat_clusterWidth s.pen, Pen.glyph] at hspan
    cases hwide : isWide c.val with
    | false =>
      rw [hwide] at hspan
      exact padded_set hspan _
    | true =>
      rw [hwide] at hspan
      have hspan : (above ++ l.cells).length + 2 ≤ cols * rows := hspan
      have hone : (above ++ l.cells).length + 1 = ((above ++ l.cells) ++ [(s.pen.cell c).leadHalf]).length :=
        (length_snoc _ _).symm
      rw [if_pos rfl, if_pos rfl, hnext hwide, padded_set (by omega), hone, padded_set (by omega),
        List.append_assoc (above ++ l.cells)]
      rfl
  rw [h.printBase_eq c hfit hpending] at hsound ⊢
  rw [hpaint] at hcells
  unfold placeGlyph at hsound ⊢
  dsimp only at hsound ⊢
  rw [hpaint] at hsound ⊢
  obtain ⟨damageRow0, damageRow1, hdirty⟩ := dirty_eq (setOpenCluster _ _) s.cursorRow
  rw [hdirty] at hsound ⊢
  refine of_advance hsound h.sound.cols_eq h.autowrap h.bottom h.start hcells ?_ ?_ rfl rfl ?_
  · rw [hlen, ← h.column hpending]
    rfl
  · rw [hlen]
    exact hfit
  · have hwidth : (clusterWidth c).toNat = (if isWide c.val then 2 else 1) ∧
        (clusterWidth c).toUInt8 = if isWide c.val then 2 else 1 := by
      unfold clusterWidth
      cases isWide c.val <;> exact ⟨rfl, rfl⟩
    refine ⟨rfl, ?_, hwidth.2, rfl, rfl⟩
    rw [hlen, ← hwidth.1, ← h.column hpending]

/-- The cluster's last scalar and length are noted, and nothing is written. -/
theorem appendToCluster_eq {cl : OpenCluster} (hopen : s.openCluster = some cl) (c : Char) :
    ∃ graphemeTruncated damageRow0 damageRow1 len, s.appendToCluster c = some { s with
      graphemeTruncated, damageRow0, damageRow1
      openCluster := some { cl with
        len
        afterZwj := c = zeroWidthJoiner
        lastWasRi := isRegionalIndicator c } } := by
  unfold Screen.appendToCluster
  rw [hopen, Option.map_some]
  obtain ⟨graphemeTruncated, hcount⟩ :
      ∃ graphemeTruncated, s.countTruncated cl.len = { s with graphemeTruncated } := by
    unfold countTruncated
    split
    · exact ⟨_, rfl⟩
    · exact ⟨_, rfl⟩
  obtain ⟨damageRow0, damageRow1, hdirty⟩ := dirty_eq (s.countTruncated cl.len) cl.row
  rw [hdirty, hcount]
  exact ⟨_, _, _, _, rfl⟩

/-- A narrow glyph whose cluster becomes a wide one takes the cell after it. -/
theorem widen (h : Typing cols rows above l s) {prev : Char} (hcluster : l.cluster = some (prev, false))
    (hfit : l.cells.length + 1 ≤ cols) :
    Typing cols rows above ⟨widenLast l.cells, some (prev, true)⟩ s.maybeExpandRiPair := by
  obtain ⟨cl, hopen, hopens⟩ := h.opened prev false hcluster
  have hcol : cl.col.toNat + 1 = l.cells.length := hopens.col
  obtain ⟨hpending, hspan⟩ := h.length_lt Nat.one_pos hfit
  have hcursor := h.column hpending
  have hcolsle := cols_le h.sound
  have htail : (satAdd16 cl.col 1).toNat = l.cells.length := by
    unfold satAdd16
    rw [UInt16.toNat_one, if_pos (by omega), UInt16.toNat_add, UInt16.toNat_one]
    omega
  have hne : l.cells ≠ [] := fun k => by simp [k] at hcol
  obtain ⟨init, last, hlast⟩ : ∃ init last, l.cells = init ++ [last] :=
    ⟨_, _, (List.dropLast_concat_getLast hne).symm⟩
  have hwiden : widenLast l.cells = init ++ [last.leadHalf, last.tailHalf] := by
    rw [hlast, widenLast, List.getLast?_concat, List.dropLast_concat]
  have hlen : (widenLast l.cells).length = l.cells.length + 1 := Line.length_widenLast hne
  have hsound := h.sound.maybeExpandRiPair
  unfold maybeExpandRiPair at hsound ⊢
  rw [hopen] at hsound ⊢
  dsimp only at hsound ⊢
  have hnarrow : ¬ cl.width ≥ 2 := by
    rw [hopens.width]
    decide
  have hin : ¬ (decide (satAdd16 cl.col 1 ≥ s.cols) || decide (cl.row ≠ s.cursorRow)) = true := by
    rw [Bool.or_eq_true, decide_eq_true_eq, decide_eq_true_eq, ge_iff_le, UInt16.le_iff_toNat_le,
      htail, h.sound.cols_eq]
    rintro (hle | hrow)
    · omega
    · exact hrow hopens.row
  rw [if_neg hnarrow, if_neg hin] at hsound ⊢
  generalize satAdd16 cl.col 1 = tailCol at htail hsound ⊢
  have hspot : s.idx cl.col cl.row = (above ++ init).length := by
    rw [Screen.idx, h.sound.cols_eq, hopens.row, List.length_append, h.start]
    rw [hlast, List.length_append, List.length_singleton] at hcol
    omega
  have hnext : s.idx tailCol cl.row = (above ++ l.cells).length := by
    rw [Screen.idx, h.sound.cols_eq, hopens.row, List.length_append, h.start, htail]
  have hblank : (s.cellAt (s.idx tailCol cl.row)).attrs = 0 :=
    h.cellAt_blank (Nat.le_of_eq hnext.symm)
  obtain ⟨panicked, hsmash⟩ := smashWideAt_of_blank hblank
  have hlead := padded_last (cols * rows) (above ++ init) last last.leadHalf
  have hstart : s.cells = padded (cols * rows) (above ++ init ++ [last]) := by
    rw [h.cells, hlast, ← List.append_assoc]
  have hcells : ((s.cells.set (s.idx cl.col cl.row) last.leadHalf).set (s.idx tailCol cl.row)
      last.tailHalf) = padded (cols * rows) (above ++ widenLast l.cells) := by
    have hsame : (above ++ l.cells).length = ((above ++ init) ++ [last.leadHalf]).length := by
      rw [hlast, ← List.append_assoc]
      exact (length_snoc _ _).trans (length_snoc _ _).symm
    rw [hstart, hspot, hlead.2, hnext, hsame, padded_set (by omega), hwiden, List.append_assoc,
      List.append_assoc]
    rfl
  have hread : ({ s with panicked } : Screen).cellAt (s.idx cl.col cl.row) = last := by
    rw [Screen.cellAt, hspot]
    change s.cells.getD _ _ = last
    rw [hstart, hlead.1]
  have hle : s.cursorCol ≤ tailCol :=
    UInt16.le_iff_toNat_le.mpr (Nat.le_of_eq (hcursor.trans htail.symm))
  unfold widenCluster at hsound ⊢
  dsimp only at hsound ⊢
  rw [hsmash] at hsound ⊢
  obtain ⟨damageRow0, damageRow1, hdirty⟩ := dirty_eq (setOpenCluster _ _) cl.row
  rw [hdirty] at hsound ⊢
  have hmoves : (decide (s.cursorCol ≤ tailCol) && decide (s.cursorRow = cl.row)) = true := by
    rw [decide_eq_true hle, decide_eq_true hopens.row.symm]
    rfl
  split at hsound
  case isFalse hstays => exact absurd hmoves hstays
  case isTrue hmoved =>
    rw [if_pos hmoved]
    have hwider : cl.col.toNat + 2 = (widenLast l.cells).length := by rw [hlen, ← hcol]
    refine of_advance hsound h.sound.cols_eq h.autowrap h.bottom h.start
      ?_ ?_ ?_ rfl rfl ⟨hopens.row, hwider, rfl, hopens.afterZwj, hopens.lastWasRi⟩
    · exact (congrArg (fun c : Cell => (s.cells.set (s.idx cl.col cl.row) c.leadHalf).set
        (s.idx tailCol cl.row) c.tailHalf) hread).trans hcells
    · exact (congrArg (· + 1) htail).trans hlen.symm
    · rw [hlen]
      exact hfit

theorem append (h : Typing cols rows above l s) {prev : Char} {wide : Bool}
    (hcluster : l.cluster = some (prev, wide)) {c : Char} {t : Screen}
    (happend : s.appendToCluster c = some t) : Typing cols rows above ⟨l.cells, some (c, wide)⟩ t := by
  obtain ⟨cl, hopen, hopens⟩ := h.opened prev wide hcluster
  obtain ⟨graphemeTruncated, damageRow0, damageRow1, len, heq⟩ := appendToCluster_eq hopen c
  obtain rfl := Option.some.inj (happend.symm.trans heq)
  refine ⟨?_, h.autowrap, h.bottom, h.start, h.fits, h.cells, h.pending, h.column, nofun, ?_⟩
  · refine { h.sound with cluster_lt := ?_ }
    rintro - _ ⟨⟩
    exact h.sound.cluster_lt trivial cl hopen
  · intro p w hp
    obtain ⟨rfl, rfl⟩ := Prod.mk.inj (Option.some.inj hp)
    exact ⟨_, rfl, hopens.row, hopens.col, hopens.width, rfl, rfl⟩

theorem join (h : Typing cols rows above l s) (hl : l.Tidy) {prev : Char} {wide : Bool}
    (hcluster : l.cluster = some (prev, wide)) (c : Char)
    (hfit : (l.join wide c).cells.length ≤ cols) {t : Screen} (happend : s.appendToCluster c = some t) :
    Typing cols rows above (l.join wide c)
      (if isRegionalIndicator c then t.maybeExpandRiPair else t) := by
  have ht := h.append hcluster happend
  split
  case isFalse hri =>
    have hjoin : l.join wide c = ⟨l.cells, some (c, wide)⟩ := if_neg (by simp [hri])
    rwa [hjoin]
  case isTrue hri =>
    cases wide with
    | false =>
      have hjoin : l.join false c = ⟨widenLast l.cells, some (c, true)⟩ := if_pos (by simp [hri])
      obtain ⟨last, hlast, -⟩ := hl prev hcluster
      have hne : l.cells ≠ [] := fun k => by simp [k] at hlast
      rw [hjoin] at hfit ⊢
      refine ht.widen rfl ?_
      rwa [← Line.length_widenLast hne]
    | true =>
      have hjoin : l.join true c = ⟨l.cells, some (c, true)⟩ := if_neg (by simp)
      obtain ⟨cl, hopen, hopens⟩ := ht.opened c true rfl
      have hwide : cl.width ≥ 2 := by
        rw [hopens.width]
        decide
      rw [hjoin]
      unfold maybeExpandRiPair
      rw [hopen]
      dsimp only
      rwa [if_pos hwide]

theorem withPen (h : Typing cols rows above l s) (p : Pen) : Typing cols rows above l (s.withPen p) where
  sound := { h.sound with }
  autowrap := h.autowrap
  bottom := h.bottom
  start := h.start
  fits := h.fits
  cells := h.cells
  pending := h.pending
  column := h.column
  closed := h.closed
  opened := fun prev wide hcluster =>
    have ⟨cl, hopen, hopens⟩ := h.opened prev wide hcluster
    ⟨cl, hopen, ⟨hopens.row, hopens.col, hopens.width, hopens.afterZwj, hopens.lastWasRi⟩⟩

/-- A scalar is typed on the screen as it is on the line. -/
theorem print (h : Typing cols rows above l s) (hl : l.Tidy) (c : Char)
    (hfit : (l.type s.pen c).cells.length ≤ cols) :
    Typing cols rows above (l.type s.pen c) (s.print c) := by
  have happend := h.shouldAppend c
  unfold Screen.print writeChar
  unfold Line.type at hfit ⊢
  cases hcluster : l.cluster with
  | none =>
    rw [hcluster] at hfit happend
    rw [happend]
    exact h.place c hfit
  | some cl =>
    obtain ⟨prev, wide⟩ := cl
    rw [hcluster] at hfit happend
    rw [happend]
    dsimp only [Option.map_some, Option.getD_some] at hfit ⊢
    by_cases hjoins : joinsAfter prev c = true
    · obtain ⟨_, hopen, -⟩ := h.opened prev wide hcluster
      obtain ⟨_, _, _, _, heq⟩ := appendToCluster_eq hopen c
      rw [if_pos hjoins] at hfit
      rw [if_pos hjoins, if_pos hjoins, heq]
      exact h.join hl hcluster c hfit heq
    · rw [if_neg hjoins] at hfit
      rw [if_neg hjoins, if_neg hjoins]
      exact h.place c hfit

theorem typeCell (h : Typing cols rows above l s) (hl : l.Tidy) (cell : Cell)
    (hfit : (l.typeCell cell).cells.length ≤ cols) :
    Typing cols rows above (l.typeCell cell) (s.typeCell cell) := by
  unfold Line.typeCell at hfit ⊢
  unfold Screen.typeCell
  split
  case isTrue => exact h.withPen _
  case isFalse hhalf =>
    rw [if_neg hhalf] at hfit
    exact (h.withPen cell.pen).print hl cell.char hfit

theorem typeCells (ink : List Cell) (h : Typing cols rows above l s) (hl : l.Tidy)
    (hfit : (l.typeCells ink).cells.length ≤ cols) :
    Typing cols rows above (l.typeCells ink) (s.typeCells ink) := by
  unfold Screen.typeCells
  induction ink generalizing l s with
  | nil => exact h
  | cons cell ink ih =>
    have hfirst : (l.typeCell cell).cells.length ≤ cols :=
      Nat.le_trans ((l.typeCell cell).length_le_typeCells ink) hfit
    exact ih (h.typeCell hl cell hfirst) (Line.tidy_typeCell hl cell) hfit

-- ---------------------------------------------------------------------------
-- Rows
-- ---------------------------------------------------------------------------

theorem padded_append {n : Nat} {cells : List Cell} (h : cells.length ≤ cols)
    (hn : above.length + cols ≤ n) :
    padded n (above ++ padded cols cells) = padded n (above ++ cells) := by
  have hk : n - (above ++ cells).length =
      (cols - cells.length) + (n - (above ++ padded cols cells).length) := by
    rw [List.length_append, List.length_append, length_padded h]
    omega
  rw [padded, padded.eq_def n (above ++ cells), hk, ← List.replicate_append_replicate]
  simp only [padded.eq_def cols, List.append_assoc]

/-- CR, LF and the reset pen begin the next line. -/
theorem index_of_lt {t : Screen} (h : t.cursorRow < t.scrollBottom) :
    t.index = { t with cursorRow := t.cursorRow + 1 } := if_pos h

theorem nextRow (h : Typing cols rows above l s) (hrow : s.cursorRow.toNat + 1 < rows) :
    Typing cols rows (above ++ padded cols l.cells) .empty s.nextRow := by
  have hsound := (h.sound.execute 0x0d).execute 0x0a
  have hindex : s.cursorRow < s.scrollBottom := by
    rw [UInt16.lt_iff_toNat_lt]
    have hbottom := h.bottom
    omega
  have hreturn : s.execute 0x0d = { s with pendingWrap := false, openCluster := none, cursorCol := 0 } := rfl
  have hfeed : ∀ t : Screen, t.execute 0x0a = (t.clearPendingWrap.setOpenCluster none).index := fun _ => rfl
  have heq : (s.execute 0x0d).execute 0x0a = { s with
      pendingWrap := false, openCluster := none, cursorCol := 0, cursorRow := s.cursorRow + 1 } := by
    rw [hreturn, hfeed]
    exact index_of_lt hindex
  have hsucc : (s.cursorRow + 1).toNat = s.cursorRow.toNat + 1 :=
    toNat_succ16 (b := s.scrollBottom) (UInt16.lt_iff_toNat_lt.mp hindex)
  have hspan := row_span_le cols h.sound.cursorRow_lt
  rw [heq] at hsound
  unfold Screen.nextRow
  rw [heq]
  refine ⟨{ hsound with }, h.autowrap, h.bottom, ?_, Nat.zero_le _, ?_, nofun, fun _ => rfl,
    fun _ => rfl, fun _ _ hcluster => absurd hcluster.symm (Option.some_ne_none _)⟩
  · change _ = (s.cursorRow + 1).toNat * cols
    rw [List.length_append, length_padded h.fits, hsucc, h.start, Nat.succ_mul]
  · change s.cells = padded (cols * rows) (above ++ padded cols l.cells ++ [])
    rw [List.append_nil, padded_append h.fits (by rw [h.start]; exact hspan), h.cells]

end Typing

def typedRow (e : Screen) (r : Nat) : List Cell := (Line.empty.typeCells (e.inkOfRow r)).cells

def gridOf (rows : Nat) (row : Nat → List Cell) : List Cell := (List.range rows).flatMap row

theorem gridOf_succ (k : Nat) (row : Nat → List Cell) :
    gridOf (k + 1) row = gridOf k row ++ row k := by
  rw [gridOf, List.range_succ, List.flatMap_append, List.flatMap_singleton]
  rfl

theorem length_gridOf {cols k : Nat} {row : Nat → List Cell} (h : ∀ r < k, (row r).length = cols) :
    (gridOf k row).length = k * cols := by
  induction k with
  | zero => exact (Nat.zero_mul cols).symm
  | succ k ih =>
    rw [gridOf_succ, List.length_append, ih fun r hr => h r (by omega), h k (by omega), Nat.succ_mul]

theorem gridOf_inj {cols k : Nat} {row row' : Nat → List Cell} (h : ∀ r < k, (row r).length = cols)
    (h' : ∀ r < k, (row' r).length = cols) :
    gridOf k row = gridOf k row' ↔ ∀ r < k, row r = row' r := by
  induction k with
  | zero => exact ⟨fun _ _ hr => absurd hr (Nat.not_lt_zero _), fun _ => rfl⟩
  | succ k ih =>
    have ih := ih (fun r hr => h r (by omega)) fun r hr => h' r (by omega)
    have hlen : (gridOf k row).length = (gridOf k row').length := by
      rw [length_gridOf fun r hr => h r (by omega), length_gridOf fun r hr => h' r (by omega)]
    rw [gridOf_succ, gridOf_succ]
    refine ⟨fun heq r hr => ?_, fun hall => ?_⟩
    · obtain ⟨hbefore, hlast⟩ := List.append_inj heq hlen
      obtain hlt | rfl := Nat.lt_or_eq_of_le (Nat.le_of_lt_succ hr)
      · exact ih.mp hbefore r hlt
      · exact hlast
    · rw [ih.mpr fun r hr => hall r (by omega), hall k (by omega)]

namespace Typing

variable {cols rows : Nat} {e s : Screen}

theorem typeRows (h : Typing cols rows [] .empty s) (hrows : e.rows.toNat = rows)
    (hfit : ∀ r < rows, (typedRow e r).length ≤ cols) (k : Nat) (hk : k < rows) :
    Typing cols rows (gridOf k fun r => padded cols (typedRow e r)) .empty
      (e.typeRows s (List.range k)) := by
  induction k with
  | zero => exact h
  | succ k ih =>
    have htyped := (ih (by omega)).typeCells (e.inkOfRow k) Line.tidy_empty (hfit k (by omega))
    have hrow := htyped.start
    rw [length_gridOf fun r hr => length_padded (hfit r (by omega))] at hrow
    have hrow := Nat.eq_of_mul_eq_mul_right h.sound.cols_pos hrow
    rw [List.range_succ, typeRows_append, gridOf_succ]
    dsimp only [Screen.typeRows]
    rw [if_pos (by omega)]
    exact htyped.nextRow (by omega)

theorem cells_typeRows (h : Typing cols rows [] .empty s) (hrows : e.rows.toNat = rows)
    (hfit : ∀ r < rows, (typedRow e r).length ≤ cols) :
    (e.typeRows s (List.range rows)).cells = gridOf rows fun r => padded cols (typedRow e r) := by
  obtain ⟨n, rfl⟩ := Nat.exists_eq_succ_of_ne_zero (Nat.ne_of_gt h.sound.rows_pos)
  have hbefore := h.typeRows hrows hfit n (Nat.lt_succ_self n)
  have htyped := hbefore.typeCells (e.inkOfRow n) Line.tidy_empty (hfit n (Nat.lt_succ_self n))
  have hlen := length_gridOf (k := n) fun r hr => length_padded (hfit r (by omega))
  have hfull : cols * (n + 1) - ((gridOf n fun r => padded cols (typedRow e r)) ++
      padded cols (typedRow e n)).length = 0 := by
    rw [List.length_append, hlen, length_padded (hfit n (Nat.lt_succ_self n)), Nat.mul_succ,
      Nat.mul_comm]
    omega
  rw [List.range_succ, typeRows_append]
  dsimp only [Screen.typeRows]
  rw [if_neg (by omega), htyped.cells]
  change padded (cols * (n + 1)) (gridOf n (fun r => padded cols (typedRow e r)) ++ typedRow e n) = _
  rw [gridOf_succ, ← padded_append (hfit n (Nat.lt_succ_self n)), padded, hfull, List.replicate_zero,
    List.append_nil]
  exact Nat.le_of_eq (by rw [hlen, Nat.mul_succ, Nat.mul_comm])

end Typing

-- ---------------------------------------------------------------------------
-- The picture
-- ---------------------------------------------------------------------------

namespace Screen

theorem take_rows (cells : List Cell) (cols k : Nat) :
    cells.take (k * cols) = gridOf k fun r => (cells.drop (r * cols)).take cols := by
  induction k with
  | zero => rw [Nat.zero_mul, List.take_zero]; rfl
  | succ k ih => rw [gridOf_succ, Nat.succ_mul, List.take_add, ih]

/-- A sound grid is its rows. -/
theorem cells_eq_gridOf {s : Screen} {cols rows : Nat} (h : Sound strict cols rows s) :
    s.cells = gridOf rows (fun r => padded cols (s.inkOfRow r)) ∧
      ∀ r < rows, (s.inkOfRow r).length ≤ cols := by
  have hrow : ∀ r < rows, s.rowCells r = padded cols (s.inkOfRow r) ∧
      (s.inkOfRow r).length ≤ cols := by
    intro r hr
    have hspan := row_span_le cols hr
    have hlen : (s.rowCells r).length = s.cols.toNat := by
      rw [rowCells, List.length_take, List.length_drop, h.cols_eq, h.length_cells]
      omega
    have heq := s.rowCells_eq hlen
    rwa [h.cols_eq] at heq
  refine ⟨?_, fun r hr => (hrow r hr).2⟩
  have hall := take_rows s.cells cols rows
  rw [List.take_of_length_le (Nat.le_of_eq (h.length_cells.trans (Nat.mul_comm _ _)))] at hall
  have hlens : ∀ r < rows, ((s.cells.drop (r * cols)).take cols).length = cols := by
    intro r hr
    have hspan := row_span_le cols hr
    rw [List.length_take, List.length_drop, h.length_cells]
    omega
  rw [hall]
  refine (gridOf_inj hlens fun r hr => length_padded (hrow r hr).2).mpr fun r hr => ?_
  have heq := (hrow r hr).1
  rwa [rowCells, h.cols_eq] at heq

/-- A blank screen with the cursor at home has nothing typed on it. -/
theorem typing_blank {s : Screen} {cols rows : Nat} (hsound : Sound True cols rows s)
    (hauto : s.autowrap = true) (hbottom : s.scrollBottom.toNat + 1 = rows)
    (hcells : ∀ c ∈ s.cells, c = Cell.blank .default)
    (hhome : s.cursorRow = 0 ∧ s.cursorCol = 0 ∧ s.pendingWrap = false ∧ s.openCluster = none) :
    Typing cols rows [] .empty s where
  sound := hsound
  autowrap := hauto
  bottom := hbottom
  start := by
    rw [hhome.1]
    exact (Nat.zero_mul cols).symm
  fits := Nat.zero_le _
  cells := List.eq_replicate_iff.mpr ⟨hsound.length_cells, hcells⟩
  pending h := absurd (hhome.2.2.1.symm.trans h) (by decide)
  column _ := by
    rw [hhome.2.1]
    rfl
  closed _ := hhome.2.2.2
  opened := nofun

/-- An erased display is blank in the pen's background. -/
theorem mem_eraseDisplay_all {s : Screen} {cols rows : Nat} (hs : Sound strict cols rows s) {c : Cell}
    (h : c ∈ (s.eraseDisplay 2).cells) : c = Cell.blank s.penBg := by
  have hlen := (hs.smashSpan 0 s.cells.length).length_cells
  have hpen := ((Draws.refl s).smashSpan 0 s.cells.length).congr Screen.penBg fun _ _ => rfl
  have hcells : (s.eraseDisplay 2).cells =
      ((s.smashSpan 0 s.cells.length).blankCells 0 s.cells.length).cells := by
    unfold eraseDisplay eraseSpan
    rw [if_neg (by decide), if_neg (by decide)]
    dsimp only [damageAll]
    rw [Nat.min_self, Nat.zero_min]
    split
    · exact (agree_dirtyRows _ _ _).cells
    · rfl
  rw [hcells] at h
  obtain ⟨i, hi, rfl⟩ := List.mem_mapIdx.mp h
  rw [hlen, ← hs.length_cells] at hi
  exact (if_pos ⟨Nat.zero_le i, hi⟩).trans (congrArg Cell.blank hpen)

theorem min_zero16 (a : UInt16) : min 0 a = 0 := by
  apply UInt16.toNat_inj.mp
  rw [toNat_min16, UInt16.toNat_zero, Nat.zero_min]

theorem typing_typingOn (e : Screen) {s : Screen} {cols rows : UInt16}
    (h : Screen.new cols rows = .ok s) :
    Typing cols.toNat rows.toNat [] .empty (e.typingOn s) := by
  have hsound : Sound True cols.toNat rows.toNat s := sound_new h
  have hpos := hsound.rows_pos
  have hnew : s.autowrap = true ∧ s.scrollBottom = satSub16 rows 1 ∧ s.penBg = .default := by
    unfold Screen.new at h
    split at h
    · exact nomatch h
    · cases h
      exact ⟨rfl, rfl, rfl⟩
  have herased := hsound.csiDispatch [2] 'J'
  have herase := (Draws.refl s).eraseDisplay 2
  have hpen : (s.eraseDisplay 2).penBg = .default :=
    (herase.congr Screen.penBg fun _ _ => rfl).trans hnew.2.2
  have hauto := (herase.congr Screen.autowrap fun _ _ => rfl).trans hnew.1
  have hbottom : (s.eraseDisplay 2).scrollBottom.toNat + 1 = rows.toNat := by
    rw [herase.congr Screen.scrollBottom fun _ _ => rfl, hnew.2.1, toNat_satSub16, UInt16.toNat_one]
    omega
  have hblank : ∀ c ∈ (s.eraseDisplay 2).cells, c = Cell.blank .default := fun c hc => by
    rw [mem_eraseDisplay_all hsound hc, hnew.2.2]
  have hhomed := herased.csiDispatch [] 'H'
  have hstart : Typing cols.toNat rows.toNat [] .empty ((s.csiDispatch [2] 'J').csiDispatch [] 'H') :=
    typing_blank hhomed hauto hbottom hblank ⟨min_zero16 _, min_zero16 _, rfl, rfl⟩
  unfold typingOn
  dsimp only
  refine Typing.withPen ?_ _
  split
  case isFalse => exact hstart
  case isTrue =>
    have hcleared : ∀ t : Screen, t.penBg = .default → ∀ c ∈ (t.enterAlt true true).cells,
        c = Cell.blank .default := by
      intro t ht c hc
      have hsaved : (if !t.inAlt then t.saveGrid true else t).penBg = t.penBg := by
        split <;> rfl
      rw [List.eq_of_mem_replicate hc, hsaved, ht]
    have hkept : ∀ t : Screen, (t.enterAlt true true).autowrap = t.autowrap ∧
        (t.enterAlt true true).scrollBottom = t.scrollBottom := by
      intro t
      unfold enterAlt
      cases t.inAlt <;> exact ⟨rfl, rfl⟩
    refine typing_blank (hstart.sound.privateModeOne true 1049) ((hkept _).1.trans hauto) ?_
      (hcleared _ hpen) ⟨min_zero16 _, min_zero16 _, rfl, rfl⟩
    exact (congrArg (fun b : UInt16 => b.toNat + 1) (hkept _).2).trans hbottom

theorem cells_cup (s : Screen) (row col : UInt16) : (s.csiDispatch [row, col] 'H').cells = s.cells := rfl

theorem cells_hideCursor (s : Screen) : (s.privateMode [25] false).cells = s.cells := rfl

/-- The picture as it is typed, with the cursor where the picture has it. -/
theorem resyncOn_picture {e s : Screen} {cols rows : UInt16} (h : Screen.new cols rows = .ok s)
    (he : Sound True cols.toNat rows.toNat e)
    (hfit : ∀ r < rows.toNat, (typedRow e r).length ≤ cols.toNat) :
    (e.resyncOn s).cells = gridOf rows.toNat fun r => padded cols.toNat (typedRow e r) := by
  have htyping := typing_typingOn e h
  have hcells := htyping.cells_typeRows he.rows_eq hfit
  rw [← he.rows_eq] at hcells ⊢
  rw [resyncOn, typeScreen]
  split
  case isTrue => rwa [cells_cup]
  case isFalse => rwa [cells_hideCursor, cells_cup]

end Screen

end Rill.Vt