import Rill.Vt.Usable

/-!
# Damage

Between two snapshots every row whose cells change is a row of the damage range,
or the whole grid is reported. Each operation that writes cells reports their
rows after it has written them; `Changes` says which are still to be reported.
-/

namespace Rill.Vt

open Lib

-- ---------------------------------------------------------------------------
-- Rows of a grid
-- ---------------------------------------------------------------------------

theorem row_of {r cols i : Nat} (hlo : r * cols ≤ i) (hhi : i < r * cols + cols) : i / cols = r :=
  Nat.div_eq_of_lt_le hlo (by rwa [Nat.succ_mul])

theorem row_of_add {c cols : Nat} (r : Nat) (h : c < cols) : (r * cols + c) / cols = r :=
  row_of (Nat.le_add_right _ _) (Nat.add_lt_add_left h _)

namespace Screen

def Damaged (s : Screen) (r : Nat) : Prop :=
  s.fullDamage = true ∨ s.damageRow0.toNat ≤ r ∧ r ≤ s.damageRow1.toNat

structure Framed (s : Screen) : Prop where
  length_cells : s.cells.length = s.cols.toNat * s.rows.toNat
  length_saved : ∀ grid, s.savedGrid = some grid → grid.length = s.cols.toNat * s.rows.toNat
  cursorCol_lt : s.cursorCol.toNat < s.cols.toNat

theorem Framed.lastCol_lt {s : Screen} (h : s.Framed) : s.lastCol.toNat < s.cols.toNat :=
  toNat_satSub16_one_lt (Nat.zero_lt_of_lt h.cursorCol_lt)

theorem Framed.min_lastCol_lt {s : Screen} (h : s.Framed) (col : UInt16) :
    (min col s.lastCol).toNat < s.cols.toNat := by
  have hlast := h.lastCol_lt
  rw [toNat_min16]
  omega

/-- No range reaches past the last word: there only a full report counts. -/
theorem full_of_damaged {s : Screen} (h : s.Damaged 65536) : s.fullDamage = true := by
  obtain hfull | ⟨-, hle⟩ := h
  · exact hfull
  · have hlt := s.damageRow1.toNat_lt
    omega

/-- `dirty` reports its row and goes on reporting the others, an empty range (its
first row past its last) having none. -/
theorem damaged_dirty {s : Screen} {row : UInt16} {r : Nat} (h : s.Damaged r ∨ r = row.toNat) :
    (s.dirty row).Damaged r := by
  unfold Screen.dirty
  split
  case isTrue hfull => exact .inl hfull
  case isFalse hfull =>
    split
    case isTrue hempty =>
      rw [gt_iff_lt, UInt16.lt_iff_toNat_lt] at hempty
      obtain (hf | hrange) | rfl := h
      · exact absurd hf hfull
      · omega
      · exact .inr ⟨Nat.le_refl _, Nat.le_refl _⟩
    case isFalse =>
      have hmax : (max row s.damageRow1).toNat = max row.toNat s.damageRow1.toNat := by
        change (if row ≤ s.damageRow1 then s.damageRow1 else row).toNat = _
        split
        case isTrue hle =>
          have hle := UInt16.le_iff_toNat_le.mp hle
          omega
        case isFalse hle =>
          have hle : ¬ row.toNat ≤ s.damageRow1.toNat := fun k => hle (UInt16.le_iff_toNat_le.mpr k)
          omega
      refine .inr ?_
      dsimp only
      rw [toNat_min16, hmax]
      obtain (hf | hrange) | rfl := h
      · exact absurd hf hfull
      · omega
      · omega

theorem dirty_eq (s : Screen) (row : UInt16) :
    ∃ lo hi, s.dirty row = { s with damageRow0 := lo, damageRow1 := hi } := by
  unfold Screen.dirty
  split
  case isTrue => exact ⟨s.damageRow0, s.damageRow1, rfl⟩
  case isFalse =>
    split
    case isTrue => exact ⟨_, _, rfl⟩
    case isFalse => exact ⟨_, _, rfl⟩

/-- Drawing after which the rows whose cells differ have been reported, or are among the rows
`R` that are yet to be. On the alternate screen no row leaves for the history. -/
structure Changes (R : Nat → Prop) (s t : Screen) : Prop where
  draws : Draws s t
  framed : t.Framed
  grows : ∀ r, s.Damaged r → t.Damaged r
  changed : ∀ i, t.cells[i]? ≠ s.cells[i]? → t.Damaged (i / s.cols.toNat) ∨ R (i / s.cols.toNat)
  scrolledOff : s.inAlt = true → t.scrolledOff = s.scrolledOff

namespace Changes

variable {R Q : Nat → Prop} {s t : Screen}

-- ---------------------------------------------------------------------------
-- Rules
-- ---------------------------------------------------------------------------

theorem refl (h : s.Framed) : Changes R s s where
  draws := .refl s
  framed := h
  grows _ hr := hr
  changed _ hne := absurd rfl hne
  scrolledOff _ := rfl

theorem cols (h : Changes R s t) : t.cols = s.cols := h.draws.cols

theorem rows (h : Changes R s t) : t.rows = s.rows := h.draws.congr Screen.rows fun _ _ => rfl

theorem mono (h : Changes R s t) (hR : ∀ r, R r → Q r) : Changes Q s t :=
  { h with changed := fun i hne => (h.changed i hne).imp id (hR _) }

theorem opening (h : Changes R s t) (Q : Nat → Prop) : Changes (fun r => R r ∨ Q r) s t :=
  h.mono fun _ => .inl

theorem ite {c : Prop} [Decidable c] {a b : Screen} (ha : c → Changes R s a)
    (hb : ¬ c → Changes R s b) : Changes R s (if c then a else b) := by
  split
  case isTrue hc => exact ha hc
  case isFalse hc => exact hb hc

theorem foldl {f : Screen → α → Screen} (l : List α)
    (hf : ∀ t, ∀ a ∈ l, Changes R s t → Changes R s (f t a)) (h : Changes R s t) :
    Changes R s (l.foldl f t) :=
  List.foldlRecOn l f h fun t ht a ha => hf t a ha ht

theorem iterate {f : Screen → Screen} (hf : ∀ t, Changes R s t → Changes R s (f t))
    (h : Changes R s t) (n : Nat) : Changes R s (n.repeat f t) :=
  repeat_keeps hf h n

theorem write (h : Changes R s t) {cells : List Cell} {panicked : Bool}
    (hlength : cells.length = t.cells.length)
    (hrows : ∀ i, cells[i]? ≠ t.cells[i]? → R (i / t.cols.toNat)) :
    Changes R s { t with cells, panicked } where
  draws := h.draws.trans rfl
  framed := { h.framed with length_cells := hlength.trans h.framed.length_cells }
  grows := h.grows
  changed i hne := by
    by_cases hi : cells[i]? = t.cells[i]?
    · exact h.changed i (hi ▸ hne)
    · exact .inr (h.cols ▸ hrows i hi)
  scrolledOff := h.scrolledOff

-- ---------------------------------------------------------------------------
-- Cells
-- ---------------------------------------------------------------------------

theorem touch (h : Changes R s t) (i : Nat) : Changes R s (t.touch i) :=
  { h with draws := h.draws.touch i, framed := { h.framed with } }

theorem setCell (h : Changes R s t) {i : Nat} (hrow : R (i / t.cols.toNat)) (c : Cell) :
    Changes R s (t.setCell i c) := by
  refine h.write List.length_set fun j hne => ?_
  by_cases hj : i = j
  · exact hj ▸ hrow
  · exact absurd (List.getElem?_set_ne hj) hne

theorem mapRange (h : Changes R s t) {lo hi : Nat} {panicked : Bool} {f : Nat → Cell → Cell}
    (hrows : ∀ i, lo ≤ i → i < hi → R (i / t.cols.toNat)) :
    Changes R s { t with
      cells := t.cells.mapIdx fun i cell => if lo ≤ i ∧ i < hi then f i cell else cell
      panicked } := by
  refine h.write List.length_mapIdx fun i hne => ?_
  by_cases hi : lo ≤ i ∧ i < hi
  · exact hrows i hi.1 hi.2
  · refine absurd ?_ hne
    rw [List.getElem?_mapIdx]
    simp only [if_neg hi, Option.map_id']

theorem copyWithin (h : Changes R s t) {lo hi dst : Nat}
    (hrows : ∀ i, dst ≤ i → i < dst + (hi - lo) → R (i / t.cols.toNat)) :
    Changes R s (t.copyWithin lo hi dst) := h.mapRange hrows

theorem blankCells (h : Changes R s t) {lo hi : Nat}
    (hrows : ∀ i, lo ≤ i → i < hi → R (i / t.cols.toNat)) : Changes R s (t.blankCells lo hi) :=
  h.mapRange hrows

theorem copyRow (h : Changes R s t) (src : Nat) {r : Nat} (hr : R r) : Changes R s (t.copyRow src r) :=
  h.copyWithin fun _ hlo hhi => row_of hlo (by omega) ▸ hr

theorem copyRows (h : Changes R s t) {moves : List (Nat × Nat)} (hm : ∀ m ∈ moves, R m.2) :
    Changes R s (t.copyRows moves) := foldl moves (fun _ m hmem h => h.copyRow m.1 (hm m hmem)) h

theorem blankRow (h : Changes R s t) {r : Nat} (hr : R r) : Changes R s (t.blankRow r) :=
  h.blankCells fun _ hlo hhi => row_of hlo hhi ▸ hr

theorem blankRows (h : Changes R s t) {first n : Nat} (hr : ∀ r, first ≤ r → r < first + n → R r) :
    Changes R s (t.blankRows first n) := by
  refine foldl _ (fun _ r hmem h => h.blankRow ?_) h
  rw [List.mem_range'_1] at hmem
  exact hr r hmem.1 hmem.2

-- ---------------------------------------------------------------------------
-- Reports
-- ---------------------------------------------------------------------------

/-- A report of rows, after which those of `Q` it has not named are still to come. -/
theorem report (h : Changes Q s t) {fullDamage : Bool} {damageRow0 damageRow1 : UInt16}
    (hgrows : ∀ r, t.Damaged r → { t with fullDamage, damageRow0, damageRow1 }.Damaged r)
    (hQ : ∀ r, Q r → { t with fullDamage, damageRow0, damageRow1 }.Damaged r ∨ R r) :
    Changes R s { t with fullDamage, damageRow0, damageRow1 } where
  draws := h.draws.trans rfl
  framed := { h.framed with }
  grows r hr := hgrows r (h.grows r hr)
  changed i hne := (h.changed i hne).elim (fun hr => .inl (hgrows _ hr)) (hQ _)
  scrolledOff := h.scrolledOff

theorem damageAll (h : Changes Q s t) : Changes R s t.damageAll :=
  h.report (fun _ _ => .inl rfl) fun _ _ => .inl (.inl rfl)

theorem dirty {row : UInt16} (h : Changes (fun r => R r ∨ r = row.toNat) s t) :
    Changes R s (t.dirty row) := by
  obtain ⟨lo, hi, heq⟩ := dirty_eq t row
  have hdamaged : ∀ r, t.Damaged r ∨ r = row.toNat → (t.dirty row).Damaged r :=
    fun _ => damaged_dirty
  rw [heq] at hdamaged ⊢
  refine h.report (fun r hr => hdamaged r (.inl hr)) fun r hr => ?_
  exact hr.elim .inr fun hrow => .inl (hdamaged r (.inr hrow))

theorem dirtyEach (l : List Nat) (hl : ∀ r ∈ l, r < 65536)
    (h : Changes (fun r => R r ∨ r ∈ l) s t) :
    Changes R s (l.foldl (fun s r => s.dirty (UInt16.ofNat r)) t) := by
  induction l generalizing t with
  | nil => exact h.mono fun _ hr => hr.elim id fun hmem => absurd hmem List.not_mem_nil
  | cons a l ih =>
    refine ih (fun r hr => hl r (List.mem_cons_of_mem a hr)) (dirty (h.mono fun r hr => ?_))
    have ha : (UInt16.ofNat a).toNat = a :=
      UInt16.toNat_ofNat_of_lt' (hl a List.mem_cons_self)
    rw [ha, or_assoc, or_comm (a := r ∈ l), ← List.mem_cons]
    exact hr

theorem dirtyRows {first last : Nat} (hlast : last < 65536)
    (h : Changes (fun r => R r ∨ first ≤ r ∧ r ≤ last) s t) : Changes R s (t.dirtyRows first last) := by
  refine dirtyEach _ (fun r hr => ?_) (h.mono fun r hr => hr.imp id fun hr => ?_)
  · rw [List.mem_range'_1] at hr
    omega
  · rw [List.mem_range'_1]
    omega

-- ---------------------------------------------------------------------------
-- Scrolling and cursor
-- ---------------------------------------------------------------------------

theorem steer (h : Changes R s t) {cursorCol cursorRow : UInt16} {pendingWrap : Bool}
    {openCluster : Option OpenCluster} {graphemeTruncated : UInt32}
    (hcol : cursorCol.toNat < t.cols.toNat) :
    Changes R s { t with cursorCol, cursorRow, pendingWrap, openCluster, graphemeTruncated } :=
  { h with draws := h.draws.trans rfl, framed := { h.framed with cursorCol_lt := hcol } }

theorem clearPendingWrap (h : Changes R s t) : Changes R s t.clearPendingWrap :=
  h.steer h.framed.cursorCol_lt

theorem setCursorCol (h : Changes R s t) (col : UInt16) (hcol : col.toNat < t.cols.toNat) :
    Changes R s (t.setCursorCol col) := h.steer hcol

theorem setOpenCluster (h : Changes R s t) (cluster : Option OpenCluster) :
    Changes R s (t.setOpenCluster cluster) := h.steer h.framed.cursorCol_lt

theorem setCursor (h : Changes R s t) (row col : UInt16) : Changes R s (t.setCursor row col) :=
  h.steer (h.framed.min_lastCol_lt col)

theorem advanceAfterWidth (h : Changes R s t) (width : UInt16) :
    Changes R s (t.advanceAfterWidth width) :=
  ite (fun hc => h.steer (UInt16.lt_iff_toNat_lt.mp hc)) fun _ => h.steer h.framed.lastCol_lt

theorem countTruncated (h : Changes R s t) (len : UInt8) : Changes R s (t.countTruncated len) :=
  ite (fun _ => h.steer h.framed.cursorCol_lt) fun _ => h

/-- On the primary screen alone is a row kept. -/
theorem retireRow (h : Changes R s t) (row : Nat) : Changes R s (t.retireRow row) := by
  refine ite (fun hc => ?_) fun _ => h
  exact { h with
    draws := h.draws.trans rfl
    framed := { h.framed with }
    scrolledOff := fun halt => by
      have hin : t.inAlt = s.inAlt := h.draws.congr Screen.inAlt fun _ _ => rfl
      simp [hin, halt] at hc }

theorem scrollUp (h : Changes R s t) : Changes R s t.scrollUp := by
  have hall : Changes (fun _ => True) s t := h.mono fun _ _ => trivial
  exact (((hall.retireRow _).copyRows fun _ _ => trivial).blankRow trivial).damageAll

theorem scrollDown (h : Changes R s t) : Changes R s t.scrollDown := by
  have hall : Changes (fun _ => True) s t := h.mono fun _ _ => trivial
  exact ((hall.copyRows fun _ _ => trivial).blankRow trivial).damageAll

theorem index (h : Changes R s t) : Changes R s t.index :=
  ite (fun _ => h.steer h.framed.cursorCol_lt) fun _ => h.scrollUp

theorem reverseIndex (h : Changes R s t) : Changes R s t.reverseIndex :=
  ite (fun _ => h.steer h.framed.cursorCol_lt) fun _ => h.scrollDown

-- ---------------------------------------------------------------------------
-- Printing
-- ---------------------------------------------------------------------------

theorem wrapIfNeededWidth (h : Changes R s t) (width : UInt16) :
    Changes R s (t.wrapIfNeededWidth width) :=
  ite (fun _ => h) fun _ => ite (fun _ => h.clearPendingWrap) fun _ =>
    (h.clearPendingWrap.setCursorCol 0 (Nat.zero_lt_of_lt h.framed.cursorCol_lt)).index

theorem smashHalf (h : Changes R s t) {found : Bool} {other : Nat}
    (hrow : found = true → R (other / t.cols.toNat)) (attr : UInt16) :
    Changes R s (t.smashHalf found other attr) :=
  ite (fun hf => ite (fun _ => (h.touch _).setCell (hrow hf) _) fun _ => h.touch _) fun _ => h

/-- The other half of a wide glyph is in its row. -/
theorem smashWideAt (h : Changes R s t) (col : UInt16) {row : UInt16} (hrow : R row.toNat) :
    Changes R s (t.smashWideAt col row) := by
  refine ite (fun _ => h) fun hin => ?_
  simp only [Bool.or_eq_true, decide_eq_true_eq, not_or, UInt16.not_le, ge_iff_le,
    UInt16.lt_iff_toNat_lt] at hin
  have hlead : Changes R s ((t.touch (t.idx col row)).smashHalf
      ((t.cellAt (t.idx col row)).attrs &&& attrWideLead ≠ 0 && col + 1 < t.cols)
      ((t.touch (t.idx col row)).idx (col + 1) row) attrWideTail) := by
    refine (h.touch _).smashHalf (fun hf => ?_) _
    simp only [Bool.and_eq_true, decide_eq_true_eq, UInt16.lt_iff_toNat_lt] at hf
    exact row_of_add row.toNat hf.2 ▸ hrow
  refine hlead.smashHalf (fun hf => ?_) attrWideLead
  simp only [Bool.and_eq_true, decide_eq_true_eq, gt_iff_lt, UInt16.lt_iff_toNat_lt] at hf
  have hcol : (col - 1).toNat < t.cols.toNat := by
    rw [toNat_pred16 hf.2]
    omega
  rw [Screen.idx, hlead.cols, ← h.cols, row_of_add row.toNat hcol]
  exact hrow

theorem widenCluster (h : Changes R s t) {cl : OpenCluster} {tailCol : UInt16}
    (hlead : cl.col.toNat < t.cols.toNat) (htail : tailCol.toNat < t.cols.toNat) :
    Changes R s (t.widenCluster cl tailCol) := by
  have hopen := h.opening (· = cl.row.toNat)
  have hsmash := hopen.smashWideAt tailCol (show R cl.row.toNat ∨ cl.row.toNat = cl.row.toNat from .inr rfl)
  have hcols : (t.smashWideAt tailCol cl.row).cols = t.cols := hsmash.cols.trans h.cols.symm
  have hrow : ∀ col : UInt16, col.toNat < t.cols.toNat →
      (t.smashWideAt tailCol cl.row).idx col cl.row / (t.smashWideAt tailCol cl.row).cols.toNat =
        cl.row.toNat := by
    intro col hcol
    rw [Screen.idx, hcols]
    exact row_of_add _ hcol
  have hleadCell := fun c => hsmash.setCell (.inr (hrow _ hlead)) c
  have htailCell := fun c d => (hleadCell c).setCell (.inr (hrow _ htail)) d
  exact ((htailCell _ _).setOpenCluster _).dirty

theorem maybeExpandRiPair (h : Changes R s t) : Changes R s t.maybeExpandRiPair := by
  unfold Screen.maybeExpandRiPair
  cases t.openCluster with
  | none => exact h
  | some cl =>
    refine ite (fun _ => h) fun _ => ite (fun _ => h) fun hin => ?_
    simp only [Bool.or_eq_true, decide_eq_true_eq, not_or, ge_iff_le, UInt16.not_le,
      UInt16.lt_iff_toNat_lt] at hin
    have hle := toNat_le_satAdd16 cl.col 1
    have hlead : cl.col.toNat < t.cols.toNat := by omega
    have hw := h.widenCluster hlead hin.1
    have hcols : (t.widenCluster cl (satAdd16 cl.col 1)).cols = t.cols := hw.cols.trans h.cols.symm
    exact ite (fun _ => (hw.setCursorCol _ (hcols ▸ hin.1)).advanceAfterWidth 1) fun _ => hw

theorem paintGlyph (h : Changes R s t) (c : Char) {col row width : UInt16} (hrow : R row.toNat)
    (hcol : col.toNat < t.cols.toNat) (hwide : width = 2 → (col + 1).toNat < t.cols.toNat) :
    Changes R s (t.paintGlyph c col row width) := by
  have hlead := h.smashWideAt col hrow
  have hboth := ite (c := width = 2) (fun _ => hlead.smashWideAt (col + 1) hrow) fun _ => hlead
  unfold Screen.paintGlyph
  dsimp only
  generalize (if width = 2 then (t.smashWideAt col row).smashWideAt (col + 1) row
    else t.smashWideAt col row) = u at hboth ⊢
  have hcols : u.cols = t.cols := hboth.cols.trans h.cols.symm
  have hcell : ∀ col : UInt16, col.toNat < t.cols.toNat → R (u.idx col row / u.cols.toNat) := by
    intro col hcol
    rw [Screen.idx, hcols, row_of_add _ hcol]
    exact hrow
  have hglyph := fun c => hboth.setCell (hcell col hcol) c
  exact ite (fun htwo => (hglyph _).setCell (hcell _ (hwide htwo)) _) fun _ => hglyph _

theorem placeGlyph (h : Changes R s t) (c : Char) {width : UInt16}
    (hwide : width = 2 → (t.cursorCol + 1).toNat < t.cols.toNat) :
    Changes R s (t.placeGlyph c width) := by
  have hpaint := (h.opening (· = t.cursorRow.toNat)).paintGlyph c (.inr rfl) h.framed.cursorCol_lt hwide
  exact ((hpaint.setOpenCluster _).dirty).advanceAfterWidth width

theorem printBase (h : Changes R s t) (c : Char) : Changes R s (t.printBase c) := by
  have hw := h.wrapIfNeededWidth (clusterWidth c)
  exact ite (fun _ => hw) fun hfit => hw.placeGlyph c (fits_next hfit)

theorem writeChar (h : Changes R s t) (c : Char) : Changes R s (t.writeChar c) := by
  unfold Screen.writeChar Screen.appendToCluster
  cases t.shouldAppend c with
  | false => exact h.printBase c
  | true =>
    cases t.openCluster with
    | none => exact h.printBase c
    | some cl =>
      have hcount := (h.countTruncated cl.len).opening (· = cl.row.toNat)
      have happ := hcount.dirty.setOpenCluster (some { cl with
        len := if cl.len ≥ rillGraphemeMax then cl.len else cl.len + 1
        afterZwj := c = zeroWidthJoiner
        lastWasRi := isRegionalIndicator c })
      exact ite (fun _ => happ.maybeExpandRiPair) fun _ => happ

-- ---------------------------------------------------------------------------
-- Erasing and editing
-- ---------------------------------------------------------------------------

theorem row_lt (h : t.Framed) {i : Nat} (hi : i < t.cells.length) : i / t.cols.toNat < 65536 := by
  have hrows := t.rows.toNat_lt
  rw [h.length_cells] at hi
  have hlt := Nat.div_lt_of_lt_mul hi
  omega

theorem smashSpan (h : Changes R s t) {lo hi : Nat} (hhi : hi ≤ t.cells.length)
    (hrows : ∀ i, lo ≤ i → i < hi → R (i / t.cols.toNat)) : Changes R s (t.smashSpan lo hi) := by
  have hmax : max t.cols.toNat 1 = t.cols.toNat := by
    have hpos := Nat.zero_lt_of_lt h.framed.cursorCol_lt
    omega
  unfold Screen.smashSpan
  dsimp only
  rw [hmax]
  refine foldl _ (fun u i hmem hu => hu.smashWideAt _ ?_) h
  rw [List.mem_range'_1] at hmem
  rw [UInt16.toNat_ofNat_of_lt' (row_lt h.framed (by omega))]
  exact hrows i hmem.1 (by omega)

theorem eraseSpan (h : Changes R s t) (start stop : Nat) : Changes R s (t.eraseSpan start stop) := by
  have hmax : max t.cols.toNat 1 = t.cols.toNat := by
    have hpos := Nat.zero_lt_of_lt h.framed.cursorCol_lt
    omega
  unfold Screen.eraseSpan
  dsimp only
  rw [hmax]
  have hhi : min stop t.cells.length ≤ t.cells.length := Nat.min_le_right _ _
  generalize min stop t.cells.length = hi at hhi ⊢
  generalize min start hi = lo
  have herase : ∀ {Q : Nat → Prop}, Changes Q s t → (∀ i, lo ≤ i → i < hi → Q (i / t.cols.toNat)) →
      Changes Q s ((t.smashSpan lo hi).blankCells lo hi) := by
    intro Q hQ hrows
    have hsmash := hQ.smashSpan hhi hrows
    refine hsmash.blankCells fun i hlo hi => ?_
    rw [hsmash.cols, ← h.cols]
    exact hrows i hlo hi
  refine ite (fun hlt => ?_) fun hge => herase h fun i hlo hhi => by omega
  have hlast : (hi - 1) / t.cols.toNat < 65536 := row_lt h.framed (by omega)
  refine dirtyRows hlast (herase (h.opening _) fun i hlo hhi => .inr ⟨?_, ?_⟩)
  · exact Nat.div_le_div_right hlo
  · exact Nat.div_le_div_right (by omega)

theorem eraseDisplay (h : Changes R s t) (mode : UInt16) : Changes R s (t.eraseDisplay mode) :=
  ite (fun _ => h.eraseSpan _ _) fun _ => ite (fun _ => h.eraseSpan _ _) fun _ =>
    (h.eraseSpan _ _).damageAll

theorem eraseLine (h : Changes R s t) (mode : UInt16) : Changes R s (t.eraseLine mode) :=
  ite (fun _ => h.eraseSpan _ _) fun _ => ite (fun _ => h.eraseSpan _ _) fun _ => h.eraseSpan _ _

theorem insertLines (h : Changes R s t) (n : UInt16) : Changes R s (t.insertLines n) := by
  unfold Screen.insertLines
  cases hn : t.lineCount n with
  | none => exact h
  | some m =>
    have hle := lineCount_le hn
    have hopen := h.opening fun r => t.cursorRow.toNat ≤ r ∧ r ≤ t.scrollBottom.toNat
    refine dirtyRows t.scrollBottom.toNat_lt ((hopen.copyRows ?_).blankRows ?_)
    · intro mv hmv
      obtain ⟨r, hr, rfl⟩ := List.mem_map.mp hmv
      have hmoved := lines_moved (List.mem_reverse.mp hr)
      exact .inr ⟨by omega, hmoved.2⟩
    · exact fun r hlo hhi => .inr ⟨hlo, by omega⟩

theorem deleteLines (h : Changes R s t) (n : UInt16) : Changes R s (t.deleteLines n) := by
  unfold Screen.deleteLines
  cases hn : t.lineCount n with
  | none => exact h
  | some m =>
    have hle := lineCount_le hn
    have hopen := h.opening fun r => t.cursorRow.toNat ≤ r ∧ r ≤ t.scrollBottom.toNat
    refine dirtyRows t.scrollBottom.toNat_lt ((hopen.copyRows ?_).blankRows ?_)
    · intro mv hmv
      obtain ⟨r, hr, rfl⟩ := List.mem_map.mp hmv
      have hmoved := lines_moved hr
      exact .inr ⟨hmoved.1, by omega⟩
    · exact fun r hlo hhi => .inr ⟨by omega, by omega⟩

theorem in_cursorRow {i : Nat} (lo : Nat) (hlo : t.idx 0 t.cursorRow + lo ≤ i)
    (hhi : i < t.idx 0 t.cursorRow + t.cols.toNat) : i / t.cols.toNat = t.cursorRow.toNat := by
  rw [Screen.idx, UInt16.toNat_zero, Nat.add_zero] at hlo hhi
  exact row_of (by omega) hhi

theorem insertCells (h : Changes R s t) (n : UInt16) : Changes R s (t.insertCells n) := by
  refine ite (fun _ => h) fun _ => ?_
  have hn : (min n (satSub16 t.cols t.cursorCol)).toNat ≤ t.cols.toNat - t.cursorCol.toNat := by
    rw [toNat_min16, toNat_satSub16]
    omega
  have hcol := h.framed.cursorCol_lt
  have hopen := h.opening (· = t.cursorRow.toNat)
  generalize (min n (satSub16 t.cols t.cursorCol)).toNat = m at hn ⊢
  have hmoved : Changes (fun r => R r ∨ r = t.cursorRow.toNat) s
      (if t.cursorCol.toNat + m < t.cols.toNat then
        t.copyWithin (t.idx 0 t.cursorRow + t.cursorCol.toNat)
          (t.idx 0 t.cursorRow + t.cols.toNat - m) (t.idx 0 t.cursorRow + t.cursorCol.toNat + m)
      else t) := by
    refine ite (fun _ => hopen.copyWithin fun i hlo hhi => ?_) fun _ => hopen
    exact .inr (in_cursorRow (t.cursorCol.toNat + m) (by omega) (by omega))
  have hcols := hmoved.cols.trans h.cols.symm
  refine (hmoved.blankCells fun i hlo hhi => ?_).dirty
  rw [hcols]
  exact .inr (in_cursorRow _ hlo (by omega))

theorem deleteCells (h : Changes R s t) (n : UInt16) : Changes R s (t.deleteCells n) := by
  refine ite (fun _ => h) fun _ => ?_
  have hn : (min n (satSub16 t.cols t.cursorCol)).toNat ≤ t.cols.toNat - t.cursorCol.toNat := by
    rw [toNat_min16, toNat_satSub16]
    omega
  have hcol := h.framed.cursorCol_lt
  generalize (min n (satSub16 t.cols t.cursorCol)).toNat = m at hn ⊢
  have hsmash : Changes (fun r => R r ∨ r = t.cursorRow.toNat) s
      (t.smashCols t.cursorRow t.cursorCol.toNat m) :=
    foldl _ (fun _ _ _ hu => hu.smashWideAt _ (.inr rfl)) (h.opening _)
  have hcols := hsmash.cols.trans h.cols.symm
  have hmoved : Changes (fun r => R r ∨ r = t.cursorRow.toNat) s
      (if t.cursorCol.toNat + m < t.cols.toNat then
        (t.smashCols t.cursorRow t.cursorCol.toNat m).copyWithin
          (t.idx 0 t.cursorRow + t.cursorCol.toNat + m) (t.idx 0 t.cursorRow + t.cols.toNat)
          (t.idx 0 t.cursorRow + t.cursorCol.toNat)
      else t.smashCols t.cursorRow t.cursorCol.toNat m) := by
    refine ite (fun _ => hsmash.copyWithin fun i hlo hhi => ?_) fun _ => hsmash
    rw [hcols]
    exact .inr (in_cursorRow _ hlo (by omega))
  refine (hmoved.blankCells fun i hlo hhi => ?_).dirty
  rw [hmoved.cols, ← h.cols]
  exact .inr (in_cursorRow (t.cols.toNat - m) (by omega) (by omega))

theorem execute (h : Changes R s t) (byte : UInt8) : Changes R s (t.execute byte) := by
  have hopen := h.clearPendingWrap.setOpenCluster none
  have hcol := hopen.framed.cursorCol_lt
  refine ite (fun _ => ite (fun hc => hopen.setCursorCol _ ?_) fun _ => hopen) fun _ => ?_
  · rw [toNat_pred16 (UInt16.lt_iff_toNat_lt.mp hc)]
    omega
  refine ite (fun _ => hopen.setCursorCol _ (hopen.framed.min_lastCol_lt _)) fun _ => ?_
  refine ite (fun _ => hopen.index) fun _ => ?_
  exact ite (fun _ => hopen.setCursorCol 0 (Nat.zero_lt_of_lt hcol)) fun _ => h

end Changes

-- ---------------------------------------------------------------------------
-- Settings
-- ---------------------------------------------------------------------------

/-- `t` is `s` but for the cursor, the pen, the region, the modes, the slot of ESC 7 and the
replies. -/
def Sets (s t : Screen) : Prop :=
  { s with
    cursorCol := t.cursorCol
    cursorRow := t.cursorRow
    cursorVisible := t.cursorVisible
    pendingWrap := t.pendingWrap
    autowrap := t.autowrap
    scrollTop := t.scrollTop
    scrollBottom := t.scrollBottom
    penFg := t.penFg
    penBg := t.penBg
    penAttrs := t.penAttrs
    savedCursor := t.savedCursor
    replies := t.replies
    repliesDropped := t.repliesDropped
    openCluster := t.openCluster
    applicationCursorKeys := t.applicationCursorKeys
    applicationKeypad := t.applicationKeypad
    bracketedPaste := t.bracketedPaste
    mouseX10 := t.mouseX10
    mouseButton := t.mouseButton
    mouseAny := t.mouseAny
    mouseSgr := t.mouseSgr
    focusEvents := t.focusEvents } = t

namespace Sets

variable {s t : Screen}

theorem refl (s : Screen) : Sets s s := rfl

theorem of_pens (h : Pens s t) : Sets s t := by
  unfold Sets Pens at *
  rw [← h]

theorem framed (h : Sets s t) (hs : s.Framed) (hcol : t.cursorCol.toNat < s.cols.toNat) : t.Framed := by
  unfold Sets at h
  rw [← h]
  exact { hs with cursorCol_lt := hcol }

end Sets

/-- Drawing that has reported every row it changed, or settings. -/
def Acts (s t : Screen) : Prop := Changes (fun _ => False) s t ∨ Sets s t ∧ t.Framed

namespace Acts

variable {s t u : Screen}

theorem ite {c : Prop} [Decidable c] (h : c → Acts s t) (k : ¬ c → Acts s u) :
    Acts s (if c then t else u) := by
  split
  case isTrue hc => exact h hc
  case isFalse hc => exact k hc

theorem sets (hs : s.Framed) (h : Sets s t) (hcol : t.cursorCol = s.cursorCol) : Acts s t :=
  .inr ⟨h, h.framed hs (hcol ▸ hs.cursorCol_lt)⟩

theorem refl (hs : s.Framed) : Acts s s := sets hs (.refl s) rfl

theorem enqueueReply (hs : s.Framed) (bytes : List UInt8) : Acts s (s.enqueueReply bytes) :=
  ite (fun _ => sets hs rfl rfl) fun _ => ite (fun _ => sets hs rfl rfl) fun _ => sets hs rfl rfl

theorem setScrollRegion (hs : s.Framed) (params : List UInt16) : Acts s (s.setScrollRegion params) := by
  refine ite (fun _ => refl hs) fun _ => .inr ⟨rfl, ?_⟩
  exact { hs with cursorCol_lt := hs.min_lastCol_lt 0 }

theorem sgrLoop (hs : s.Framed) (params : List UInt16) : Acts s (s.sgrLoop params) := by
  have h := Pens.sgrLoop s params
  refine sets hs (.of_pens h) ?_
  rw [← h]

theorem csiDispatch (hs : s.Framed) (params : List UInt16) (action : Char) :
    Acts s (s.csiDispatch params action) := by
  have h : Changes (fun _ => False) s s := .refl hs
  unfold Screen.csiDispatch
  simp only
  split
  case h_1 | h_2 | h_3 | h_4 | h_5 | h_6 | h_7 | h_8 | h_9 | h_10 => exact .inl (h.setCursor _ _)
  case h_11 => exact .inl (h.eraseDisplay _)
  case h_12 => exact .inl (h.eraseLine _)
  case h_13 => exact .inl (h.eraseSpan _ _)
  case h_14 => exact .inl (h.insertLines _)
  case h_15 => exact .inl (h.deleteLines _)
  case h_16 => exact .inl (h.insertCells _)
  case h_17 => exact .inl (h.deleteCells _)
  case h_18 => exact setScrollRegion hs _
  case h_19 => exact .inl (h.iterate (fun _ h => h.scrollUp) _)
  case h_20 => exact .inl (h.iterate (fun _ h => h.scrollDown) _)
  case h_21 => exact sgrLoop hs _
  case h_22 => exact ite (fun _ => enqueueReply hs _) fun _ => refl hs
  case h_23 =>
    exact ite (fun _ => enqueueReply hs _) fun _ => ite (fun _ => enqueueReply hs _) fun _ => refl hs
  case h_24 => exact refl hs

theorem esc (hs : s.Framed) (intermediates : List UInt8) (byte : UInt8) :
    Acts s (s.esc intermediates byte) := by
  have h : Changes (fun _ => False) s s := .refl hs
  have hwrap := h.clearPendingWrap
  refine ite (fun _ => sets hs rfl rfl) fun _ => ite (fun _ => ?_) fun _ => ?_
  · cases s.savedCursor with
    | none => exact refl hs
    | some c => exact .inr ⟨rfl, { hs with cursorCol_lt := hs.min_lastCol_lt c.col }⟩
  refine ite (fun _ => .inl hwrap.index) fun _ => ?_
  refine ite (fun _ => .inl ?_) fun _ => ite (fun _ => .inl hwrap.reverseIndex) fun _ => ?_
  · exact (hwrap.setCursorCol 0 (Nat.zero_lt_of_lt hs.cursorCol_lt)).index
  exact ite (fun _ => sets hs rfl rfl) fun _ => ite (fun _ => sets hs rfl rfl) fun _ => refl hs

end Acts

/-- The private modes of both screens. -/
def isAltMode (p : UInt16) : Bool := p = 1047 || p = 1049

/-- A setting, or the way to or from the alternate screen. -/
def ModeStep (s : Screen) (set : Bool) (p : UInt16) (t : Screen) : Prop :=
  (isAltMode p = false ∧ Sets s t ∧ t.cursorCol = s.cursorCol) ∨
    ∃ saves, isAltMode p = true ∧ t = if set then s.enterAlt saves true else s.leaveAlt saves

theorem ModeStep.ite {c : Prop} [Decidable c] {set : Bool} {t u : Screen} (ht : c → ModeStep s set p t)
    (hu : ¬ c → ModeStep s set p u) : ModeStep s set p (if c then t else u) := by
  split
  case isTrue hc => exact ht hc
  case isFalse hc => exact hu hc

theorem modeStep_privateModeOne (s : Screen) (set : Bool) (p : UInt16) :
    ModeStep s set p (s.privateModeOne set p) := by
  refine ModeStep.ite (fun h => .inl ⟨h ▸ rfl, rfl, rfl⟩) fun _ => ?_
  refine ModeStep.ite (fun h => .inl ⟨h ▸ rfl, rfl, rfl⟩) fun _ => ?_
  refine ModeStep.ite (fun h => .inl ⟨h ▸ rfl, rfl, rfl⟩) fun _ => ?_
  refine ModeStep.ite (fun h => .inl ⟨h ▸ rfl, rfl, rfl⟩) fun _ => ?_
  refine ModeStep.ite (fun h => .inl ⟨h ▸ rfl, rfl, rfl⟩) fun _ => ?_
  refine ModeStep.ite (fun h => .inl ⟨h ▸ rfl, rfl, rfl⟩) fun _ => ?_
  refine ModeStep.ite (fun h => .inl ⟨h ▸ rfl, rfl, rfl⟩) fun _ => ?_
  refine ModeStep.ite (fun h => .inl ⟨h ▸ rfl, rfl, rfl⟩) fun _ => ?_
  refine ModeStep.ite (fun h => .inl ⟨h ▸ rfl, rfl, rfl⟩) fun _ => ?_
  refine ModeStep.ite (fun h => .inr ⟨false, h ▸ rfl, rfl⟩) fun h1047 => ?_
  refine ModeStep.ite (fun h => .inr ⟨true, h ▸ rfl, rfl⟩) fun h1049 => ?_
  exact .inl ⟨by simp [isAltMode, h1047, h1049], .refl s, rfl⟩

/-- An action draws or sets, or is a list of private modes. -/
theorem act_cases {s : Screen} (hs : s.Framed) (a : Action) :
    Acts s (s.act a) ∨ ∃ params set, a = .csi params [0x3f] false (if set then 'h' else 'l') ∧
      s.act a = s.privateMode params set := by
  cases a with
  | print c => exact .inl (.inl ((Changes.refl hs).writeChar c))
  | execute b => exact .inl (.inl ((Changes.refl hs).execute b))
  | osc payload => exact .inl (.refl hs)
  | esc intermediates b => exact .inl (.esc hs intermediates b)
  | csi params intermediates ignore action =>
    dsimp only [Screen.act, Screen.csi]
    split
    case isTrue => exact .inl (.refl hs)
    case isFalse hignore =>
      split
      case isTrue hmode =>
        rw [Bool.and_eq_true, decide_eq_true_eq, Bool.or_eq_true, decide_eq_true_eq,
          decide_eq_true_eq] at hmode
        obtain ⟨rfl, rfl | rfl⟩ := hmode
        · exact .inr ⟨params, true, by simpa using hignore, rfl⟩
        · exact .inr ⟨params, false, by simpa using hignore, rfl⟩
      case isFalse =>
        split
        case isTrue => exact .inl (.enqueueReply hs _)
        case isFalse =>
          split
          case isTrue => exact .inl (.refl hs)
          case isFalse => exact .inl (.csiDispatch hs params action)

-- ---------------------------------------------------------------------------
-- The alternate screen
-- ---------------------------------------------------------------------------

theorem Framed.setCursor {s : Screen} (h : s.Framed) (row col : UInt16) : (s.setCursor row col).Framed :=
  { h with cursorCol_lt := h.min_lastCol_lt col }

theorem Framed.enterAlt {s : Screen} (h : s.Framed) (saves clear : Bool) :
    (s.enterAlt saves clear).Framed := by
  have hsaved : (if !s.inAlt then s.saveGrid saves else s).Framed := by
    split
    case isTrue =>
      refine { h with length_saved := ?_ }
      rintro grid ⟨⟩
      exact h.length_cells
    case isFalse => exact h
  unfold Screen.enterAlt
  dsimp only
  generalize (if !s.inAlt then s.saveGrid saves else s) = t at hsaved ⊢
  split
  case isTrue =>
    have hclear : ({ t with cells := t.blankGrid } : Screen).Framed :=
      { hsaved with length_cells := List.length_replicate }
    exact { hclear.setCursor 0 0 with }
  case isFalse => exact { hsaved with }

theorem Framed.takeAltCursor {s : Screen} (h : s.Framed) (restores : Bool) :
    (s.takeAltCursor restores).Framed := by
  unfold Screen.takeAltCursor
  split
  case h_1 c _ => exact { h with cursorCol_lt := h.min_lastCol_lt c.col }
  case h_2 => exact { h with }

theorem Framed.leaveAlt {s : Screen} (h : s.Framed) (restores : Bool) :
    (s.leaveAlt restores).Framed := by
  have hgrid : s.restoreGrid.Framed := by
    unfold Screen.restoreGrid
    cases hsaved : s.savedGrid with
    | none => exact h
    | some grid => exact { h with length_cells := h.length_saved grid hsaved, length_saved := nofun }
  unfold Screen.leaveAlt
  split
  case isTrue => exact h
  case isFalse => exact { hgrid.takeAltCursor restores with }

-- ---------------------------------------------------------------------------
-- Actions
-- ---------------------------------------------------------------------------

/-- Every row of `t` whose cells are not those of `s` is one that `t` reports. -/
structure Marks (s t : Screen) : Prop where
  framed : t.Framed
  cols : t.cols = s.cols
  rows : t.rows = s.rows
  palette : t.palette = s.palette
  grows : ∀ r, s.Damaged r → t.Damaged r
  changed : ∀ i, t.cells[i]? ≠ s.cells[i]? → t.Damaged (i / s.cols.toNat)

namespace Marks

variable {s t u : Screen}

theorem refl (h : s.Framed) : Marks s s := ⟨h, rfl, rfl, rfl, fun _ => id, fun _ hne => absurd rfl hne⟩

theorem trans (h : Marks s t) (k : Marks t u) : Marks s u where
  framed := k.framed
  cols := k.cols.trans h.cols
  rows := k.rows.trans h.rows
  palette := k.palette.trans h.palette
  grows r hr := k.grows r (h.grows r hr)
  changed i hne := by
    by_cases hi : t.cells[i]? = s.cells[i]?
    · exact h.cols ▸ k.changed i (hi ▸ hne)
    · exact k.grows _ (h.changed i hi)

theorem of_changes (h : Changes (fun _ => False) s t) : Marks s t where
  framed := h.framed
  cols := h.cols
  rows := h.rows
  palette := h.draws.palette
  grows := h.grows
  changed i hne := (h.changed i hne).resolve_right id

theorem of_sets (h : Sets s t) (ht : t.Framed) : Marks s t := by
  unfold Sets at h
  rw [← h] at ht ⊢
  exact ⟨ht, rfl, rfl, rfl, fun _ => id, fun _ hne => absurd rfl hne⟩

theorem of_acts (h : Acts s t) : Marks s t := h.elim of_changes fun h => of_sets h.1 h.2

theorem foldl {f : Screen → α → Screen} (hf : ∀ s a, s.Framed → Marks s (f s a)) (hs : s.Framed)
    (l : List α) : Marks s (l.foldl f s) := by
  induction l generalizing s with
  | nil => exact refl hs
  | cons a l ih => exact (hf s a hs).trans (ih (hf s a hs).framed)

theorem size_enterAlt (s : Screen) (saves clear : Bool) : (s.enterAlt saves clear).cols = s.cols ∧
    (s.enterAlt saves clear).rows = s.rows ∧ (s.enterAlt saves clear).palette = s.palette := by
  unfold Screen.enterAlt
  cases s.inAlt with
  | true => cases clear <;> exact ⟨rfl, rfl, rfl⟩
  | false => cases clear <;> exact ⟨rfl, rfl, rfl⟩

theorem size_takeAltCursor (s : Screen) (restores : Bool) : (s.takeAltCursor restores).cols = s.cols ∧
    (s.takeAltCursor restores).rows = s.rows ∧ (s.takeAltCursor restores).palette = s.palette := by
  unfold Screen.takeAltCursor
  split
  case h_1 => exact ⟨rfl, rfl, rfl⟩
  case h_2 => exact ⟨rfl, rfl, rfl⟩

theorem size_restoreGrid (s : Screen) : s.restoreGrid.cols = s.cols ∧ s.restoreGrid.rows = s.rows ∧
    s.restoreGrid.palette = s.palette := by
  unfold Screen.restoreGrid
  split
  case h_1 => exact ⟨rfl, rfl, rfl⟩
  case h_2 => exact ⟨rfl, rfl, rfl⟩

theorem enterAlt (hs : s.Framed) (saves clear : Bool) : Marks s (s.enterAlt saves clear) := by
  obtain ⟨hcols, hrows, hpalette⟩ := size_enterAlt s saves clear
  exact ⟨hs.enterAlt saves clear, hcols, hrows, hpalette, fun _ _ => .inl rfl, fun _ _ => .inl rfl⟩

theorem leaveAlt (hs : s.Framed) (restores : Bool) : Marks s (s.leaveAlt restores) := by
  have hframed := hs.leaveAlt restores
  unfold Screen.leaveAlt at hframed ⊢
  split
  case isTrue => exact refl hs
  case isFalse hin =>
    rw [if_neg hin] at hframed
    obtain ⟨hcols, hrows, hpalette⟩ := size_takeAltCursor s.restoreGrid restores
    obtain ⟨hcols', hrows', hpalette'⟩ := size_restoreGrid s
    exact ⟨hframed, hcols.trans hcols', hrows.trans hrows', hpalette.trans hpalette',
      fun _ _ => .inl rfl, fun _ _ => .inl rfl⟩

theorem privateModeOne (hs : s.Framed) (set : Bool) (p : UInt16) : Marks s (s.privateModeOne set p) := by
  obtain ⟨-, hsets, hcol⟩ | ⟨saves, -, heq⟩ := modeStep_privateModeOne s set p
  · exact of_sets hsets (hsets.framed hs (hcol ▸ hs.cursorCol_lt))
  · rw [heq]
    cases set with
    | true => exact enterAlt hs saves true
    | false => exact leaveAlt hs saves

theorem act (hs : s.Framed) (a : Action) : Marks s (s.act a) := by
  obtain h | ⟨params, set, -, heq⟩ := act_cases hs a
  · exact of_acts h
  · rw [heq]
    exact foldl (fun _ p hs => privateModeOne hs set p) hs params

theorem acts (hs : s.Framed) (l : List Action) : Marks s (l.foldl Screen.act s) :=
  foldl (fun _ a hs => act hs a) hs l

end Marks

end Screen

-- ---------------------------------------------------------------------------
-- Engines
-- ---------------------------------------------------------------------------

def PodGrid.row (g : PodGrid) (r : Nat) : List PodCell :=
  (g.cells.drop (r * g.cols.toNat)).take g.cols.toNat

namespace VtEngine

/-- What a host may do to an engine between two snapshots. -/
inductive Update
  | feed (bytes : List UInt8)
  | resize (cols rows : UInt16)
  | setPalette (palette : Palette)
  | reset
  | importCheckpoint (bytes : List UInt8)
  | resyncFromHistory (history : List UInt8)
  | takeReplies
  | takeScrolledOff

def after (e : VtEngine) : Except Error VtEngine → VtEngine
  | .ok f => f
  | .error _ => e

def update (e : VtEngine) : Update → VtEngine
  | .feed bytes => e.feed bytes
  | .resize cols rows => e.after (e.resize cols rows)
  | .setPalette palette => e.setPalette palette
  | .reset => e.after e.reset
  | .importCheckpoint bytes => e.after ((e.importCheckpoint bytes).map Prod.snd)
  | .resyncFromHistory history => e.after ((e.resyncFromHistory history).map Prod.snd)
  | .takeReplies => e.takeReplies.2
  | .takeScrolledOff => e.takeScrolledOff.2

/-- The engines a host can have, whatever checkpoints it has imported. -/
inductive Reachable : VtEngine → Prop
  | new : VtEngine.new cols rows = .ok e → Reachable e
  | update : Reachable e → ∀ u, Reachable (e.update u)
  | snapshot : Reachable e → Reachable e.snapshot.2

/-- The whole grid of `t` is reported, or every row of it that is not as in `s`. -/
structure Covers (s t : Screen) : Prop where
  framed : t.Framed
  marks : t.fullDamage = true ∨ Screen.Marks s t

namespace Covers

variable {s t u : Screen}

theorem of_marks (h : Screen.Marks s t) : Covers s t := ⟨h.framed, .inr h⟩

theorem of_full (ht : t.Framed) (hfull : t.fullDamage = true) : Covers s t := ⟨ht, .inl hfull⟩

/-- A full report is not taken back before the next snapshot. -/
theorem trans (h : Covers s t) (k : Covers t u) : Covers s u := by
  obtain hfull | hmarks := k.marks
  · exact of_full k.framed hfull
  · obtain hfull | hold := h.marks
    · exact of_full k.framed (Screen.full_of_damaged (hmarks.grows _ (.inl hfull)))
    · exact of_marks (hold.trans hmarks)

theorem setDiscardReplies (h : Covers s t) (discard : Bool) : Covers s (t.setDiscardReplies discard) :=
  h.trans (of_marks { Screen.Marks.refl h.framed with framed := { h.framed with } })

theorem feed {f : VtEngine} (h : Covers s f.screen) (bytes : List UInt8) :
    Covers s (f.feed bytes).screen := h.trans (of_marks (.acts h.framed _))

end Covers

theorem framed_of_sound {s : Screen} (h : Sound strict cols rows s) : s.Framed where
  length_cells := by rw [h.length_cells, h.cols_eq, h.rows_eq]
  length_saved grid hgrid := by rw [h.length_saved grid hgrid, h.cols_eq, h.rows_eq]
  cursorCol_lt := h.cols_eq ▸ h.cursorCol_lt

theorem full_new {s : Screen} (h : Screen.new cols rows = .ok s) : s.fullDamage = true := by
  unfold Screen.new at h
  split at h
  case isTrue => cases h
  case isFalse =>
    obtain rfl := Except.ok.inj h
    rfl

theorem framed_new {s : Screen} (h : Screen.new cols rows = .ok s) : s.Framed := by
  have hs : Sound True cols.toNat rows.toNat s := sound_new h
  exact framed_of_sound hs

theorem covers_new {s t : Screen} (h : Screen.new cols rows = .ok t) : Covers s t :=
  .of_full (framed_new h) (full_new h)

theorem covers_resize {s t : Screen} (h : s.resize cols rows = .ok t) : Covers s t := by
  unfold Screen.resize at h
  split at h
  case isTrue => cases h
  case isFalse hpos =>
    obtain ⟨hcols, -⟩ := size_pos hpos
    obtain rfl := Except.ok.inj h
    have hlast := toNat_satSub16_one_lt hcols
    refine .of_full ⟨length_resizeCells _ _ _ _ _, fun grid hgrid => ?_, ?_⟩ rfl
    · obtain ⟨old, -, rfl⟩ := Option.map_eq_some_iff.mp hgrid
      exact length_resizeCells _ _ _ _ _
    · simp only [toNat_min16]
      omega

theorem covers_assign {x : Decoded} (h : x.Sized) (s : Screen) : Covers s (x.assign s) := by
  have hlast := toNat_satSub16_one_lt h.cols_pos
  refine .of_full ⟨h.length_cells, h.length_saved, ?_⟩ rfl
  simp only [Decoded.assign, toNat_min16]
  omega

theorem covers_resync {e f : VtEngine} (h : e.resyncFromHistory history = .ok (bytes, f)) :
    Covers e.screen f.screen := by
  unfold VtEngine.resyncFromHistory at h
  cases hn : e.reset with
  | error err =>
    rw [hn] at h
    cases h
  | ok fresh =>
    rw [hn] at h
    obtain ⟨-, rfl⟩ := Prod.mk.inj (Except.ok.inj h)
    have hfresh := (covers_new (s := e.screen) (new_ok hn)).setDiscardReplies true
    refine Covers.setDiscardReplies ?_ false
    split
    case isTrue => exact hfresh
    case isFalse => exact Covers.feed (f := { fresh with screen := fresh.screen.setDiscardReplies true }) hfresh _

theorem covers_after {e : VtEngine} {o : Except Error VtEngine} (h : e.screen.Framed)
    (ho : ∀ f, o = .ok f → Covers e.screen f.screen) : Covers e.screen (e.after o).screen := by
  cases o with
  | error err => exact .of_marks (.refl h)
  | ok f => exact ho f rfl

theorem map_snd_ok {o : Except ε (α × β)} (h : o.map Prod.snd = .ok b) : ∃ a, o = .ok (a, b) := by
  cases o with
  | error err => cases h
  | ok y => exact ⟨y.1, by rw [← Except.ok.inj h]⟩

theorem covers_update {e : VtEngine} (h : e.screen.Framed) (u : Update) :
    Covers e.screen (e.update u).screen := by
  cases u with
  | feed bytes => exact .of_marks (.acts h _)
  | resize cols rows => exact covers_after h fun f hf => covers_resize (resize_ok hf)
  | setPalette palette => exact .of_full { h with } rfl
  | reset => exact covers_after h fun f hf => covers_new (new_ok hf)
  | importCheckpoint bytes =>
    refine covers_after h fun f hf => ?_
    obtain ⟨offset, hi⟩ := map_snd_ok hf
    obtain ⟨x, hx, rfl⟩ := importCheckpoint_ok hi
    exact covers_assign (returns_decoded _ _ _ hx) e.screen
  | resyncFromHistory history =>
    refine covers_after h fun f hf => ?_
    obtain ⟨bytes, hr⟩ := map_snd_ok hf
    exact covers_resync hr
  | takeReplies => exact .of_marks { Screen.Marks.refl h with framed := { h with } }
  | takeScrolledOff => exact .of_marks { Screen.Marks.refl h with framed := { h with } }

theorem Covers.updates {s : Screen} {e : VtEngine} (h : Covers s e.screen) (updates : List Update) :
    Covers s (updates.foldl update e).screen := by
  induction updates generalizing e with
  | nil => exact h
  | cons u updates ih => exact ih (h.trans (covers_update h.framed u))

theorem Reachable.framed {e : VtEngine} (h : Reachable e) : e.screen.Framed := by
  induction h with
  | new hn => exact framed_new (new_ok hn)
  | update _ u ih => exact (covers_update ih u).framed
  | snapshot _ ih => exact { ih with }

-- ---------------------------------------------------------------------------
-- Snapshots
-- ---------------------------------------------------------------------------

/-- A row that is not reported shows what it showed. -/
theorem row_snapshot {s t : Screen} (h : Screen.Marks s t) {r : Nat} (hr : ¬ t.Damaged r) :
    t.snapshot.1.row r = s.snapshot.1.row r := by
  have hpod : t.podCell = s.podCell := by
    funext c
    simp only [Screen.podCell, Screen.resolve, h.palette]
  have hcells : ∀ i, i < s.cols.toNat →
      t.cells[r * s.cols.toNat + i]? = s.cells[r * s.cols.toNat + i]? := by
    intro i hi
    refine Decidable.not_not.mp fun hne => hr ?_
    have hmark := h.changed _ hne
    rwa [row_of_add r hi] at hmark
  simp only [PodGrid.row, Screen.snapshot, h.cols, hpod]
  refine List.ext_getElem? fun i => ?_
  rw [List.getElem?_take, List.getElem?_take]
  split
  case isTrue hi => rw [List.getElem?_drop, List.getElem?_drop, List.getElem?_map, List.getElem?_map, hcells i hi]
  case isFalse => rfl

/-- Between two snapshots no change is missed: where the second does not report the whole grid,
it has the size of the first, and the rows it does not report are those of the first. -/
theorem damage_covers {e : VtEngine} (h : Reachable e) (updates : List Update)
    (hranged : (updates.foldl update e.snapshot.2).snapshot.1.fullDamage = false) :
    let first := e.snapshot.1
    let second := (updates.foldl update e.snapshot.2).snapshot.1
    second.cols = first.cols ∧ second.rows = first.rows ∧
      ∀ r, r < second.rows.toNat → ¬ (second.damageRow0.toNat ≤ r ∧ r ≤ second.damageRow1.toNat) →
        second.row r = first.row r := by
  have hcovers : Covers e.snapshot.2.screen (updates.foldl update e.snapshot.2).screen :=
    (Covers.of_marks (.refl h.snapshot.framed)).updates updates
  have hmarks := hcovers.marks.resolve_left fun hfull => by
    rw [show (updates.foldl update e.snapshot.2).screen.fullDamage = false from hranged] at hfull
    cases hfull
  refine ⟨hmarks.cols, hmarks.rows, fun r _ hr => row_snapshot hmarks fun hdamaged => ?_⟩
  obtain hfull | hrange := hdamaged
  · rw [show (updates.foldl update e.snapshot.2).screen.fullDamage = false from hranged] at hfull
    cases hfull
  · exact hr hrange

/-- A letter typed on the first row of a new 2 by 2 engine. -/
theorem damage_covers_typed :
    let e := (VtEngine.new 2 2).toOption.get rfl
    let second := ([Update.feed [0x61]].foldl update e.snapshot.2).snapshot.1
    second.cols = e.snapshot.1.cols ∧ second.rows = e.snapshot.1.rows ∧
      ∀ r, r < second.rows.toNat → ¬ (second.damageRow0.toNat ≤ r ∧ r ≤ second.damageRow1.toNat) →
        second.row r = e.snapshot.1.row r :=
  damage_covers (.new (show VtEngine.new 2 2 = .ok _ from rfl)) [.feed [0x61]] (by decide)

end VtEngine
end Rill.Vt
