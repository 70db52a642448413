import Mathlib.Data.List.DropRight
import Rill.Vt.Anchor
import Rill.Vt.Checked

/-!
# Words that do not wrap

On a whole screen the checked operations give what the screen's own do: every
plain operation on a `u16` is exact. The tab stop alone is not, in the last
eight columns of the widest grids.
-/

namespace Rill.Vt

open Lib
open Screen (paintIndexed clampByte)

namespace Checked

-- ---------------------------------------------------------------------------
-- Words
-- ---------------------------------------------------------------------------

variable {s t : Screen} {cols rows : Nat}

theorem cast16_eq {n : Nat} (h : n < 65536) : cast16 n = some (UInt16.ofNat n) := if_pos h

theorem add16_eq {a b : UInt16} (h : a.toNat + b.toNat < 65536) : add16 a b = some (a + b) := by
  rw [add16, cast16_eq h, UInt16.ofNat_add, UInt16.ofNat_toNat, UInt16.ofNat_toNat]

theorem add16_one {a b : UInt16} (h : a.toNat < b.toNat) : add16 a 1 = some (a + 1) := by
  have hb := b.toNat_lt
  refine add16_eq ?_
  rw [UInt16.toNat_one]
  omega

theorem sub16_eq {a b : UInt16} (h : b ≤ a) : sub16 a b = some (a - b) := if_pos h

theorem sub16_one {a : UInt16} (h : 0 < a.toNat) : sub16 a 1 = some (a - 1) :=
  sub16_eq (UInt16.le_iff_toNat_le.mpr h)

theorem mul16_eq {a b : UInt16} (h : a.toNat * b.toNat < 65536) : mul16 a b = some (a * b) := by
  rw [mul16, cast16_eq h, UInt16.ofNat_mul, UInt16.ofNat_toNat, UInt16.ofNat_toNat]

theorem satAdd16_eq {a b : UInt16} (h : a.toNat + b.toNat < 65536) : satAdd16 a b = a + b := if_pos h

-- ---------------------------------------------------------------------------
-- Scrolling and printing
-- ---------------------------------------------------------------------------

theorem index_eq (s : Screen) : index s = some s.index := by
  unfold index Screen.index
  split
  case isTrue hlt =>
    rw [add16_one (UInt16.lt_iff_toNat_lt.mp hlt)]
    rfl
  case isFalse => rfl

theorem reverseIndex_eq (s : Screen) : reverseIndex s = some s.reverseIndex := by
  unfold reverseIndex Screen.reverseIndex
  split
  case isTrue hgt =>
    have hlt := UInt16.lt_iff_toNat_lt.mp hgt
    rw [sub16_one (by omega)]
    rfl
  case isFalse => rfl

theorem setScrollRegion_eq (s : Screen) (params : List UInt16) :
    setScrollRegion s params = some (s.setScrollRegion params) := by
  unfold setScrollRegion Screen.setScrollRegion
  dsimp only
  split
  case isTrue => rfl
  case isFalse hin =>
    simp only [Bool.or_eq_true, decide_eq_true_eq, not_or, ge_iff_le, UInt16.lt_iff_toNat_lt,
      UInt16.le_iff_toNat_le, UInt16.toNat_one] at hin
    obtain ⟨⟨htop, -⟩, hlt⟩ := hin
    rw [sub16_one (by omega), sub16_one (by omega)]
    rfl

theorem wrapIfNeededWidth_eq (s : Screen) (width : UInt16) :
    wrapIfNeededWidth s width = some (s.wrapIfNeededWidth width) := by
  unfold wrapIfNeededWidth Screen.wrapIfNeededWidth
  split
  case isTrue => rfl
  case isFalse =>
    split
    case isTrue => rfl
    case isFalse => exact index_eq _

theorem smashNext_eq {col : UInt16} (h : col.toNat < cols) (hcols : cols < 65536) (lead : Bool)
    (row : UInt16) : smashNext s lead col row =
      some (s.smashHalf (lead && col + 1 < s.cols) (s.idx (col + 1) row) attrWideTail) := by
  cases lead with
  | false => rfl
  | true =>
    unfold smashNext
    rw [if_pos rfl, add16_eq (by rw [UInt16.toNat_one]; omega), Bool.true_and]
    rfl

theorem smashPrev_eq {tail : Bool} {col : UInt16} (h : tail = true → 0 < col.toNat) (row : UInt16) :
    smashPrev s tail col row = some (s.smashHalf tail (s.idx (col - 1) row) attrWideLead) := by
  cases tail with
  | false => rfl
  | true =>
    unfold smashPrev
    rw [if_pos rfl, sub16_one (h rfl)]
    rfl

theorem smashWideAt_eq (s : Screen) (col row : UInt16) :
    smashWideAt s col row = some (s.smashWideAt col row) := by
  unfold smashWideAt Screen.smashWideAt
  split
  case isTrue => rfl
  case isFalse hin =>
    simp only [Bool.or_eq_true, decide_eq_true_eq, not_or, UInt16.not_le, ge_iff_le,
      UInt16.lt_iff_toNat_lt] at hin
    dsimp only
    rw [smashNext_eq hin.1 s.cols.toNat_lt, some_bind_eq, smashPrev_eq]
    · rfl
    · intro htail
      simp only [Bool.and_eq_true, decide_eq_true_eq, gt_iff_lt, UInt16.lt_iff_toNat_lt] at htail
      exact htail.2

theorem advanceAfterWidth_eq {width : UInt16} (h : s.cursorCol.toNat + width.toNat < 65536) :
    advanceAfterWidth s width = some (s.advanceAfterWidth width) := by
  unfold advanceAfterWidth Screen.advanceAfterWidth
  rw [add16_eq h, satAdd16_eq h]
  rfl

theorem widenCluster_eq (s : Screen) (cl : OpenCluster) (tailCol : UInt16) :
    widenCluster s cl tailCol = some (s.widenCluster cl tailCol) := by
  unfold widenCluster
  rw [smashWideAt_eq]
  rfl

/-- The cluster lies in the grid, so that the cell after it has a column. -/
theorem maybeExpandRiPair_eq (h : Sound True cols rows s) :
    maybeExpandRiPair s = some s.maybeExpandRiPair := by
  unfold maybeExpandRiPair Screen.maybeExpandRiPair
  cases hcl : s.openCluster with
  | none => rfl
  | some cl =>
    dsimp only
    have hlt : cl.col.toNat < s.cols.toNat := h.cols_eq ▸ (h.cluster_lt trivial cl hcl).1
    have hsum : cl.col.toNat + (1 : UInt16).toNat < 65536 := by
      have hcols := s.cols.toNat_lt
      rw [UInt16.toNat_one]
      omega
    rw [add16_eq hsum, satAdd16_eq hsum]
    split
    case isTrue => rfl
    case isFalse =>
      rw [some_bind_eq]
      split
      case isTrue => rfl
      case isFalse hin =>
        simp only [Bool.or_eq_true, decide_eq_true_eq, not_or, ge_iff_le, UInt16.not_le,
          UInt16.lt_iff_toNat_lt] at hin
        rw [widenCluster_eq, some_bind_eq]
        split
        case isTrue =>
          refine advanceAfterWidth_eq ?_
          have hcols := s.cols.toNat_lt
          change (cl.col + 1).toNat + 1 < 65536
          omega
        case isFalse => rfl

theorem paintGlyph_eq {col width : UInt16} (hw : width = 2 → (col + 1).toNat = col.toNat + 1)
    (s : Screen) (c : Char) (row : UInt16) :
    paintGlyph s c col row width = some (s.paintGlyph c col row width) := by
  unfold paintGlyph Screen.paintGlyph
  rw [smashWideAt_eq, some_bind_eq]
  by_cases htwo : width = 2
  · have hlt := (col + 1).toNat_lt
    have hnext : add16 col 1 = some (col + 1) := by
      refine add16_eq ?_
      rw [UInt16.toNat_one, ← hw htwo]
      exact hlt
    simp only [if_pos htwo, hnext, smashWideAt_eq, some_bind_eq]
    rfl
  · simp only [if_neg htwo]
    rfl

theorem placeGlyph_eq {width : UInt16} (hw : s.cursorCol.toNat + width.toNat ≤ s.cols.toNat)
    (c : Char) : placeGlyph s c width = some (s.placeGlyph c width) := by
  have hcols := s.cols.toNat_lt
  have hnext : width = 2 → (s.cursorCol + 1).toNat = s.cursorCol.toNat + 1 := by
    rintro rfl
    change s.cursorCol.toNat + 2 ≤ s.cols.toNat at hw
    exact toNat_succ16 (b := s.cols) (by omega)
  unfold placeGlyph
  dsimp only
  rw [paintGlyph_eq hnext, some_bind_eq]
  refine advanceAfterWidth_eq ?_
  -- Neither the glyph nor its damage moves the cursor.
  have hpaint := (Edits.paintGlyph s c s.cursorCol s.cursorRow width).congr Screen.cursorCol
    fun _ _ _ _ _ _ _ => rfl
  have hdirty := fun t : Screen => (Screen.Edits.dirty t s.cursorRow).congr Screen.cursorCol
    fun _ _ _ _ _ _ _ => rfl
  rw [hdirty]
  change (s.paintGlyph c s.cursorCol s.cursorRow width).cursorCol.toNat + width.toNat < 65536
  rw [hpaint]
  omega

/-- The line is wrapped, and the glyph dropped where it has no room even so. -/
theorem printBase_eq (s : Screen) (c : Char) : printBase s c = some (s.printBase c) := by
  unfold printBase Screen.printBase
  dsimp only
  rw [wrapIfNeededWidth_eq, some_bind_eq]
  split
  case isTrue => rfl
  case isFalse hfit =>
    refine placeGlyph_eq ?_ c
    simp only [Bool.or_eq_true, decide_eq_true_eq, not_or, UInt16.not_lt,
      UInt16.le_iff_toNat_le] at hfit
    obtain ⟨-, hroom⟩ := hfit
    unfold Screen.remainingCols at hroom
    rw [toNat_satSub16] at hroom
    have hpos : 0 < (Screen.clusterWidth c).toNat := by
      unfold Screen.clusterWidth
      split <;> decide
    omega

theorem writeChar_eq (h : Sound True cols rows s) (c : Char) :
    writeChar s c = some (s.writeChar c) := by
  unfold writeChar Screen.writeChar
  cases happend : s.shouldAppend c with
  | false => exact printBase_eq s c
  | true =>
    rw [if_pos rfl]
    cases hcluster : s.appendToCluster c with
    | none => exact printBase_eq s c
    | some u =>
      dsimp only
      split
      case isTrue => exact maybeExpandRiPair_eq (h.appendToCluster hcluster)
      case isFalse => rfl

-- ---------------------------------------------------------------------------
-- Erasing and editing
-- ---------------------------------------------------------------------------

theorem smashSpan_eq {lo hi : Nat} (hhi : hi ≤ s.cols.toNat * s.rows.toNat) :
    smashSpan s lo hi = some (s.smashSpan lo hi) := by
  have hcols := s.cols.toNat_lt
  have hrows := s.rows.toNat_lt
  refine foldlM_of_some (fun i hi' t => ?_) s
  obtain ⟨k, hk, rfl⟩ := List.mem_range'.mp hi'
  have hcol : (lo + 1 * k) % max s.cols.toNat 1 < max s.cols.toNat 1 := Nat.mod_lt _ (by omega)
  have hrow : (lo + 1 * k) / max s.cols.toNat 1 < s.rows.toNat := by
    have hpos : 0 < s.cols.toNat := Nat.pos_of_ne_zero fun h0 => by rw [h0] at hhi; omega
    rw [Nat.max_eq_left hpos]
    exact Nat.div_lt_of_lt_mul (by omega)
  rw [cast16_eq (by omega), cast16_eq (by omega), some_bind_eq, some_bind_eq]
  exact smashWideAt_eq t _ _

theorem eraseSpan_eq (h : Sound True cols rows s) (start stop : Nat) :
    eraseSpan s start stop = some (s.eraseSpan start stop) := by
  have hcols := s.cols.toNat_lt
  have hrows := s.rows.toNat_lt
  have hlen : s.cells.length = s.cols.toNat * s.rows.toNat := by
    rw [h.cols_eq, h.rows_eq, h.length_cells]
  have hpos : 0 < s.cols.toNat := h.cols_eq ▸ h.cols_pos
  unfold eraseSpan Screen.eraseSpan
  dsimp only
  generalize hhi : min stop s.cells.length = hi
  have hle : hi ≤ s.cols.toNat * s.rows.toNat := by omega
  rw [smashSpan_eq hle, some_bind_eq]
  split
  case isFalse => rfl
  case isTrue hlt =>
    have hrow : ∀ i < s.cols.toNat * s.rows.toNat, i / max s.cols.toNat 1 < 65536 := by
      intro i hi'
      rw [Nat.max_eq_left hpos]
      exact Nat.lt_trans (Nat.div_lt_of_lt_mul hi') hrows
    have hfirst := hrow (min start hi) (by omega)
    have hlast := hrow (hi - 1) (by omega)
    rw [cast16_eq hfirst, cast16_eq hlast, some_bind_eq, some_bind_eq,
      UInt16.toNat_ofNat_of_lt' hfirst, UInt16.toNat_ofNat_of_lt' hlast]
    rfl

theorem eraseDisplay_eq (h : Sound True cols rows s) (mode : UInt16) :
    eraseDisplay s mode = some (s.eraseDisplay mode) := by
  unfold eraseDisplay Screen.eraseDisplay
  simp only [eraseSpan_eq h, apply_ite some]
  rfl

theorem eraseLine_eq (h : Sound True cols rows s) (mode : UInt16) :
    eraseLine s mode = some (s.eraseLine mode) := by
  unfold eraseLine Screen.eraseLine
  simp only [eraseSpan_eq h, apply_ite some]

/-- The lines from the cursor to the end of the region are lines of the grid. -/
theorem lineRoom_eq (h : Sound True cols rows s) : ∃ n, lineRoom s = some n := by
  unfold lineRoom
  split
  case isTrue => exact ⟨0, rfl⟩
  case isFalse =>
    refine ⟨_, add16_one (b := s.rows) ?_⟩
    have hbottom := h.bottom_lt
    rw [toNat_satSub16, h.rows_eq]
    omega

theorem insertLines_eq (h : Sound True cols rows s) (n : UInt16) :
    insertLines s n = some (s.insertLines n) := by
  obtain ⟨room, hroom⟩ := lineRoom_eq h
  unfold insertLines
  rw [hroom]
  rfl

theorem deleteLines_eq (h : Sound True cols rows s) (n : UInt16) :
    deleteLines s n = some (s.deleteLines n) := by
  obtain ⟨room, hroom⟩ := lineRoom_eq h
  unfold deleteLines
  rw [hroom]
  rfl

/-- The cells deleted end inside the row. -/
theorem deleteCells_eq (s : Screen) (n : UInt16) : deleteCells s n = some (s.deleteCells n) := by
  have hcols := s.cols.toNat_lt
  have hle : (min n (satSub16 s.cols s.cursorCol)).toNat ≤ s.cols.toNat - s.cursorCol.toNat := by
    rw [toNat_min16, toNat_satSub16]
    omega
  unfold deleteCells Screen.deleteCells
  dsimp only
  generalize min n (satSub16 s.cols s.cursorCol) = n at hle ⊢
  split
  case isTrue => rfl
  case isFalse hn =>
    have hsum : s.cursorCol.toNat + n.toNat < 65536 := by omega
    have hstop : (s.cursorCol + n).toNat = s.cursorCol.toNat + n.toNat := by
      rw [UInt16.toNat_add, Nat.mod_eq_of_lt hsum]
    have hsmash : (List.range' s.cursorCol.toNat n.toNat).foldlM
        (fun s' c => do smashWideAt s' (← cast16 c) s.cursorRow) s =
          some (s.smashCols s.cursorRow s.cursorCol.toNat n.toNat) := by
      refine foldlM_of_some (fun c hc t => ?_) s
      obtain ⟨k, hk, rfl⟩ := List.mem_range'.mp hc
      rw [cast16_eq (by omega), some_bind_eq]
      exact smashWideAt_eq t _ _
    rw [add16_eq hsum, some_bind_eq, hstop, Nat.add_sub_cancel_left, hsmash]
    rfl

-- ---------------------------------------------------------------------------
-- Replies and SGR
-- ---------------------------------------------------------------------------

theorem cursor_room (h : Sound True cols rows s) :
    s.cursorRow.toNat + (1 : UInt16).toNat < 65536 ∧ s.cursorCol.toNat + (1 : UInt16).toNat < 65536 := by
  have hrow := h.cursorRow_lt
  have hcol := h.cursorCol_lt
  have hrows := s.rows.toNat_lt
  have hcols := s.cols.toNat_lt
  rw [h.rows_eq] at hrows
  rw [h.cols_eq] at hcols
  rw [UInt16.toNat_one]
  omega

theorem replyDsrCursor_eq (h : Sound True cols rows s) :
    replyDsrCursor s = some s.replyDsrCursor := by
  obtain ⟨hrow, hcol⟩ := cursor_room h
  unfold replyDsrCursor Screen.replyDsrCursor
  rw [add16_eq hrow, add16_eq hcol, satAdd16_eq hrow, satAdd16_eq hcol]
  rfl

/-- From 30 on, a parameter is a colour or nothing. -/
theorem sgrOne_of_ge {n : UInt16} (h : 30 ≤ n) : s.sgrOne n =
    if 30 ≤ n && n ≤ 37 then { s with penFg := paintIndexed (n - 30) }
    else if 90 ≤ n && n ≤ 97 then { s with penFg := paintIndexed (n - 90 + 8) }
    else if 40 ≤ n && n ≤ 47 then { s with penBg := paintIndexed (n - 40) }
    else if 100 ≤ n && n ≤ 107 then { s with penBg := paintIndexed (n - 100 + 8) }
    else if n = 39 then { s with penFg := .default }
    else if n = 49 then { s with penBg := .default }
    else s := by
  have hne : ∀ k : UInt16, k < 30 → ¬ n = k := by
    rintro _ hk rfl
    exact UInt16.not_lt.mpr h hk
  unfold Screen.sgrOne
  rw [if_neg (hne 0 (by decide)), if_neg (hne 1 (by decide)), if_neg (hne 4 (by decide)),
    if_neg (hne 7 (by decide)), if_neg (hne 22 (by decide)), if_neg (hne 24 (by decide)),
    if_neg (hne 27 (by decide))]

theorem sgrOne_eq (s : Screen) (n : UInt16) : sgrOne s n = some (s.sgrOne n) := by
  have hge : ∀ {lo hi : UInt16}, (decide (lo ≤ n) && decide (n ≤ hi)) = true → 30 ≤ lo → 30 ≤ n := by
    intro lo hi h hlo
    rw [Bool.and_eq_true, decide_eq_true_eq] at h
    exact UInt16.le_trans hlo h.1
  have hrange : ∀ {lo hi : UInt16}, (decide (lo ≤ n) && decide (n ≤ hi)) = true →
      lo.toNat ≤ n.toNat ∧ n.toNat ≤ hi.toNat := by
    intro lo hi h
    rw [Bool.and_eq_true, decide_eq_true_eq, decide_eq_true_eq, UInt16.le_iff_toNat_le,
      UInt16.le_iff_toNat_le] at h
    exact h
  have hsub : ∀ {lo : UInt16}, lo.toNat ≤ n.toNat → n.toNat ≤ lo.toNat + 7 →
      (n - lo).toNat + (8 : UInt16).toNat < 65536 := by
    intro lo hlo hhi
    rw [UInt16.toNat_sub_of_le _ _ (UInt16.le_iff_toNat_le.mpr hlo)]
    change n.toNat - lo.toNat + 8 < 65536
    omega
  unfold sgrOne
  by_cases h30 : (30 ≤ n && n ≤ 37) = true
  · have hle := UInt16.le_iff_toNat_le.mpr (hrange h30).1
    rw [if_pos h30, sub16_eq hle, sgrOne_of_ge hle, if_pos h30]
    rfl
  rw [if_neg h30]
  by_cases h90 : (90 ≤ n && n ≤ 97) = true
  · obtain ⟨hlo, hhi⟩ := hrange h90
    rw [if_pos h90, sub16_eq (UInt16.le_iff_toNat_le.mpr hlo), some_bind_eq, add16_eq (hsub hlo hhi),
      sgrOne_of_ge (hge h90 (by decide)), if_neg h30, if_pos h90]
    rfl
  rw [if_neg h90]
  by_cases h40 : (40 ≤ n && n ≤ 47) = true
  · rw [if_pos h40, sub16_eq (UInt16.le_iff_toNat_le.mpr (hrange h40).1),
      sgrOne_of_ge (hge h40 (by decide)), if_neg h30, if_neg h90, if_pos h40]
    rfl
  rw [if_neg h40]
  by_cases h100 : (100 ≤ n && n ≤ 107) = true
  · obtain ⟨hlo, hhi⟩ := hrange h100
    rw [if_pos h100, sub16_eq (UInt16.le_iff_toNat_le.mpr hlo), some_bind_eq, add16_eq (hsub hlo hhi),
      sgrOne_of_ge (hge h100 (by decide)), if_neg h30, if_neg h90, if_neg h40, if_pos h100]
    rfl
  rw [if_neg h100]

theorem sgrLoop_eq (s : Screen) (params : List UInt16) :
    sgrLoop s params = some (s.sgrLoop params) := by
  fun_induction Screen.sgrLoop s params with
  | case1 s => rw [sgrLoop]
  | case2 s n h => rw [sgrLoop, if_pos h]
  | case3 s n h kind hkind => rw [sgrLoop, if_pos h, if_pos hkind]
  | case4 s n h kind hkind ih => rw [sgrLoop, if_pos h, if_neg hkind, ih]
  | case5 s n h r tail ih =>
    unfold sgrLoop
    rw [if_pos h]
    exact (if_pos rfl).trans ih
  | case6 s n h r g b rest hkind ih => rw [sgrLoop, if_pos h, if_neg hkind, if_pos rfl, ih]
  | case7 s n h r short hshort hkind ih =>
    unfold sgrLoop
    rw [if_pos h]
    refine (if_neg hkind).trans ((if_pos rfl).trans ?_)
    cases short with
    | nil => exact ih
    | cons g short =>
      cases short with
      | nil => exact ih
      | cons b rest => exact (hshort g b rest rfl).elim
  | case8 s n h kind r tail hfive htwo ih =>
    unfold sgrLoop
    rw [if_pos h]
    exact (if_neg hfive).trans ((if_neg htwo).trans ih)
  | case9 s n rest h ih =>
    unfold sgrLoop
    rw [if_neg h, sgrOne_eq, some_bind_eq, ih]

theorem applySgr_eq (s : Screen) (params : List UInt16) : applySgr s params = some (s.applySgr params) :=
  sgrLoop_eq s _

-- ---------------------------------------------------------------------------
-- Actions
-- ---------------------------------------------------------------------------

theorem csiDispatch_eq (h : Sound True cols rows s) (params : List UInt16) (action : Char) :
    csiDispatch s params action = some (s.csiDispatch params action) := by
  unfold csiDispatch
  dsimp only
  split
  case h_1 => exact eraseDisplay_eq h _
  case h_2 => exact eraseLine_eq h _
  case h_3 => exact eraseSpan_eq h _ _
  case h_4 => exact insertLines_eq h _
  case h_5 => exact deleteLines_eq h _
  case h_6 => exact deleteCells_eq s _
  case h_7 => exact setScrollRegion_eq s params
  case h_8 => exact applySgr_eq s params
  case h_9 =>
    split
    case isTrue hsix =>
      rw [replyDsrCursor_eq h]
      exact congrArg some (if_pos hsix).symm
    case isFalse => rfl
  case h_10 => rfl

theorem csi_eq (h : Sound True cols rows s) (params : List UInt16) (intermediates : List UInt8)
    (ignore : Bool) (action : Char) :
    csi s params intermediates ignore action = some (s.csi params intermediates ignore action) := by
  cases ignore with
  | true => rfl
  | false =>
    cases intermediates with
    | nil => exact csiDispatch_eq h params action
    | cons b intermediates => rfl

theorem esc_eq (s : Screen) (intermediates : List UInt8) (byte : UInt8) :
    esc s intermediates byte = some (s.esc intermediates byte) := by
  unfold esc
  split
  case isTrue hb =>
    subst hb
    exact index_eq _
  case isFalse =>
    split
    case isTrue hb =>
      subst hb
      exact index_eq _
    case isFalse =>
      split
      case isTrue hb =>
        subst hb
        exact reverseIndex_eq _
      case isFalse => rfl

/-- From the last tab stop but one before 65536 the next is no word. -/
def WrapsTab (s : Screen) (a : Action) : Prop := a = .execute 0x09 ∧ 65528 ≤ s.cursorCol.toNat

theorem toNat_div8 (col : UInt16) : (col / 8).toNat = col.toNat / 8 := UInt16.toNat_div col 8

theorem toNat_tab {col : UInt16} : (col / 8 + 1).toNat = col.toNat / 8 + 1 := by
  have hlt := col.toNat_lt
  rw [UInt16.toNat_add, toNat_div8, UInt16.toNat_one]
  omega

theorem add16_tab (col : UInt16) : add16 (col / 8) 1 = some (col / 8 + 1) := by
  have hlt := col.toNat_lt
  refine add16_eq ?_
  rw [toNat_div8, UInt16.toNat_one]
  omega

theorem execute_tab (h : s.cursorCol.toNat < 65528) : execute s 0x09 = some (s.execute 0x09) := by
  have hstop : (s.cursorCol / 8 + 1).toNat * (8 : UInt16).toNat < 65536 := by
    rw [toNat_tab]
    change (s.cursorCol.toNat / 8 + 1) * 8 < 65536
    omega
  change (do
    let next ← mul16 (← add16 (s.cursorCol / 8) 1) 8
    pure ((s.clearPendingWrap.setOpenCluster none).setCursorCol (min next (satSub16 s.cols 1)))) = _
  rw [add16_tab, some_bind_eq, mul16_eq hstop]
  rfl

theorem execute_tab_none (h : 65528 ≤ s.cursorCol.toNat) : execute s 0x09 = none := by
  have hstop : ¬ (s.cursorCol / 8 + 1).toNat * (8 : UInt16).toNat < 65536 := by
    rw [toNat_tab]
    change ¬ (s.cursorCol.toNat / 8 + 1) * 8 < 65536
    omega
  change (do
    let next ← mul16 (← add16 (s.cursorCol / 8) 1) 8
    pure ((s.clearPendingWrap.setOpenCluster none).setCursorCol (min next (satSub16 s.cols 1)))) = _
  have hmul : mul16 (s.cursorCol / 8 + 1) 8 = none := if_neg hstop
  rw [add16_tab, some_bind_eq, hmul]
  rfl

theorem execute_eq {byte : UInt8} (hbyte : ¬ byte = 0x09) : execute s byte = some (s.execute byte) := by
  unfold execute Screen.execute
  rw [if_neg hbyte, if_neg hbyte]
  split
  case isTrue =>
    dsimp only
    split
    case isTrue hpos =>
      rw [sub16_one (UInt16.lt_iff_toNat_lt.mp hpos)]
      rfl
    case isFalse => rfl
  case isFalse =>
    split
    case isTrue => exact index_eq _
    case isFalse => rfl

theorem act_gated (cols rows : Nat) :
    Gated (Whole cols rows) (fun s a => ¬ WrapsTab s a) act Screen.act where
  keep h a := h.act a
  pass {s a} h hok := by
    cases a with
    | print c => exact writeChar_eq h.sound c
    | execute b =>
      by_cases hb : b = 0x09
      · subst hb
        exact execute_tab (Nat.lt_of_not_le fun hcol => hok ⟨rfl, hcol⟩)
      · exact execute_eq hb
    | csi params intermediates ignore action => exact csi_eq h.sound params intermediates ignore action
    | esc intermediates b => exact esc_eq s intermediates b
    | osc payload => rfl
  stop {s a} _ hnot := by
    obtain ⟨rfl, hcol⟩ := Classical.not_not.mp hnot
    exact execute_tab_none hcol

-- ---------------------------------------------------------------------------
-- Repaint
-- ---------------------------------------------------------------------------

theorem emitColor_eq (fg : Bool) (color : Color) : emitColor fg color = some (Vt.emitColor fg color) := by
  cases color with
  | default => rfl
  | rgb r g b => rfl
  | indexed n =>
    have hn : n.toUInt16.toNat = n.toNat := UInt8.toNat_toUInt16 n
    have hlt := n.toNat_lt
    -- No base is past 100, and no number added to it past 255.
    have hbase : ∀ {x y m : UInt16}, x.toNat ≤ 100 → y.toNat ≤ 100 → m.toNat ≤ 255 →
        add16 (if fg then x else y) m = some ((if fg then x else y) + m) := by
      intro x y m hx hy hm
      refine add16_eq ?_
      cases fg with
      | true => exact Nat.lt_of_le_of_lt (Nat.add_le_add hx hm) (by decide)
      | false => exact Nat.lt_of_le_of_lt (Nat.add_le_add hy hm) (by decide)
    unfold emitColor Vt.emitColor
    dsimp only
    split
    case isTrue =>
      rw [hbase (by decide) (by decide) (by omega)]
      rfl
    case isFalse hlow =>
      split
      case isTrue =>
        have hge : (8 : UInt16) ≤ n.toUInt16 := by
          rw [UInt8.not_lt, UInt8.le_iff_toNat_le] at hlow
          rw [UInt16.le_iff_toNat_le, hn]
          exact hlow
        have hle : (n.toUInt16 - 8).toNat ≤ 255 := by
          rw [UInt16.toNat_sub_of_le _ _ hge, hn]
          omega
        rw [sub16_eq hge, some_bind_eq, hbase (by decide) (by decide) hle]
        rfl
      case isFalse => rfl

theorem emitCell_eq (pen : Pen) (cell : Cell) : emitCell pen cell = some (Vt.emitCell pen cell) := by
  unfold emitCell Vt.emitCell
  simp only [emitColor_eq, some_bind_eq, apply_ite some]
  rfl

theorem emitCells_eq (pen : Pen) (cells : List Cell) :
    emitCells pen cells = some (Vt.emitCells pen cells) := by
  induction cells generalizing pen with
  | nil => rfl
  | cons cell cells ih =>
    rw [emitCells, emitCell_eq, some_bind_eq, Vt.emitCells]
    dsimp only
    rw [ih]
    rfl

/-- The loop over a row stops one past its last cell that is not blank. -/
theorem inkEnd_loop {row : List Cell} {cell : Nat → Cell} (hcell : ∀ c (h : c < row.length), cell c = row[c])
    (hrow : row.length < 65536) {n : Nat} (hn : n ≤ row.length) :
    ∃ last, (List.range n).foldlM
        (fun last c => if cellIsBlank (cell c) then some last else do add16 (← cast16 c) 1) 0 = some last ∧
      last.toNat = ((row.take n).rdropWhile cellIsBlank).length := by
  induction n with
  | zero => exact ⟨0, rfl, by rw [List.take_zero]; rfl⟩
  | succ n ih =>
    obtain ⟨last, hlast, hlen⟩ := ih (by omega)
    have htake : row.take (n + 1) = row.take n ++ [row[n]] := (List.take_append_getElem hn).symm
    rw [List.range_succ, List.foldlM_append, hlast, some_bind_eq, List.foldlM_cons, hcell n hn, htake,
      List.rdropWhile_concat]
    by_cases hblank : cellIsBlank row[n] = true
    · rw [if_pos hblank, if_pos hblank]
      exact ⟨last, rfl, hlen⟩
    · have hn' : (UInt16.ofNat n).toNat = n := UInt16.toNat_ofNat_of_lt' (show n < 65536 by omega)
      have hnext : add16 (UInt16.ofNat n) 1 = some (UInt16.ofNat n + 1) := by
        refine add16_eq ?_
        rw [hn', UInt16.toNat_one]
        omega
      rw [if_neg hblank, if_neg hblank, cast16_eq (by omega), some_bind_eq, hnext]
      refine ⟨UInt16.ofNat n + 1, rfl, ?_⟩
      rw [← htake, List.length_take, UInt16.toNat_add, UInt16.toNat_one, hn']
      omega

theorem inkEnd_eq (h : Sound True cols rows s) {r : Nat} (hr : r < rows) :
    ∃ last, inkEnd s r = some last ∧
      (s.cells.drop (r * s.cols.toNat)).take last.toNat = s.inkOfRow r := by
  have hcols := s.cols.toNat_lt
  have hspan := row_span_le cols hr
  have hlen : ((s.cells.drop (r * s.cols.toNat)).take s.cols.toNat).length = s.cols.toNat := by
    rw [List.length_take, List.length_drop, h.length_cells, h.cols_eq]
    omega
  have hcell : ∀ c (hc : c < ((s.cells.drop (r * s.cols.toNat)).take s.cols.toNat).length),
      s.cellAt (r * s.cols.toNat + c) = ((s.cells.drop (r * s.cols.toNat)).take s.cols.toNat)[c] := by
    intro c hc
    rw [hlen, h.cols_eq] at hc
    have hlt : r * s.cols.toNat + c < s.cells.length := by
      rw [h.length_cells, h.cols_eq]
      omega
    rw [List.getElem_take, List.getElem_drop, Screen.cellAt, List.getD_eq_getElem?_getD,
      List.getElem?_eq_getElem hlt, Option.getD_some]
  have hprefix := List.rdropWhile_prefix cellIsBlank ((s.cells.drop (r * s.cols.toNat)).take s.cols.toNat)
  obtain ⟨last, hlast, hink⟩ := inkEnd_loop hcell (by omega) (Nat.le_of_eq hlen.symm)
  rw [List.take_take, Nat.min_self] at hink
  have hle := hprefix.length_le
  rw [← hink, hlen] at hle
  refine ⟨last, hlast, ?_⟩
  change _ = ((s.cells.drop (r * s.cols.toNat)).take s.cols.toNat).rdropWhile cellIsBlank
  rw [List.prefix_iff_eq_take.mp hprefix, ← hink, List.take_take, Nat.min_eq_left hle]

theorem repaintRows_eq (h : Sound True cols rows s) (pen : Pen) (rs : List Nat) (hrs : ∀ r ∈ rs, r < rows) :
    repaintRows s pen rs = some (s.repaintRows pen rs) := by
  induction rs generalizing pen with
  | nil => rfl
  | cons r rs ih =>
    have hr := hrs r List.mem_cons_self
    have hrest := fun pen => ih pen fun r' hr' => hrs r' (List.mem_cons_of_mem r hr')
    obtain ⟨last, hlast, hink⟩ := inkEnd_eq h hr
    have hrows := s.rows.toNat_lt
    have hr16 : (UInt16.ofNat r).toNat = r :=
      UInt16.toNat_ofNat_of_lt' (show r < 65536 by rw [h.rows_eq] at hrows; omega)
    have hlt : (UInt16.ofNat r).toNat < s.rows.toNat := by rw [hr16, h.rows_eq]; exact hr
    have hnext : UInt16.ofNat r + 1 < s.rows ↔ r + 1 < s.rows.toNat := by
      rw [UInt16.lt_iff_toNat_lt, toNat_succ16 hlt, hr16]
    rw [repaintRows, hlast, some_bind_eq, hink, emitCells_eq, some_bind_eq,
      cast16_eq (by rw [hr16] at hlt; omega), Screen.repaintRows]
    dsimp only
    rw [some_bind_eq, add16_one hlt, some_bind_eq]
    simp only [hnext, hrest, some_bind_eq]
    split
    case isTrue => rfl
    case isFalse => rfl

theorem repaintBytes_eq (h : Sound True cols rows s) : repaintBytes s = some s.repaintBytes := by
  obtain ⟨hrow, hcol⟩ := cursor_room h
  have hall : ∀ r ∈ List.range s.rows.toNat, r < rows := by
    intro r hr
    rw [← h.rows_eq]
    exact List.mem_range.mp hr
  unfold repaintBytes Screen.repaintBytes
  rw [repaintRows_eq h .reset _ hall, add16_eq hrow, add16_eq hcol, satAdd16_eq hrow, satAdd16_eq hcol]
  rfl

end Checked

namespace VtEngine

open Checked

-- ---------------------------------------------------------------------------
-- Feeding
-- ---------------------------------------------------------------------------

/-- The engines bytes are fed to: a host's, and the cleared one a resync
replays its history into. -/
inductive Feeding : VtEngine → Prop
  | hosted : Hosted e → Feeding e
  | replay : Hosted e → e.reset = .ok f →
      Feeding { f with screen := f.screen.setDiscardReplies true }

/-- Where a tab takes the cursor: never to the left, and to the next multiple of
eight or, where the grid ends before it, to the last column. -/
structure TabStop (s t : Screen) : Prop where
  right : s.cursorCol ≤ t.cursorCol
  stop : t.cursorCol.toNat = min ((s.cursorCol.toNat / 8 + 1) * 8) (s.cols.toNat - 1)

/-- No word wraps while `bytes` are fed, nor in a repaint of what they leave, and
every tab among them goes to a tab stop. -/
structure WordsFit (e : VtEngine) (bytes : List UInt8) : Prop where
  feed : Checked.feed e bytes = some (e.feed bytes)
  repaint : repaintBytes (e.feed bytes).screen = some (e.feed bytes).screen.repaintBytes
  tabs : ∀ pre post, (e.parser.feed bytes).2 = pre ++ .execute 0x09 :: post →
    TabStop (pre.foldl Screen.act e.screen) ((pre.foldl Screen.act e.screen).execute 0x09)

/-- Every tab among `bytes` finds the cursor before column 65528. -/
def TabsClear (e : VtEngine) (bytes : List UInt8) : Prop :=
  ∀ pre post, (e.parser.feed bytes).2 = pre ++ .execute 0x09 :: post →
    (pre.foldl Screen.act e.screen).cursorCol.toNat < 65528

theorem Feeding.fits (h : Feeding e) : Fits e := by
  cases h with
  | hosted he => exact he.fits
  | replay he hreset => exact (fits_new hreset).setDiscardReplies true

/-- The checked feed goes through where every tab does. -/
theorem checked_feed_iff (h : Fits e) (bytes : List UInt8) :
    Checked.feed e bytes = some (e.feed bytes) ↔ TabsClear e bytes := by
  obtain ⟨⟨cols, rows, hs⟩, -⟩ := h
  have hrun := (act_gated cols rows).foldlM_eq_some_iff (e.parser.feed bytes).2 hs
  have hmap : Checked.feed e bytes =
      ((e.parser.feed bytes).2.foldlM Checked.act e.screen).map (VtEngine.mk (e.parser.feed bytes).1) := by
    unfold Checked.feed
    dsimp only
    cases (e.parser.feed bytes).2.foldlM Checked.act e.screen <;> rfl
  have hfeed : Checked.feed e bytes = some (e.feed bytes) ↔
      (e.parser.feed bytes).2.foldlM Checked.act e.screen =
        some ((e.parser.feed bytes).2.foldl Screen.act e.screen) := by
    rw [hmap, Option.map_eq_some_iff]
    refine ⟨?_, fun hsome => ⟨_, hsome, rfl⟩⟩
    rintro ⟨s, hsome, heq⟩
    rw [hsome]
    exact congrArg (fun f : VtEngine => some f.screen) heq
  refine hfeed.trans (hrun.trans ⟨?_, ?_⟩)
  · intro hall pre post heq
    exact Nat.lt_of_not_le fun hcol => hall pre _ post heq ⟨rfl, hcol⟩
  · rintro hclear pre _ post heq ⟨rfl, hcol⟩
    exact Nat.not_le.mpr (hclear pre post heq) hcol

theorem tabStop_iff (h : Sound True cols rows s) : TabStop s (s.execute 0x09) ↔ s.cursorCol.toNat < 65528 := by
  have hlt := h.cursorCol_lt
  have hcols := h.cols_eq
  have hmax := s.cols.toNat_lt
  have hcursor : (s.execute 0x09).cursorCol = min ((s.cursorCol / 8 + 1) * 8) (satSub16 s.cols 1) := rfl
  have hto : (s.execute 0x09).cursorCol.toNat =
      min ((s.cursorCol.toNat / 8 + 1) * 8 % 65536) (s.cols.toNat - 1) := by
    rw [hcursor, toNat_min16, UInt16.toNat_mul, toNat_tab, toNat_satSub16]
    rfl
  refine ⟨fun htab => ?_, fun hclear => ⟨?_, ?_⟩⟩
  · have hright := UInt16.le_iff_toNat_le.mp htab.right
    rw [hto] at hright
    omega
  · rw [UInt16.le_iff_toNat_le, hto]
    omega
  · rw [hto]
    omega

/-- A feed wraps a word exactly where a tab is executed from column 65528 on. -/
theorem wordsFit_iff (h : Feeding e) (bytes : List UInt8) : WordsFit e bytes ↔ TabsClear e bytes := by
  obtain ⟨⟨cols, rows, hs⟩, hparser⟩ := h.fits
  refine ⟨fun hfit => (checked_feed_iff h.fits bytes).mp hfit.feed, fun hclear => ?_⟩
  exact {
    feed := (checked_feed_iff h.fits bytes).mpr hclear
    repaint := repaintBytes_eq (hs.acts _).sound
    tabs := fun pre post heq => (tabStop_iff (hs.acts pre).sound).mpr (hclear pre post heq) }

/-- A tab on a new engine of 20 columns. -/
theorem wordsFit_tab :
    let e := (VtEngine.new 20 1).toOption.get rfl
    WordsFit e [0x09] ∧ (e.feed [0x09]).screen.cursorCol = 8 := by
  intro e
  have hfeeding : Feeding e := .hosted (.new (show VtEngine.new 20 1 = _ from rfl))
  have hacts : (e.parser.feed [0x09]).2 = [.execute 0x09] := by decide
  have hcol : e.screen.cursorCol.toNat < 65528 := by decide
  refine ⟨(wordsFit_iff hfeeding _).mpr fun pre post heq => ?_, by decide⟩
  rw [hacts] at heq
  cases pre with
  | nil => exact hcol
  | cons a pre =>
    obtain ⟨-, htail⟩ := List.cons.inj heq
    cases pre <;> cases htail

/-- On 65529 columns, with the cursor in the last, the next tab stop is 65536. -/
theorem tab_wraps :
    let e := (VtEngine.new 65529 1).toOption.get rfl
    let f := e.feed [0x1b, 0x5b, 0x36, 0x35, 0x35, 0x32, 0x39, 0x47]
    Feeding f ∧ f.screen.cursorCol = 65528 ∧ (f.feed [0x09]).screen.cursorCol = 0 ∧
      Checked.feed f [0x09] = none ∧ ¬ WordsFit f [0x09] := by
  intro e f
  have hhosted : Hosted e := .new (show VtEngine.new 65529 1 = _ from rfl)
  have hcol : f.screen.cursorCol = 65528 := by decide
  have hparsed : f.parser.feed [0x09] = (.new, [.execute 0x09]) := by decide
  have hnone : Checked.feed f [0x09] = none := by
    unfold Checked.feed
    have hact : act f.screen (.execute 0x09) = none :=
      execute_tab_none (Nat.le_of_eq (congrArg UInt16.toNat hcol).symm)
    rw [hparsed]
    dsimp only
    rw [List.foldlM_cons, hact]
    rfl
  refine ⟨.hosted (hhosted.feed _), hcol, by decide, hnone, fun hfit => ?_⟩
  have hsome := hfit.feed
  rw [hnone] at hsome
  cases hsome

end VtEngine

end Rill.Vt
