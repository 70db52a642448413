import Rill.Lib.Halves
import Rill.Vt.Bounds

/-!
# Wide glyphs in pairs

A wide glyph is a cell with the lead bit and, to its right, one with the tail
bit. Printing, erasing and scrolling keep the two together in both grids.
Inserting cells, widening a cluster and cutting columns off do not look, so each
of these asks that no pair straddles where it cuts.
-/

namespace Rill.Vt

open Lib Function

def Cell.isLead (c : Cell) : Bool := c.attrs &&& attrWideLead ≠ 0

def Cell.isTail (c : Cell) : Bool := c.attrs &&& attrWideTail ≠ 0

/-- The halves of wide glyphs. -/
def wideHalves : Halves Cell where
  lead := Cell.isLead
  tail := Cell.isTail
  same lead tail := tail.codepoint = lead.codepoint

/-- The cells of a grid by their places; past the end they are blank. -/
def gridCell (cells : List Cell) (i : Nat) : Cell := cells.getD i (Cell.blank .default)

structure Joined (cols rows : Nat) (s : Screen) : Prop extends Sound True cols rows s where
  active : wideHalves.Paired cols (gridCell s.cells)
  saved : ∀ grid, s.savedGrid = some grid → wideHalves.Paired cols (gridCell grid)

-- ---------------------------------------------------------------------------
-- Cells
-- ---------------------------------------------------------------------------

theorem plain_of_attrs {c : Cell} (h : c.attrs &&& 24 = 0) : wideHalves.Plain c := by
  have hbits : (c.attrs &&& 8 = 0) ∧ (c.attrs &&& 16 = 0) := by
    have h8 : (8 : UInt16) = 24 &&& 8 := by decide
    have h16 : (16 : UInt16) = 24 &&& 16 := by decide
    rw [h8, h16, ← UInt16.and_assoc, ← UInt16.and_assoc, h]
    exact ⟨UInt16.zero_and, UInt16.zero_and⟩
  exact ⟨by simp [wideHalves, Cell.isLead, attrWideLead, hbits.1],
    by simp [wideHalves, Cell.isTail, attrWideTail, hbits.2]⟩

theorem plain_blank (bg : Color) : wideHalves.Plain (Cell.blank bg) := plain_of_attrs UInt16.zero_and

theorem gridCell_set {cells : List Cell} {i : Nat} (h : i < cells.length) (c : Cell) :
    gridCell (cells.set i c) = update (gridCell cells) i c := by
  funext j
  by_cases hj : j = i
  · subst hj
    simp [gridCell, h]
  · rw [update_of_ne hj]
    simp [gridCell, List.getD, Ne.symm hj]

theorem gridCell_mapIdx {cells : List Cell} {i : Nat} (h : i < cells.length) (f : Nat → Cell → Cell) :
    gridCell (cells.mapIdx f) i = f i (gridCell cells i) := by
  simp [gridCell, h]

theorem gridCell_mapIdx_of_le {cells : List Cell} {i : Nat} (h : cells.length ≤ i)
    (f : Nat → Cell → Cell) : gridCell (cells.mapIdx f) i = gridCell cells i := by
  simp [gridCell, h]

theorem gridCell_replicate (n : Nat) (bg : Color) (i : Nat) :
    wideHalves.Plain (gridCell (List.replicate n (Cell.blank bg)) i) := by
  unfold gridCell
  rw [List.getD_eq_getElem?_getD, List.getElem?_replicate]
  split
  · exact plain_blank bg
  · exact plain_blank .default

theorem gridCell_blanks (n i : Nat) :
    gridCell (List.replicate n (Cell.blank .default)) i = Cell.blank .default := by
  unfold gridCell
  rw [List.getD_eq_getElem?_getD, List.getElem?_replicate]
  split
  · rfl
  · rfl

theorem paired_of_plain {cols : Nat} {f : Nat → Cell} (h : ∀ i, wideHalves.Plain (f i)) :
    wideHalves.Paired cols f where
  first := (h 0).tail
  seam i := Halves.Apart.seam ⟨(h i).lead, (h (i + 1)).tail⟩
  one i := (h i).one

namespace Screen

variable {s : Screen} {strict : Prop} {cols rows lo hi dst : Nat}

theorem gridCell_fillCells (h : hi ≤ s.cells.length) (c : Cell) (i : Nat) :
    gridCell (s.fillCells lo hi c).cells i =
      if lo ≤ i ∧ i < hi then c else gridCell s.cells i := by
  by_cases hi' : i < s.cells.length
  · exact gridCell_mapIdx hi' _
  · rw [if_neg (by omega)]
    exact gridCell_mapIdx_of_le (by omega) _

theorem gridCell_copyWithin (h : dst + (hi - lo) ≤ s.cells.length) (i : Nat) :
    gridCell (s.copyWithin lo hi dst).cells i =
      if dst ≤ i ∧ i < dst + (hi - lo) then gridCell s.cells (lo + (i - dst))
      else gridCell s.cells i := by
  by_cases hi' : i < s.cells.length
  · exact gridCell_mapIdx hi' _
  · rw [if_neg (by omega)]
    exact gridCell_mapIdx_of_le (by omega) _

theorem gridCell_smashHalf {found : Bool} {other : Nat} (h : found = true → other < s.cells.length)
    (attr : UInt16) :
    gridCell (s.smashHalf found other attr).cells =
      if found = true ∧ (gridCell s.cells other).attrs &&& attr ≠ 0 then
        update (gridCell s.cells) other (Cell.blank s.penBg)
      else gridCell s.cells := by
  unfold Screen.smashHalf
  by_cases hfound : found = true
  · rw [if_pos hfound]
    by_cases hattr : (gridCell s.cells other).attrs &&& attr ≠ 0
    · refine (congrArg (fun u => gridCell (cells u)) (if_pos hattr)).trans ?_
      rw [if_pos ⟨hfound, hattr⟩]
      exact gridCell_set (h hfound) _
    · refine (congrArg (fun u => gridCell (cells u)) (if_neg hattr)).trans ?_
      rw [if_neg fun hboth => hattr hboth.2]
      rfl
  · rw [if_neg hfound, if_neg fun hboth => hfound hboth.1]

theorem idx_mod (h : s.cols.toNat = cols) {col : UInt16} (hc : col.toNat < cols) (row : UInt16) :
    s.idx col row % cols = col.toNat := by
  rw [Screen.idx, h, Nat.mul_add_mod_self_right, Nat.mod_eq_of_lt hc]

theorem idx_succ (h : s.cols.toNat = cols) {col : UInt16} (hc : col.toNat + 1 < cols)
    (row : UInt16) : s.idx (col + 1) row = s.idx col row + 1 := by
  have hcol := toNat_succ16 (a := col) (b := s.cols) (by omega)
  rw [Screen.idx, hcol, Screen.idx]
  omega

theorem idx_pred {col : UInt16} (hc : 0 < col.toNat) (row : UInt16) :
    s.idx (col - 1) row = s.idx col row - 1 := by
  have hcol := toNat_pred16 (a := col) (b := 0) hc
  rw [Screen.idx, hcol, Screen.idx]
  omega

/-- Whether a cell is the last of its row, by the column or by the place. -/
theorem succ_lt_cols_iff (h : Sound strict cols rows s) {col : UInt16} (hc : col.toNat < cols)
    (row : UInt16) : col + 1 < s.cols ↔ (s.idx col row + 1) % cols ≠ 0 := by
  have hcols := h.cols_eq
  have hcol := toNat_succ16 (a := col) (b := s.cols) (by omega)
  rw [UInt16.lt_iff_toNat_lt, hcol, hcols, Screen.idx, hcols, Nat.add_assoc,
    Nat.mul_add_mod_self_right]
  rcases Nat.eq_or_lt_of_le hc with heq | hlt
  · rw [← Nat.succ_eq_add_one, heq, Nat.mod_self]
    omega
  · rw [← Nat.succ_eq_add_one, Nat.mod_eq_of_lt hlt]
    omega

theorem isLead_iff (c : Cell) : c.attrs &&& attrWideLead ≠ 0 ↔ wideHalves.lead c = true := by
  simp [wideHalves, Cell.isLead]

theorem isTail_iff (c : Cell) : c.attrs &&& attrWideTail ≠ 0 ↔ wideHalves.tail c = true := by
  simp [wideHalves, Cell.isTail]

/-- The other half of a wide glyph is found by place alone. -/
theorem gridCell_smashWideAt (h : Sound strict cols rows s) {col row : UInt16}
    (hc : col.toNat < cols) (hr : row.toNat < rows) :
    gridCell (s.smashWideAt col row).cells =
      wideHalves.smash cols (Cell.blank s.penBg) (gridCell s.cells) (s.idx col row) := by
  have hin : ¬ (col ≥ s.cols || row ≥ s.rows) = true := by
    simp only [Bool.or_eq_true, decide_eq_true_eq, not_or, UInt16.not_le, ge_iff_le,
      UInt16.lt_iff_toNat_lt, h.cols_eq, h.rows_eq]
    exact ⟨hc, hr⟩
  have htouch := h.touch (h.idx_lt hc hr)
  have hnext := succ_lt_cols_iff h hc row
  have hmod := idx_mod h.cols_eq hc row
  rw [Screen.smashWideAt, if_neg hin]
  dsimp only
  generalize hlead : ((s.cellAt (s.idx col row)).attrs &&& attrWideLead ≠ 0 && col + 1 < s.cols) = lead
  generalize htail : ((s.cellAt (s.idx col row)).attrs &&& attrWideTail ≠ 0 && col > 0) = tail
  have hlead' : lead = true ↔
      wideHalves.lead (gridCell s.cells (s.idx col row)) = true ∧ (s.idx col row + 1) % cols ≠ 0 := by
    rw [← hlead, Bool.and_eq_true, decide_eq_true_eq, decide_eq_true_eq, isLead_iff, hnext]
    rfl
  have htail' : tail = true ↔
      wideHalves.tail (gridCell s.cells (s.idx col row)) = true ∧ s.idx col row % cols ≠ 0 := by
    rw [← htail, Bool.and_eq_true, decide_eq_true_eq, decide_eq_true_eq, isTail_iff, hmod,
      gt_iff_lt, UInt16.lt_iff_toNat_lt, UInt16.toNat_zero, Nat.pos_iff_ne_zero]
    rfl
  have hcols := h.cols_eq
  have hright : lead = true → s.idx (col + 1) row = s.idx col row + 1 := by
    intro hfound
    have hlt := hnext.mpr (hlead'.mp hfound).2
    rw [UInt16.lt_iff_toNat_lt, hcols, toNat_succ16 (b := s.cols) (by omega)] at hlt
    exact idx_succ hcols hlt row
  have hleft : tail = true → s.idx (col - 1) row = s.idx col row - 1 := by
    intro hfound
    have hpos := (htail'.mp hfound).2
    exact idx_pred (by omega) row
  have hrightlt : lead = true → s.idx (col + 1) row < s.cells.length := by
    intro hfound
    have hlt := hnext.mpr (hlead'.mp hfound).2
    rw [UInt16.lt_iff_toNat_lt, hcols] at hlt
    exact h.idx_lt hlt hr
  -- the tail to the right of a lead goes first
  have hfirst : gridCell ((s.touch (s.idx col row)).smashHalf lead (s.idx (col + 1) row)
      attrWideTail).cells =
      if wideHalves.lead (gridCell s.cells (s.idx col row)) ∧ (s.idx col row + 1) % cols ≠ 0 ∧
          wideHalves.tail (gridCell s.cells (s.idx col row + 1)) then
        update (gridCell s.cells) (s.idx col row + 1) (Cell.blank s.penBg)
      else gridCell s.cells := by
    refine (gridCell_smashHalf (s := s.touch (s.idx col row)) hrightlt attrWideTail).trans ?_
    by_cases hfound : lead = true
    · rw [hright hfound]
      refine if_congr ?_ rfl rfl
      rw [isTail_iff, hlead', and_assoc]
      rfl
    · rw [if_neg fun hboth => hfound hboth.1,
        if_neg fun hboth => hfound (hlead'.mpr ⟨hboth.1, hboth.2.1⟩)]
      rfl
  have hsound := htouch.smashHalf hrightlt attrWideTail
  have hframe := ((Draws.refl s).touch (s.idx col row)).smashHalf lead (s.idx (col + 1) row)
    attrWideTail
  generalize hu : (s.touch (s.idx col row)).smashHalf lead (s.idx (col + 1) row) attrWideTail = u
    at hfirst hsound hframe
  have htouchidx : (s.touch (s.idx col row)).idx (col + 1) row = s.idx (col + 1) row := rfl
  rw [htouchidx, hu]
  have hidx : u.idx (col - 1) row = s.idx (col - 1) row := by rw [Screen.idx, hframe.cols]; rfl
  have hpen : u.penBg = s.penBg := hframe.congr Screen.penBg fun _ _ => rfl
  rw [hidx, Halves.smash, ← hfirst]
  refine (gridCell_smashHalf (fun hfound => ?_) attrWideLead).trans ?_
  · have hi := h.idx_lt hc hr
    rw [hleft hfound, hsound.length_cells, ← h.length_cells]
    omega
  · rw [hpen]
    by_cases hfound : tail = true
    · rw [hleft hfound]
      refine if_congr ?_ rfl rfl
      rw [isLead_iff, htail', and_assoc]
    · rw [if_neg fun hboth => hfound hboth.1,
        if_neg fun hboth => hfound (htail'.mpr ⟨hboth.1, hboth.2.1⟩)]

/-- A walk over cells smashes their places in order. -/
theorem gridCell_smashes (h : Sound strict cols rows s) (pos : Nat → UInt16 × UInt16) (l : List Nat)
    (hin : ∀ i ∈ l, (pos i).1.toNat < cols ∧ (pos i).2.toNat < rows) :
    gridCell (l.foldl (fun s i => s.smashWideAt (pos i).1 (pos i).2) s).cells =
      (l.map fun i => s.idx (pos i).1 (pos i).2).foldl
        (wideHalves.smash cols (Cell.blank s.penBg)) (gridCell s.cells) := by
  induction l generalizing s with
  | nil => rfl
  | cons i l ih =>
    obtain ⟨hc, hr⟩ := hin i List.mem_cons_self
    have hframe := (Draws.refl s).smashWideAt (pos i).1 (pos i).2
    have hpen : (s.smashWideAt (pos i).1 (pos i).2).penBg = s.penBg :=
      hframe.congr Screen.penBg fun _ _ => rfl
    have hidx : ∀ col row, (s.smashWideAt (pos i).1 (pos i).2).idx col row = s.idx col row :=
      fun _ _ => by rw [Screen.idx, hframe.cols]; rfl
    rw [List.foldl_cons, List.map_cons, List.foldl_cons,
      ih (h.smashWideAt _ _) fun j hj => hin j (List.mem_cons_of_mem _ hj), hpen,
      gridCell_smashWideAt h hc hr]
    simp only [hidx]

theorem toNat_ofNat16 {n : Nat} (h : n < m) (hm : m ≤ 65535) : (UInt16.ofNat n).toNat = n := by
  rw [UInt16.toNat_ofNat']
  omega

theorem cols_le (h : Sound strict cols rows s) : cols ≤ 65535 := by
  have hlt := s.cols.toNat_lt
  have hcols := h.cols_eq
  omega

theorem rows_le (h : Sound strict cols rows s) : rows ≤ 65535 := by
  have hlt := s.rows.toNat_lt
  have hrows := h.rows_eq
  omega

theorem gridCell_smashSpan (lo : Nat) (h : Sound strict cols rows s) (hhi : hi ≤ cols * rows) :
    gridCell (s.smashSpan lo hi).cells =
      (List.range' lo (hi - lo)).foldl (wideHalves.smash cols (Cell.blank s.penBg))
        (gridCell s.cells) := by
  have hpos := h.cols_pos
  have hcols : max s.cols.toNat 1 = cols := by
    rw [h.cols_eq]
    omega
  have hplace : ∀ i ∈ List.range' lo (hi - lo),
      (UInt16.ofNat (i % cols)).toNat = i % cols ∧ i % cols < cols ∧
        (UInt16.ofNat (i / cols)).toNat = i / cols ∧ i / cols < rows := by
    intro i hi'
    rw [List.mem_range'_1] at hi'
    have hc := Nat.mod_lt i hpos
    have hr : i / cols < rows := Nat.div_lt_of_lt_mul (by omega)
    exact ⟨toNat_ofNat16 hc (cols_le h), hc, toNat_ofNat16 hr (rows_le h), hr⟩
  rw [Screen.smashSpan, hcols]
  refine (gridCell_smashes h (fun i => (UInt16.ofNat (i % cols), UInt16.ofNat (i / cols))) _
    fun i hi' => ?_).trans ?_
  · obtain ⟨hc, hc', hr, hr'⟩ := hplace i hi'
    exact ⟨hc.symm ▸ hc', hr.symm ▸ hr'⟩
  · have hid : ∀ i ∈ List.range' lo (hi - lo),
        s.idx (UInt16.ofNat (i % cols)) (UInt16.ofNat (i / cols)) = id i := by
      intro i hi'
      obtain ⟨hc, -, hr, -⟩ := hplace i hi'
      rw [Screen.idx, hc, hr, h.cols_eq]
      exact Nat.div_add_mod' i cols
    rw [List.map_congr_left hid, List.map_id]

theorem gridCell_smashCols (h : Sound strict cols rows s) {row : UInt16} {col n : Nat}
    (hc : col + n ≤ cols) (hr : row.toNat < rows) :
    gridCell (s.smashCols row col n).cells =
      (List.range' (s.idx 0 row + col) n).foldl (wideHalves.smash cols (Cell.blank s.penBg))
        (gridCell s.cells) := by
  have hplace : ∀ c ∈ List.range' col n, (UInt16.ofNat c).toNat = c ∧ c < cols := by
    intro c hc'
    rw [List.mem_range'_1] at hc'
    have hlt : c < cols := by omega
    exact ⟨toNat_ofNat16 hlt (cols_le h), hlt⟩
  refine (gridCell_smashes h (fun c => (UInt16.ofNat c, row)) _ fun c hc' => ?_).trans ?_
  · obtain ⟨hc, hlt⟩ := hplace c hc'
    exact ⟨hc.symm ▸ hlt, hr⟩
  · have hidx : ∀ c ∈ List.range' col n, s.idx (UInt16.ofNat c) row = s.idx 0 row + c := by
      intro c hc'
      obtain ⟨hc, -⟩ := hplace c hc'
      rw [Screen.idx, hc]
      rfl
    rw [List.map_congr_left hidx, List.map_add_range']

end Screen

-- ---------------------------------------------------------------------------
-- Pairs stay together
-- ---------------------------------------------------------------------------

namespace Joined

open Screen

variable {s t : Screen} {cols rows : Nat}

theorem of_same (h : Joined cols rows s) (ht : Sound True cols rows t) (hcells : t.cells = s.cells)
    (hsaved : t.savedGrid = s.savedGrid) : Joined cols rows t where
  toSound := ht
  active := by
    rw [hcells]
    exact h.active
  saved := by
    rw [hsaved]
    exact h.saved

theorem of_drawn (h : Joined cols rows s) (ht : Sound True cols rows t) (hd : Draws s t)
    (hactive : wideHalves.Paired cols (gridCell t.cells)) : Joined cols rows t where
  toSound := ht
  active := hactive
  saved := by
    rw [hd.congr Screen.savedGrid fun _ _ => rfl]
    exact h.saved

theorem ite {c : Prop} [Decidable c] {a b : Screen} (ha : c → Joined cols rows a)
    (hb : ¬ c → Joined cols rows b) : Joined cols rows (if c then a else b) := by
  split
  case isTrue hc => exact ha hc
  case isFalse hc => exact hb hc

theorem foldl {f : Screen → α → Screen} (l : List α)
    (hf : ∀ s, ∀ a ∈ l, Joined cols rows s → Joined cols rows (f s a)) (h : Joined cols rows s) :
    Joined cols rows (l.foldl f s) :=
  List.foldlRecOn l f h fun s hs a ha => hf s a ha hs

theorem iterate {f : Screen → Screen} (hf : ∀ s, Joined cols rows s → Joined cols rows (f s))
    (h : Joined cols rows s) (n : Nat) : Joined cols rows (n.repeat f s) :=
  repeat_keeps hf h n

-- ---------------------------------------------------------------------------
-- Rows
-- ---------------------------------------------------------------------------

theorem copyRow (h : Joined cols rows s) (hsrc : src < rows) (hr : r < rows) :
    Joined cols rows (s.copyRow src r) := by
  have hspan := row_span_le cols hr
  have hlen := h.length_cells
  refine h.of_drawn (h.toSound.copyRow hsrc hr) ((Draws.refl s).copyWithin _ _ _) ?_
  have hcell : ∀ i, gridCell (s.copyRow src r).cells i =
      if r * cols ≤ i ∧ i < r * cols + cols then gridCell s.cells (src * cols + (i - r * cols))
      else gridCell s.cells i := by
    intro i
    rw [Screen.copyRow, h.cols_eq, gridCell_copyWithin (by omega), Nat.add_sub_cancel_left]
  refine h.active.copy (src * cols) (r * cols) cols h.cols_pos (Nat.mul_mod_left _ _)
    (Nat.mul_mod_left _ _) (Nat.mod_self _) (fun i hi => ?_) fun i hi => ?_
  · rw [hcell, if_pos (by omega), Nat.add_sub_cancel_left]
  · rw [hcell, if_neg (by omega)]

theorem copyRows (h : Joined cols rows s) {moves : List (Nat × Nat)}
    (hm : ∀ m ∈ moves, m.1 < rows ∧ m.2 < rows) : Joined cols rows (s.copyRows moves) :=
  foldl moves (fun _ m hmem h => h.copyRow (hm m hmem).1 (hm m hmem).2) h

/-- An open span may be blanked. -/
theorem paired_blankCells {lo hi : Nat} (hopen : wideHalves.Open cols lo hi (gridCell s.cells))
    (hlt : lo < hi) (hhi : hi ≤ s.cells.length) :
    wideHalves.Paired cols (gridCell (s.blankCells lo hi).cells) := by
  refine hopen.close hlt (fun i hi' => ?_) (.of_plain hlt fun i hlo hi' => ?_)
  · rw [Screen.blankCells, gridCell_fillCells hhi, if_neg (by omega)]
  · rw [Screen.blankCells, gridCell_fillCells hhi, if_pos ⟨hlo, hi'⟩]
    exact plain_blank _

theorem blankRow (h : Joined cols rows s) (hr : r < rows) : Joined cols rows (s.blankRow r) := by
  have hspan := row_span_le cols hr
  have hpos := h.cols_pos
  refine h.of_drawn (h.toSound.blankRow hr) ((Draws.refl s).blankRow r) ?_
  rw [Screen.blankRow, h.cols_eq]
  refine paired_blankCells (h.active.open_rows (Nat.mul_mod_left _ _) ?_) (by omega)
    (by rw [h.length_cells]; exact hspan)
  rw [← Nat.succ_mul]
  exact Nat.mul_mod_left _ _

theorem blankRows (h : Joined cols rows s) (hr : first + n ≤ rows) :
    Joined cols rows (s.blankRows first n) := by
  refine foldl _ (fun _ r hmem h => h.blankRow ?_) h
  rw [List.mem_range'_1] at hmem
  omega

theorem damageAll (h : Joined cols rows s) : Joined cols rows s.damageAll :=
  h.of_same h.toSound.damageAll rfl rfl

theorem dirty (h : Joined cols rows s) (row : UInt16) : Joined cols rows (s.dirty row) :=
  h.of_same (h.toSound.dirty row) (agree_dirty s row).cells
    ((agree_dirty s row).congr Screen.savedGrid fun _ _ => rfl)

theorem dirtyRows (h : Joined cols rows s) (first last : Nat) :
    Joined cols rows (s.dirtyRows first last) := foldl _ (fun _ _ _ h => h.dirty _) h

theorem retireRow (h : Joined cols rows s) (hr : row < rows) : Joined cols rows (s.retireRow row) :=
  h.of_same (h.toSound.retireRow hr) (agree_retireRow s row).cells
    ((agree_retireRow s row).congr Screen.savedGrid fun _ _ => rfl)

theorem scrollUp (h : Joined cols rows s) : Joined cols rows s.scrollUp :=
  (((h.retireRow h.top_lt).copyRows h.toSound.scrollUp_moves).blankRow h.bottom_lt).damageAll

theorem scrollDown (h : Joined cols rows s) : Joined cols rows s.scrollDown :=
  ((h.copyRows h.toSound.scrollDown_moves).blankRow h.top_lt).damageAll

theorem index (h : Joined cols rows s) : Joined cols rows s.index := by
  have hsound := h.toSound.index
  unfold Screen.index at hsound ⊢
  split at hsound
  · rw [if_pos ‹_›]
    exact h.of_same hsound rfl rfl
  · rw [if_neg ‹_›]
    exact h.scrollUp

theorem reverseIndex (h : Joined cols rows s) : Joined cols rows s.reverseIndex := by
  have hsound := h.toSound.reverseIndex
  unfold Screen.reverseIndex at hsound ⊢
  split at hsound
  · rw [if_pos ‹_›]
    exact h.of_same hsound rfl rfl
  · rw [if_neg ‹_›]
    exact h.scrollDown

theorem insertLines (h : Joined cols rows s) (n : UInt16) : Joined cols rows (s.insertLines n) := by
  unfold Screen.insertLines
  cases hn : s.lineCount n with
  | none => exact h
  | some m =>
    have hle := lineCount_le hn
    have hlt := h.bottom_lt
    refine ((h.copyRows ?_).blankRows (by omega)).dirtyRows _ _
    intro mv hmv
    obtain ⟨r, hr, rfl⟩ := List.mem_map.mp hmv
    exact h.toSound.lines_moves (List.mem_reverse.mp hr)

theorem deleteLines (h : Joined cols rows s) (n : UInt16) : Joined cols rows (s.deleteLines n) := by
  unfold Screen.deleteLines
  cases hn : s.lineCount n with
  | none => exact h
  | some m =>
    have hle := lineCount_le hn
    have hlt := h.bottom_lt
    refine ((h.copyRows ?_).blankRows (by omega)).dirtyRows _ _
    intro mv hmv
    obtain ⟨r, hr, rfl⟩ := List.mem_map.mp hmv
    exact (h.toSound.lines_moves hr).symm

-- ---------------------------------------------------------------------------
-- Erasing and editing
-- ---------------------------------------------------------------------------

theorem eraseSpan (h : Joined cols rows s) (start stop : Nat) :
    Joined cols rows (s.eraseSpan start stop) := by
  refine h.of_drawn (h.toSound.eraseSpan start stop) ((Draws.refl s).eraseSpan start stop) ?_
  have hlen := h.length_cells
  generalize hhi : min stop s.cells.length = hi
  generalize hlo : min start hi = lo
  have hpaired : wideHalves.Paired cols (gridCell ((s.smashSpan lo hi).blankCells lo hi).cells) := by
    have hcells := gridCell_smashSpan lo h.toSound (show hi ≤ cols * rows by omega)
    rcases Nat.eq_or_lt_of_le (show lo ≤ hi by omega) with rfl | hlt
    · rw [Nat.sub_self] at hcells
      have hsame : gridCell ((s.smashSpan lo lo).blankCells lo lo).cells = gridCell s.cells := by
        funext i
        rw [Screen.blankCells, gridCell_fillCells (by
          rw [(h.toSound.smashSpan lo lo).length_cells]
          omega), if_neg (by omega), hcells]
        rfl
      rw [hsame]
      exact h.active
    · obtain ⟨n, rfl⟩ : ∃ n, hi = lo + (n + 1) := ⟨hi - lo - 1, by omega⟩
      rw [Nat.add_sub_cancel_left] at hcells
      refine paired_blankCells ?_ hlt ?_
      · rw [hcells]
        exact h.active.smash_span (plain_blank _) lo n
      · rw [(h.toSound.smashSpan lo _).length_cells]
        omega
  unfold Screen.eraseSpan
  simp only [hhi, hlo]
  split
  · rw [(agree_dirtyRows _ _ _).cells]
    exact hpaired
  · exact hpaired

/-- ICH cuts before the cursor, and loses what passes the right edge. -/
def InsertFits (s : Screen) (n : UInt16) : Prop :=
  let n := (min n (satSub16 s.cols s.cursorCol)).toNat
  0 < n →
    (s.cellAt (s.idx s.cursorCol s.cursorRow)).isTail = false ∧
      (s.cursorCol.toNat + n < s.cols.toNat →
        (s.cellAt (s.idx 0 s.cursorRow + s.cols.toNat - n - 1)).isLead = false)

theorem mod_ne_zero {i : Nat} (row : Nat) (hlo : row * cols < i) (hhi : i < row * cols + cols) :
    i % cols ≠ 0 := by
  obtain ⟨c, rfl⟩ : ∃ c, i = row * cols + c := ⟨i - row * cols, by omega⟩
  rw [Nat.mul_add_mod_self_right, Nat.mod_eq_of_lt (by omega)]
  omega

theorem cellCount_le (h : Joined cols rows s) (n : UInt16) :
    s.cursorCol.toNat + (min n (satSub16 s.cols s.cursorCol)).toNat ≤ cols := by
  have hc := h.cursorCol_lt
  rw [toNat_min16, toNat_satSub16, h.cols_eq]
  omega

theorem insertCells (h : Joined cols rows s) {n : UInt16} (hfits : InsertFits s n) :
    Joined cols rows (s.insertCells n) := by
  refine h.of_drawn (h.toSound.insertCells n) ((Draws.refl s).insertCells n) ?_
  have hle := h.cellCount_le n
  have hc := h.cursorCol_lt
  have hspan := row_span_le cols h.cursorRow_lt
  have hlen := h.length_cells
  have hrow : s.idx 0 s.cursorRow = s.cursorRow.toNat * cols := by simp [Screen.idx, h.cols_eq]
  have hcur : s.idx s.cursorCol s.cursorRow = s.idx 0 s.cursorRow + s.cursorCol.toNat := rfl
  unfold InsertFits at hfits
  unfold Screen.insertCells
  dsimp only at hfits ⊢
  generalize (min n (satSub16 s.cols s.cursorCol)).toNat = n at hfits hle ⊢
  split
  case isTrue => exact h.active
  case isFalse hn =>
    obtain ⟨hcut, hlost⟩ := hfits (Nat.pos_of_ne_zero hn)
    rw [hcur] at hcut
    rw [h.cols_eq] at hlost ⊢
    rw [(agree_dirty _ _).cells]
    generalize hbase : s.idx 0 s.cursorRow = base at hcut hlost hrow ⊢
    generalize s.cursorCol.toNat = col at *
    generalize hmoved : (if col + n < cols then
      s.copyWithin (base + col) (base + cols - n) (base + col + n) else s) = moved
    have hcell : ∀ i, gridCell moved.cells i =
        if base + col + n ≤ i ∧ i < base + cols then gridCell s.cells (i - n)
        else gridCell s.cells i := by
      intro i
      rw [← hmoved]
      split
      case isTrue hroom =>
        rw [gridCell_copyWithin (by omega)]
        by_cases hi : base + col + n ≤ i ∧ i < base + cols
        · rw [if_pos (by omega), if_pos hi]
          congr 1
          omega
        · rw [if_neg (by omega), if_neg hi]
      case isFalse => rw [if_neg (by omega)]
    have hmovedlen : moved.cells.length = s.cells.length := by
      rw [← hmoved]
      split
      case isTrue => exact List.length_mapIdx
      case isFalse => rfl
    have hfinal : ∀ i, gridCell (moved.blankCells (base + col) (base + col + n)).cells i =
        if base + col ≤ i ∧ i < base + col + n then Cell.blank moved.penBg
        else gridCell moved.cells i := gridCell_fillCells (by omega) _
    refine h.active.insert (base + cols) (n := n) (Nat.pos_of_ne_zero hn)
      (show base + col < base + cols by omega)
      (by rw [hrow, ← Nat.succ_mul]; exact Nat.mul_mod_left _ _) (fun i hlo hhi => ?_) hcut
      (fun i hlo hhi => ?_) (fun i hlo hhi => ?_) (fun i hlo hhi _ => ?_) fun i hi => ?_
    · exact mod_ne_zero s.cursorRow.toNat (by omega) (by omega)
    · have hi := hlost (by omega)
      rwa [show base + cols - n - 1 = i by omega] at hi
    · rw [hfinal, if_neg (by omega), hcell, if_pos (by omega), Nat.add_sub_cancel]
    · rw [hfinal, if_pos ⟨hlo, hhi⟩]
      exact plain_blank _
    · rw [hfinal, if_neg (by omega), hcell, if_neg (by omega)]

theorem deleteCells (h : Joined cols rows s) (n : UInt16) : Joined cols rows (s.deleteCells n) := by
  refine h.of_drawn (h.toSound.deleteCells n) ((Draws.refl s).deleteCells n) ?_
  have hle := h.cellCount_le n
  have hc := h.cursorCol_lt
  have hspan := row_span_le cols h.cursorRow_lt
  have hlen := h.length_cells
  have hrow : s.idx 0 s.cursorRow = s.cursorRow.toNat * cols := by simp [Screen.idx, h.cols_eq]
  unfold Screen.deleteCells
  dsimp only
  generalize (min n (satSub16 s.cols s.cursorCol)).toNat = n at hle ⊢
  split
  case isTrue => exact h.active
  case isFalse hn =>
    have hsmash := gridCell_smashCols h.toSound hle h.cursorRow_lt
    have hsmashlen := (h.toSound.smashCols s.cursorRow s.cursorCol.toNat n).length_cells
    rw [h.cols_eq, (agree_dirty _ _).cells]
    generalize hbase : s.idx 0 s.cursorRow = base at hsmash hrow ⊢
    generalize s.smashCols s.cursorRow s.cursorCol.toNat n = u at hsmash hsmashlen ⊢
    generalize s.cursorCol.toNat = col at *
    generalize hmoved : (if col + n < cols then
      u.copyWithin (base + col + n) (base + cols) (base + col) else u) = moved
    have hcell : ∀ i, gridCell moved.cells i =
        if base + col ≤ i ∧ i + n < base + cols then gridCell u.cells (i + n)
        else gridCell u.cells i := by
      intro i
      rw [← hmoved]
      split
      case isTrue hroom =>
        rw [gridCell_copyWithin (by omega)]
        by_cases hi : base + col ≤ i ∧ i + n < base + cols
        · rw [if_pos (by omega), if_pos hi]
          congr 1
          omega
        · rw [if_neg (by omega), if_neg hi]
      case isFalse => rw [if_neg (by omega)]
    have hmovedlen : moved.cells.length = u.cells.length := by
      rw [← hmoved]
      split
      case isTrue => exact List.length_mapIdx
      case isFalse => rfl
    have hfinal : ∀ i, gridCell (moved.blankCells (base + cols - n) (base + cols)).cells i =
        if base + cols - n ≤ i ∧ i < base + cols then Cell.blank moved.penBg
        else gridCell moved.cells i := gridCell_fillCells (by omega) _
    obtain ⟨k, rfl⟩ : ∃ k, n = k + 1 := ⟨n - 1, by omega⟩
    have hopen := h.active.smash_span (plain_blank s.penBg) (base + col) k
    rw [← hsmash] at hopen
    refine hopen.delete (base + cols) (Nat.succ_pos k) (by omega)
      (by rw [hrow, ← Nat.succ_mul]; exact Nat.mul_mod_left _ _) (fun i hlo hhi => ?_)
      (fun i hlo hhi => ?_) (fun i hlo hhi hfree => ?_) fun i hi => ?_
    · exact mod_ne_zero s.cursorRow.toNat (by omega) (by omega)
    · rw [hfinal, if_neg (by omega), hcell, if_pos ⟨hlo, hhi⟩]
    · rw [hfinal, if_pos (by omega)]
      exact plain_blank _
    · rw [hfinal, if_neg (by omega), hcell, if_neg (by omega)]

-- ---------------------------------------------------------------------------
-- Printing
-- ---------------------------------------------------------------------------

theorem wrapIfNeededWidth (h : Joined cols rows s) (width : UInt16) :
    Joined cols rows (s.wrapIfNeededWidth width) := by
  have hclear : Joined cols rows s.clearPendingWrap := h.of_same h.toSound.clearPendingWrap rfl rfl
  have hstart : Joined cols rows (s.clearPendingWrap.setCursorCol 0) :=
    hclear.of_same (hclear.toSound.setCursorCol 0 h.cols_pos) rfl rfl
  exact ite (fun _ => h) fun _ => ite (fun _ => hclear) fun _ => hstart.index

theorem plain_sgr (a : UInt16) (cp : UInt32) (fg bg : Color) :
    wideHalves.Plain ⟨cp, fg, bg, (a &&& sgrMask) ||| 0⟩ :=
  plain_of_attrs (sgr_or_and a 0 24 (by decide))

theorem lead_sgr (a : UInt16) (cp : UInt32) (fg bg : Color) :
    wideHalves.lead ⟨cp, fg, bg, (a &&& sgrMask) ||| attrWideLead⟩ = true ∧
      wideHalves.tail ⟨cp, fg, bg, (a &&& sgrMask) ||| attrWideLead⟩ = false := by
  have hlead := sgr_or_and a attrWideLead attrWideLead (by decide)
  have htail := sgr_or_and a attrWideLead attrWideTail (by decide)
  constructor
  · simp only [wideHalves, Cell.isLead, hlead]
    decide
  · simp only [wideHalves, Cell.isTail, htail]
    decide

theorem tail_sgr (a : UInt16) (cp : UInt32) (fg bg : Color) :
    wideHalves.lead ⟨cp, fg, bg, (a &&& sgrMask) ||| attrWideTail⟩ = false ∧
      wideHalves.tail ⟨cp, fg, bg, (a &&& sgrMask) ||| attrWideTail⟩ = true := by
  have hlead := sgr_or_and a attrWideTail attrWideLead (by decide)
  have htail := sgr_or_and a attrWideTail attrWideTail (by decide)
  constructor
  · simp only [wideHalves, Cell.isLead, hlead]
    decide
  · simp only [wideHalves, Cell.isTail, htail]
    decide

theorem idx_next (h : Sound strict cols rows s) {col : UInt16} (hc : col.toNat < cols)
    (hnext : (col + 1).toNat < cols) (row : UInt16) :
    s.idx (col + 1) row = s.idx col row + 1 ∧ (s.idx col row + 1) % cols ≠ 0 := by
  have hcols := h.cols_eq
  have hsucc := toNat_succ16 (a := col) (b := s.cols) (by omega)
  refine ⟨idx_succ hcols (by omega) row, (succ_lt_cols_iff h hc row).mp ?_⟩
  rwa [UInt16.lt_iff_toNat_lt, hcols]

theorem idx_draws (hd : Draws s t) (col row : UInt16) : t.idx col row = s.idx col row := by
  rw [Screen.idx, hd.cols]
  rfl

/-- Both halves are written where no pair is cut. -/
theorem paired_setPair (hs : Sound True cols rows s) {col row : UInt16} (hc : col.toNat < cols)
    (hr : row.toNat < rows) (hnext : (col + 1).toNat < cols) {lead tail : Cell}
    (hopen : wideHalves.Open cols (s.idx col row) (s.idx col row + 2) (gridCell s.cells))
    (hlead : wideHalves.lead lead = true ∧ wideHalves.tail lead = false)
    (htail : wideHalves.lead tail = false ∧ wideHalves.tail tail = true)
    (hsame : tail.codepoint = lead.codepoint) :
    wideHalves.Paired cols
      (gridCell ((s.setCell (s.idx col row) lead).setCell (s.idx (col + 1) row) tail).cells) := by
  obtain ⟨hidx, hin⟩ := idx_next hs hc hnext row
  have hset := hs.setCell (hs.idx_lt hc hr) lead
  have hcells : gridCell ((s.setCell (s.idx col row) lead).setCell (s.idx (col + 1) row) tail).cells =
      update (update (gridCell s.cells) (s.idx col row) lead) (s.idx col row + 1) tail := by
    rw [← hidx, ← gridCell_set (hs.idx_lt hc hr) lead]
    exact gridCell_set (hset.idx_lt hnext hr) tail
  rw [hcells]
  exact hopen.pair hin hlead htail hsame

theorem paintGlyph (h : Joined cols rows s) (c : Char) {col row width : UInt16}
    (hc : col.toNat < cols) (hr : row.toNat < rows) (hw : width = 2 → (col + 1).toNat < cols) :
    Joined cols rows (s.paintGlyph c col row width) := by
  refine h.of_drawn (h.toSound.paintGlyph c hc hr hw) ((Draws.refl s).paintGlyph c col row width) ?_
  have hsound := h.toSound.smashWideAt col row
  have hframe := (Draws.refl s).smashWideAt col row
  have hsmash := gridCell_smashWideAt h.toSound hc hr
  have hidx := idx_draws hframe col row
  unfold Screen.paintGlyph
  dsimp only
  generalize s.smashWideAt col row = u at *
  split
  case isTrue hwide =>
    obtain ⟨hnext, -⟩ := idx_next h.toSound hc (hw hwide) row
    have hsound' := hsound.smashWideAt (col + 1) row
    have hframe' := hframe.smashWideAt (col + 1) row
    have hsmash' := gridCell_smashWideAt hsound (hw hwide) hr
    have hpen : u.penBg = s.penBg := hframe.congr Screen.penBg fun _ _ => rfl
    rw [idx_draws hframe, hnext, hpen, hsmash] at hsmash'
    generalize u.smashWideAt (col + 1) row = v at *
    refine paired_setPair hsound' hc hr (hw hwide) ?_ (lead_sgr _ _ _ _) (tail_sgr _ _ _ _) rfl
    rw [idx_draws hframe', hsmash']
    exact h.active.smash_span (plain_blank s.penBg) (s.idx col row) 1
  case isFalse =>
    rw [show (u.setCell (u.idx col row) _).cells = u.cells.set (u.idx col row) _ from rfl,
      gridCell_set (hsound.idx_lt hc hr), hidx, hsmash]
    exact (h.active.smash (plain_blank s.penBg) _).single (plain_sgr _ _ _ _)

theorem advanceAfterWidth (h : Joined cols rows s) (width : UInt16) :
    Joined cols rows (s.advanceAfterWidth width) := by
  have hframe := (Draws.refl s).advanceAfterWidth width
  refine h.of_same (h.toSound.advanceAfterWidth width) ?_ (hframe.congr Screen.savedGrid fun _ _ => rfl)
  unfold Screen.advanceAfterWidth
  dsimp only
  split
  case isTrue => rfl
  case isFalse => rfl

theorem setOpenCluster (h : Joined cols rows s) {o : Option OpenCluster}
    (ho : ∀ cl, o = some cl → cl.col.toNat < cols ∧ cl.row.toNat < rows) :
    Joined cols rows (s.setOpenCluster o) :=
  h.of_same (h.toSound.setOpenCluster fun _ => ho) rfl rfl

theorem placeGlyph (h : Joined cols rows s) (c : Char) {width : UInt16}
    (hw : width = 2 → (s.cursorCol + 1).toNat < cols) : Joined cols rows (s.placeGlyph c width) := by
  have hpaint := h.paintGlyph c h.cursorCol_lt h.cursorRow_lt hw
  refine ((hpaint.setOpenCluster ?_).dirty _).advanceAfterWidth _
  rintro _ ⟨⟩
  exact ⟨h.cursorCol_lt, h.cursorRow_lt⟩

theorem printBase (h : Joined cols rows s) (c : Char) : Joined cols rows (s.printBase c) := by
  have hw := h.wrapIfNeededWidth (clusterWidth c)
  exact ite (fun _ => hw) fun hfit => hw.placeGlyph c fun htwo => hw.cols_eq ▸ fits_next hfit htwo

/-- A cluster is widened only where its own cell is no tail. -/
def ExpandFits (s : Screen) : Prop :=
  ∀ cl, s.openCluster = some cl → cl.width < 2 → satAdd16 cl.col 1 < s.cols →
    cl.row = s.cursorRow → (s.cellAt (s.idx cl.col cl.row)).isTail = false

theorem widenCluster (h : Joined cols rows s) {cl : OpenCluster}
    (hlead : cl.col.toNat < cols ∧ cl.row.toNat < rows) (hnext : (cl.col + 1).toNat < cols)
    (hfits : (s.cellAt (s.idx cl.col cl.row)).isTail = false) :
    Joined cols rows (s.widenCluster cl (cl.col + 1)) := by
  refine h.of_drawn (h.toSound.widenCluster hlead hnext) ((Draws.refl s).widenCluster cl _) ?_
  obtain ⟨hidx, -⟩ := idx_next h.toSound hlead.1 hnext cl.row
  have hsound := h.toSound.smashWideAt (cl.col + 1) cl.row
  have hframe := (Draws.refl s).smashWideAt (cl.col + 1) cl.row
  have hsmash := gridCell_smashWideAt h.toSound hnext hlead.2
  unfold Screen.widenCluster
  dsimp only
  rw [(agree_dirty _ _).cells]
  generalize s.smashWideAt (cl.col + 1) cl.row = u at *
  refine paired_setPair hsound hlead.1 hlead.2 hnext ?_ (lead_sgr _ _ _ _) (tail_sgr _ _ _ _) rfl
  rw [idx_draws hframe, hsmash, hidx]
  refine (h.active.smash (plain_blank s.penBg) _).widen_left ?_
  cases htail : wideHalves.tail (wideHalves.smash cols (Cell.blank s.penBg) (gridCell s.cells)
      (s.idx cl.col cl.row + 1) (s.idx cl.col cl.row)) with
  | false => rfl
  | true => exact (Halves.tail_of_smash (plain_blank s.penBg) htail).symm.trans hfits

theorem setCursorCol (h : Joined cols rows s) (col : UInt16) (hc : col.toNat < cols) :
    Joined cols rows (s.setCursorCol col) := h.of_same (h.toSound.setCursorCol col hc) rfl rfl

theorem maybeExpandRiPair (h : Joined cols rows s) (hfits : ExpandFits s) :
    Joined cols rows s.maybeExpandRiPair := by
  unfold Screen.maybeExpandRiPair
  cases hcl : s.openCluster with
  | none => exact h
  | some cl =>
    refine ite (fun _ => h) fun hwidth => ite (fun _ => h) fun hin => ?_
    simp only [Bool.or_eq_true, decide_eq_true_eq, not_or, ge_iff_le, UInt16.not_le,
      Decidable.not_not] at hin
    obtain ⟨hnext, hrow⟩ := hin
    have hfit := hfits cl hcl (by simpa using hwidth) hnext hrow
    have hlt := UInt16.lt_iff_toNat_lt.mp hnext
    rw [h.cols_eq] at hlt
    have hle := toNat_le_satAdd16 cl.col 1
    rw [satAdd16_one_of_lt hnext] at hlt hle ⊢
    have hlead : cl.col.toNat < cols ∧ cl.row.toNat < rows := ⟨by omega, hrow ▸ h.cursorRow_lt⟩
    have hw := h.widenCluster hlead hlt hfit
    exact ite (fun _ => (hw.setCursorCol _ hlt).advanceAfterWidth 1) fun _ => hw

theorem writeChar (h : Joined cols rows s) {c : Char}
    (hfits : isRegionalIndicator c = true → s.shouldAppend c = true → ExpandFits s) :
    Joined cols rows (s.writeChar c) := by
  unfold Screen.writeChar Screen.appendToCluster
  cases happend : s.shouldAppend c with
  | false => exact h.printBase c
  | true =>
    cases hcl : s.openCluster with
    | none => exact h.printBase c
    | some cl =>
      have hsame : (s.countTruncated cl.len).cells = s.cells ∧
          (s.countTruncated cl.len).cols = s.cols ∧
          (s.countTruncated cl.len).cursorRow = s.cursorRow ∧
          (s.countTruncated cl.len).savedGrid = s.savedGrid := by
        unfold Screen.countTruncated
        split
        case isTrue => exact ⟨rfl, rfl, rfl, rfl⟩
        case isFalse => exact ⟨rfl, rfl, rfl, rfl⟩
      obtain ⟨hcells, hcols, hrow, hsaved⟩ := hsame
      have hcount := (h.of_same (h.toSound.countTruncated cl.len) hcells hsaved).dirty cl.row
      have happ := hcount.setOpenCluster
        (o := some { cl with
          len := if cl.len ≥ rillGraphemeMax then cl.len else cl.len + 1
          afterZwj := c = zeroWidthJoiner
          lastWasRi := isRegionalIndicator c })
        (by rintro _ ⟨⟩; exact h.cluster_lt trivial cl hcl)
      refine ite (fun hri => happ.maybeExpandRiPair ?_) fun _ => happ
      -- the cluster is where it was, and so is what it is asked about
      have hdirty := agree_dirty (s.countTruncated cl.len) cl.row
      rintro _ ⟨⟩ hwidth hnext hline
      have hfit := hfits hri happend cl hcl hwidth (by rwa [← hcols, ← hdirty.cols])
        (by rwa [← hrow, ← hdirty.cursorRow])
      change (gridCell (Screen.cells ((s.countTruncated cl.len).dirty cl.row)) _).isTail = false
      rw [hdirty.cells, hcells, Screen.idx]
      change (gridCell s.cells (cl.row.toNat *
        (Screen.cols ((s.countTruncated cl.len).dirty cl.row)).toNat + cl.col.toNat)).isTail = false
      rw [hdirty.cols, hcols]
      exact hfit

-- ---------------------------------------------------------------------------
-- Modes
-- ---------------------------------------------------------------------------

theorem setCursor (h : Joined cols rows s) (row col : UInt16) :
    Joined cols rows (s.setCursor row col) := h.of_same (h.toSound.setCursor row col) rfl rfl

theorem restoreCursor (h : Joined cols rows s) (c : SavedCursor) :
    Joined cols rows (s.restoreCursor c) := h.of_same (h.toSound.restoreCursor c) rfl rfl

theorem saveGrid (h : Joined cols rows s) (saveCursor : Bool) :
    Joined cols rows (s.saveGrid saveCursor) where
  toSound := h.toSound.saveGrid saveCursor
  active := h.active
  saved := by
    rintro _ ⟨⟩
    exact h.active

theorem clearGrid (h : Joined cols rows s) : Joined cols rows s.clearGrid where
  toSound := h.toSound.clearGrid
  active := paired_of_plain (gridCell_replicate _ _)
  saved := h.saved

theorem enterAlt (h : Joined cols rows s) (saveCursor clear : Bool) :
    Joined cols rows (s.enterAlt saveCursor clear) := by
  have hsave : Joined cols rows (if !s.inAlt then s.saveGrid saveCursor else s) :=
    ite (fun _ => h.saveGrid _) fun _ => h
  have hclear : Joined cols rows (if clear then
      (if !s.inAlt then s.saveGrid saveCursor else s).clearGrid else
      (if !s.inAlt then s.saveGrid saveCursor else s)) :=
    ite (fun _ => hsave.clearGrid) fun _ => hsave
  exact hclear.of_same (h.toSound.enterAlt saveCursor clear) rfl rfl

theorem restoreGrid (h : Joined cols rows s) : Joined cols rows s.restoreGrid := by
  have hs := h.toSound.restoreGrid
  unfold Screen.restoreGrid at hs ⊢
  cases hg : s.savedGrid with
  | none => exact h
  | some grid =>
    rw [hg] at hs
    exact { hs with
      active := h.saved grid hg
      saved := nofun }

theorem takeAltCursor (h : Joined cols rows s) (restoreCursor : Bool) :
    Joined cols rows (s.takeAltCursor restoreCursor) := by
  have hs := h.toSound.takeAltCursor restoreCursor
  have hnone : Joined cols rows { s with altCursor := none } :=
    h.of_same { h.toSound with } rfl rfl
  unfold Screen.takeAltCursor
  split
  · exact hnone.restoreCursor _
  · exact hnone

theorem leaveAlt (h : Joined cols rows s) (restoreCursor : Bool) :
    Joined cols rows (s.leaveAlt restoreCursor) := by
  refine ite (fun _ => h) fun _ => ?_
  have htaken := h.restoreGrid.takeAltCursor restoreCursor
  exact (htaken.of_same (htaken.toSound.setInAlt false) rfl rfl).damageAll

theorem setScrollRegion (h : Joined cols rows s) (params : List UInt16) :
    Joined cols rows (s.setScrollRegion params) := by
  have hs := h.toSound.setScrollRegion params
  unfold Screen.setScrollRegion at hs ⊢
  dsimp only at hs ⊢
  split at hs
  case isTrue hc => rwa [if_pos hc]
  case isFalse hc =>
    rw [if_neg hc]
    exact h.of_same hs rfl rfl

theorem privateModeOne (h : Joined cols rows s) (set : Bool) (p : UInt16) :
    Joined cols rows (s.privateModeOne set p) := by
  have halt : ∀ a b, Joined cols rows (if set then s.enterAlt a true else s.leaveAlt b) :=
    fun _ _ => ite (fun _ => h.enterAlt _ _) fun _ => h.leaveAlt _
  refine ite (fun _ => h.of_same { h.toSound with } rfl rfl) fun _ => ?_
  refine ite (fun _ => h.of_same { h.toSound with } rfl rfl) fun _ => ?_
  refine ite (fun _ => h.of_same { h.toSound with } rfl rfl) fun _ => ?_
  refine ite (fun _ => h.of_same { h.toSound with } rfl rfl) fun _ => ?_
  refine ite (fun _ => h.of_same { h.toSound with } rfl rfl) fun _ => ?_
  refine ite (fun _ => h.of_same { h.toSound with } rfl rfl) fun _ => ?_
  refine ite (fun _ => h.of_same { h.toSound with } rfl rfl) fun _ => ?_
  refine ite (fun _ => h.of_same { h.toSound with } rfl rfl) fun _ => ?_
  refine ite (fun _ => h.of_same { h.toSound with } rfl rfl) fun _ => ?_
  refine ite (fun _ => halt false false) fun _ => ?_
  exact ite (fun _ => halt true true) fun _ => h

-- ---------------------------------------------------------------------------
-- Actions
-- ---------------------------------------------------------------------------

theorem enqueueReply (h : Joined cols rows s) (bytes : List UInt8) :
    Joined cols rows (s.enqueueReply bytes) :=
  h.of_same (h.toSound.enqueueReply bytes) (agree_enqueueReply s bytes).cells
    ((agree_enqueueReply s bytes).congr Screen.savedGrid fun _ _ => rfl)

theorem sgrLoop (h : Joined cols rows s) (params : List UInt16) :
    Joined cols rows (s.sgrLoop params) := by
  have hp := Pens.sgrLoop s params
  exact h.of_same (h.toSound.sgrLoop params) (by rw [← hp]) (by rw [← hp])

theorem csiDispatch (h : Joined cols rows s) {params : List UInt16} {action : Char}
    (hfits : action = '@' → InsertFits s (csiN params 0 1)) :
    Joined cols rows (s.csiDispatch params action) := by
  unfold Screen.csiDispatch
  simp only
  split
  case h_1 | h_2 | h_3 | h_4 | h_5 | h_6 | h_7 | h_8 | h_9 | h_10 => exact h.setCursor _ _
  case h_11 =>
    exact ite (fun _ => h.eraseSpan _ _) fun _ => ite (fun _ => h.eraseSpan _ _) fun _ =>
      (h.eraseSpan _ _).damageAll
  case h_12 =>
    exact ite (fun _ => h.eraseSpan _ _) fun _ => ite (fun _ => h.eraseSpan _ _) fun _ =>
      h.eraseSpan _ _
  case h_13 => exact h.eraseSpan _ _
  case h_14 => exact h.insertLines _
  case h_15 => exact h.deleteLines _
  case h_16 => exact h.insertCells (hfits rfl)
  case h_17 => exact h.deleteCells _
  case h_18 => exact h.setScrollRegion _
  case h_19 => exact h.iterate (fun _ h => h.scrollUp) _
  case h_20 => exact h.iterate (fun _ h => h.scrollDown) _
  case h_21 => exact h.sgrLoop _
  case h_22 => exact ite (fun _ => h.enqueueReply _) fun _ => h
  case h_23 =>
    exact ite (fun _ => h.enqueueReply _) fun _ => ite (fun _ => h.enqueueReply _) fun _ => h
  case h_24 => exact h

theorem execute (h : Joined cols rows s) (byte : UInt8) : Joined cols rows (s.execute byte) := by
  have hclear : Joined cols rows s.clearPendingWrap := h.of_same h.toSound.clearPendingWrap rfl rfl
  have hopen := hclear.setOpenCluster (o := none) nofun
  refine ite (fun _ => ite (fun hc => hopen.setCursorCol _ ?_) fun _ => hopen) fun _ => ?_
  · have hc := UInt16.lt_iff_toNat_lt.mp hc
    have hlt := hopen.cursorCol_lt
    rw [toNat_pred16 hc]
    omega
  refine ite (fun _ => hopen.setCursorCol _ (hopen.toSound.min_lastCol_lt _)) fun _ => ?_
  refine ite (fun _ => hopen.index) fun _ => ?_
  exact ite (fun _ => hopen.setCursorCol 0 h.cols_pos) fun _ => h

theorem csi (h : Joined cols rows s) {params : List UInt16} {intermediates : List UInt8}
    {ignore : Bool} {action : Char}
    (hfits : ignore = false → intermediates = [] → action = '@' → InsertFits s (csiN params 0 1)) :
    Joined cols rows (s.csi params intermediates ignore action) := by
  refine ite (fun _ => h) fun hignore => ?_
  refine ite (fun _ => foldl params (fun _ _ _ h => h.privateModeOne _ _) h) fun _ => ?_
  refine ite (fun _ => h.enqueueReply _) fun _ => ite (fun _ => h) fun hplain => ?_
  exact h.csiDispatch (hfits (by simpa using hignore) (by simpa using hplain))

theorem esc (h : Joined cols rows s) (intermediates : List UInt8) (byte : UInt8) :
    Joined cols rows (s.esc intermediates byte) := by
  have hwrap : Joined cols rows s.clearPendingWrap := h.of_same h.toSound.clearPendingWrap rfl rfl
  refine ite (fun _ => h.of_same { h.toSound with } rfl rfl) fun _ => ite (fun _ => ?_) fun _ => ?_
  · cases s.savedCursor with
    | none => exact h
    | some c => exact h.restoreCursor c
  refine ite (fun _ => hwrap.index) fun _ => ?_
  refine ite (fun _ => (hwrap.setCursorCol 0 h.cols_pos).index) fun _ => ?_
  refine ite (fun _ => hwrap.reverseIndex) fun _ => ?_
  exact ite (fun _ => h.of_same { h.toSound with } rfl rfl) fun _ =>
    ite (fun _ => h.of_same { h.toSound with } rfl rfl) fun _ => h

/-- What an action asks of the screen so as not to cut a pair. -/
def Fits (s : Screen) : Action → Prop
  | .print c => isRegionalIndicator c = true → s.shouldAppend c = true → ExpandFits s
  | .csi params intermediates ignore action =>
    ignore = false → intermediates = [] → action = '@' → InsertFits s (csiN params 0 1)
  | _ => True

theorem act (h : Joined cols rows s) {a : Action} (hfits : Fits s a) : Joined cols rows (s.act a) := by
  cases a with
  | print c => exact h.writeChar hfits
  | execute b => exact h.execute b
  | csi params intermediates ignore action => exact h.csi hfits
  | esc intermediates b => exact h.esc intermediates b
  | osc payload => exact h

/-- No action of a list cuts a pair, each asked of the screen it is made on. -/
def AllFit (s : Screen) : List Action → Prop
  | [] => True
  | a :: l => Fits s a ∧ AllFit (s.act a) l

theorem acts (h : Joined cols rows s) {l : List Action} (hfits : AllFit s l) :
    Joined cols rows (l.foldl Screen.act s) := by
  induction l generalizing s with
  | nil => exact h
  | cons a l ih => exact ih (h.act hfits.1) hfits.2

end Joined

-- ---------------------------------------------------------------------------
-- Host side
-- ---------------------------------------------------------------------------

theorem joined_new {cols rows : UInt16} {s : Screen} (h : Screen.new cols rows = .ok s) :
    Joined cols.toNat rows.toNat s := by
  have hs : Sound True cols.toNat rows.toNat s := sound_new h
  unfold Screen.new at h
  split at h
  case isTrue => cases h
  case isFalse =>
    obtain rfl := Except.ok.inj h
    exact { hs with
      active := paired_of_plain (gridCell_replicate _ _)
      saved := nofun }

def copyCell (old : List Cell) (oldCols cols : Nat) (next : List Cell) (r c : Nat) : List Cell :=
  match old[r * oldCols + c]? with
  | some cell => next.set (r * cols + c) cell
  | none => next

theorem length_copyCell (old : List Cell) (oldCols cols : Nat) (next : List Cell) (r c : Nat) :
    (copyCell old oldCols cols next r c).length = next.length := by
  unfold copyCell
  split
  · exact List.length_set
  · rfl

theorem gridCell_copyCells {old next : List Cell} {oldCols cols r k : Nat}
    (hold : r * oldCols + k ≤ old.length) (hnext : r * cols + k ≤ next.length) (i : Nat) :
    gridCell ((List.range k).foldl (fun next c => copyCell old oldCols cols next r c) next) i =
      if r * cols ≤ i ∧ i < r * cols + k then gridCell old (r * oldCols + (i - r * cols))
      else gridCell next i := by
  induction k with
  | zero => rw [if_neg (by omega)]; rfl
  | succ k ih =>
    have hlen : ((List.range k).foldl (fun next c => copyCell old oldCols cols next r c) next).length =
        next.length := length_foldl_of_keep (fun _ _ => length_copyCell _ _ _ _ _ _) _ _
    have hsome : old[r * oldCols + k]? = some (gridCell old (r * oldCols + k)) := by
      rw [List.getElem?_eq_getElem (by omega)]
      simp [gridCell, show r * oldCols + k < old.length by omega]
    rw [List.range_succ, List.foldl_append, List.foldl_cons, List.foldl_nil, copyCell, hsome]
    dsimp only
    rw [gridCell_set (by omega)]
    by_cases hi : i = r * cols + k
    · subst hi
      rw [update_self, if_pos (by omega), Nat.add_sub_cancel_left]
    · rw [update_of_ne hi, ih (by omega) (by omega)]
      refine if_congr ?_ rfl rfl
      omega

theorem gridCell_copyRows {old next : List Cell} {oldCols oldRows cols rows : Nat}
    (hold : old.length = oldCols * oldRows) (hnext : next.length = cols * rows) {m k : Nat}
    (hm : m ≤ oldRows ∧ m ≤ rows) (hk : k ≤ oldCols ∧ k ≤ cols) {r c : Nat} (hc : c < cols) :
    gridCell ((List.range m).foldl (fun next r =>
        (List.range k).foldl (fun next c => copyCell old oldCols cols next r c) next) next)
        (r * cols + c) =
      if r < m ∧ c < k then gridCell old (r * oldCols + c) else gridCell next (r * cols + c) := by
  induction m with
  | zero => rw [if_neg (by omega)]; rfl
  | succ m ih =>
    have hlen : ((List.range m).foldl (fun next r =>
        (List.range k).foldl (fun next c => copyCell old oldCols cols next r c) next) next).length =
        next.length :=
      length_foldl_of_keep (fun _ _ =>
        length_foldl_of_keep (fun _ _ => length_copyCell _ _ _ _ _ _) _ _) _ _
    have hspan := row_span_le oldCols (show m < oldRows by omega)
    have hspan' := row_span_le cols (show m < rows by omega)
    rw [List.range_succ, List.foldl_append, List.foldl_cons, List.foldl_nil,
      gridCell_copyCells (by omega) (by omega), ih (by omega)]
    rcases Nat.lt_trichotomy r m with hlt | rfl | hgt
    · have hbefore := Nat.mul_le_mul_right cols (Nat.succ_le_of_lt hlt)
      rw [Nat.succ_mul] at hbefore
      rw [if_neg (by omega)]
      exact if_congr (by omega) rfl rfl
    · by_cases hck : c < k
      · rw [if_pos (by omega), if_pos (by omega), Nat.add_sub_cancel_left]
      · rw [if_neg (by omega), if_neg (by omega), if_neg (by omega)]
    · have hafter := Nat.mul_le_mul_right cols (Nat.succ_le_of_lt hgt)
      rw [Nat.succ_mul] at hafter
      rw [if_neg (by omega), if_neg (by omega), if_neg (by omega)]

/-- No pair straddles the column where a grid is cut. -/
def CutFits (oldCols oldRows cols rows : UInt16) (cells : List Cell) : Prop :=
  cols < oldCols → ∀ r, r < (min oldRows rows).toNat →
    (gridCell cells (r * oldCols.toNat + (cols.toNat - 1))).isLead = false

theorem gridCell_resizeCells {old : List Cell} {oldCols oldRows cols rows : UInt16}
    (hlen : old.length = oldCols.toNat * oldRows.toNat) (r : Nat) {c : Nat} (hc : c < cols.toNat) :
    gridCell (resizeCells old oldCols oldRows cols rows) (r * cols.toNat + c) =
      if r < (min oldRows rows).toNat ∧ c < (min oldCols cols).toNat then
        gridCell old (r * oldCols.toNat + c)
      else Cell.blank .default := by
  have hcopy := gridCell_copyRows (m := (min oldRows rows).toNat) (k := (min oldCols cols).toNat)
    (r := r) hlen (List.length_replicate (n := cols.toNat * rows.toNat) (a := Cell.blank .default))
    (by rw [toNat_min16]; omega) (by rw [toNat_min16]; omega) hc
  rwa [gridCell_blanks] at hcopy

theorem paired_resizeCells {old : List Cell} {oldCols oldRows cols rows : UInt16}
    (h : wideHalves.Paired oldCols.toNat (gridCell old)) (hpos : 0 < cols.toNat)
    (hlen : old.length = oldCols.toNat * oldRows.toNat)
    (hfits : CutFits oldCols oldRows cols rows old) :
    wideHalves.Paired cols.toNat (gridCell (resizeCells old oldCols oldRows cols rows)) := by
  refine h.reshape (min oldRows rows).toNat hpos (fun r c hr hc hc' => ?_)
    (fun r c hc hout => ?_) fun r c hr hlast hcut => ?_
  · rw [gridCell_resizeCells hlen r hc', if_pos ⟨hr, by rw [toNat_min16]; omega⟩]
  · rw [gridCell_resizeCells hlen r hc, if_neg (by rw [toNat_min16 oldCols]; omega)]
    exact plain_blank _
  · have hlead := hfits (UInt16.lt_iff_toNat_lt.mpr hcut) r hr
    rwa [show cols.toNat - 1 = c by omega] at hlead

theorem joined_resize {cols rows : UInt16} {s t : Screen} (h : s.resize cols rows = .ok t)
    (hs : Joined s.cols.toNat s.rows.toNat s)
    (hfits : CutFits s.cols s.rows cols rows s.cells)
    (hsaved : ∀ grid, s.savedGrid = some grid → CutFits s.cols s.rows cols rows grid) :
    Joined cols.toNat rows.toNat t := by
  have ht := sound_resize h hs.toSound
  unfold Screen.resize at h
  split at h
  case isTrue => cases h
  case isFalse =>
    obtain rfl := Except.ok.inj h
    exact { ht with
      active := paired_resizeCells hs.active ht.cols_pos hs.length_cells hfits
      saved := by
        intro grid hgrid
        obtain ⟨old, hold, rfl⟩ := Option.map_eq_some_iff.mp hgrid
        exact paired_resizeCells (hs.saved old hold) ht.cols_pos (hs.length_saved old hold)
          (hsaved old hold) }

-- ---------------------------------------------------------------------------
-- Runs
-- ---------------------------------------------------------------------------

/-- A lead and the tail after it in its row come together, with one codepoint,
and there is no other tail. -/
def Unorphaned (cols : Nat) (cells : List Cell) : Prop :=
  ∀ i cell, cells[i]? = some cell →
    (cell.isLead = true ↔
      (i + 1) % cols ≠ 0 ∧ ∃ next, cells[i + 1]? = some next ∧ next.isTail = true) ∧
    (cell.isTail = true → i % cols ≠ 0) ∧
    ¬ (cell.isLead = true ∧ cell.isTail = true) ∧
    ∀ next, cell.isLead = true → cells[i + 1]? = some next → next.codepoint = cell.codepoint

theorem gridCell_of_some {cells : List Cell} {i : Nat} {cell : Cell} (h : cells[i]? = some cell) :
    gridCell cells i = cell := by
  simp [gridCell, h]

theorem unorphaned_of_paired {cols : Nat} {cells : List Cell}
    (h : wideHalves.Paired cols (gridCell cells)) : Unorphaned cols cells := by
  intro i cell hcell
  have hi := gridCell_of_some hcell
  have hseam := h.seam i
  have hone := h.one i
  rw [hi] at hone
  refine ⟨⟨fun hlead => ?_, fun hnext => ?_⟩, fun htail hstart => ?_, fun hboth => ?_,
    fun next hlead hnext => ?_⟩
  · have htail : (gridCell cells (i + 1)).isTail = true := by
      have heq := hseam.lead_eq
      rw [hi] at heq
      exact heq.symm.trans hlead
    refine ⟨fun hend => ?_, ?_⟩
    · have hright := (hseam.apart hend).right
      exact Bool.false_ne_true (hright.symm.trans htail)
    · cases hnext : cells[i + 1]? with
      | none =>
        have hblank : gridCell cells (i + 1) = Cell.blank .default := by simp [gridCell, hnext]
        rw [hblank] at htail
        cases htail
      | some next => exact ⟨next, rfl, by rwa [gridCell_of_some hnext] at htail⟩
  · obtain ⟨-, next, hnext, htail⟩ := hnext
    have heq := hseam.lead_eq
    rw [hi, gridCell_of_some hnext] at heq
    exact heq.trans htail
  · have hfirst := h.row_start hstart
    rw [hi] at hfirst
    exact Bool.false_ne_true (hfirst.symm.trans htail)
  · exact Bool.false_ne_true ((hone hboth.1).symm.trans hboth.2)
  · have hin : (i + 1) % cols ≠ 0 := fun hend => by
      have hleft := (hseam.apart hend).left
      rw [hi] at hleft
      exact Bool.false_ne_true (hleft.symm.trans hlead)
    have hsame := (hseam.meets hin).same
    rw [hi, gridCell_of_some hnext] at hsame
    exact hsame hlead

namespace VtEngine

/-- The engines that bytes and resizes lead to while none of them cuts a pair. -/
inductive Uncut : VtEngine → Prop
  | new : VtEngine.new cols rows = .ok e → Uncut e
  | feed : Uncut e → ∀ bytes, Joined.AllFit e.screen (e.parser.feed bytes).2 → Uncut (e.feed bytes)
  | resize : Uncut e → e.resize cols rows = .ok f →
      CutFits e.screen.cols e.screen.rows cols rows e.screen.cells →
      (∀ grid, e.screen.savedGrid = some grid →
        CutFits e.screen.cols e.screen.rows cols rows grid) → Uncut f

theorem Uncut.joined (h : Uncut e) : Joined e.screen.cols.toNat e.screen.rows.toNat e.screen := by
  induction h with
  | @new cols rows e hnew =>
    have hj := joined_new (new_ok hnew)
    exact hj.cols_eq ▸ hj.rows_eq ▸ hj
  | @feed e _ bytes hfits ih =>
    have hj := ih.acts hfits
    change Joined (Screen.cols ((e.parser.feed bytes).2.foldl Screen.act e.screen)).toNat
      (Screen.rows ((e.parser.feed bytes).2.foldl Screen.act e.screen)).toNat _
    rw [hj.cols_eq, hj.rows_eq]
    exact hj
  | @resize e cols rows f _ hresize hfits hsaved ih =>
    have hj := joined_resize (resize_ok hresize) ih hfits hsaved
    rw [hj.cols_eq, hj.rows_eq]
    exact hj

/-- While no pair is cut no half is alone, on the active grid or the saved one. -/
theorem uncut_unorphaned (h : Uncut e) :
    Unorphaned e.screen.cols.toNat e.screen.cells ∧
      ∀ grid, e.screen.savedGrid = some grid → Unorphaned e.screen.cols.toNat grid :=
  ⟨unorphaned_of_paired h.joined.active,
    fun grid hgrid => unorphaned_of_paired (h.joined.saved grid hgrid)⟩

/-- A wide glyph in a 2 by 1 grid that is then widened. -/
theorem uncut_unorphaned_wide :
    let e := (VtEngine.new 2 1).toOption.get rfl
    let f := ((e.feed [0xe4, 0xb8, 0xad]).resize 3 1).toOption.get rfl
    Unorphaned f.screen.cols.toNat f.screen.cells := by
  intro e f
  refine (uncut_unorphaned (.resize (.feed (.new (show VtEngine.new 2 1 = _ from rfl)) _ ?_)
    (show VtEngine.resize _ 3 1 = _ from rfl) (fun h => absurd h (by decide)) ?_)).1
  · exact ⟨fun hri => absurd hri (by decide), trivial⟩
  · exact fun _ h => by cases h

theorem not_unorphaned {cols : Nat} {cells : List Cell}
    (h : (cells[0]?.any Cell.isLead && !cells[1]?.any Cell.isTail) = true) :
    ¬ Unorphaned cols cells := by
  intro hall
  obtain ⟨hlead, hnext⟩ := Bool.and_eq_true_iff.mp h
  obtain ⟨cell, hcell, hlead⟩ := (Option.any_eq_true _ _).mp hlead
  obtain ⟨-, next, hsome, htail⟩ := (hall 0 cell hcell).1.mp hlead
  simp [hsome, htail] at hnext

/-- Lone leads: after ICH on a tail, after the tail's column is cut off, and after
a flag is completed in a row that another has taken the place of. -/
theorem lone_leads :
    let wide := ((VtEngine.new 2 1).toOption.get rfl).feed [0xe4, 0xb8, 0xad]
    let flag := ((VtEngine.new 3 2).toOption.get rfl).feed
      ([0x1b, 0x5b, 0x32, 0x48, 0xe4, 0xb8, 0xad, 0x1b, 0x5b, 0x31, 0x3b, 0x32, 0x48] ++
        [0xf0, 0x9f, 0x87, 0xba, 0x1b, 0x5b, 0x4d, 0xf0, 0x9f, 0x87, 0xb8])
    ¬ Unorphaned 2 (wide.feed [0x1b, 0x5b, 0x40]).screen.cells ∧
      ¬ Unorphaned 1 ((wide.resize 1 1).toOption.get rfl).screen.cells ∧
      ¬ Unorphaned 3 flag.screen.cells :=
  ⟨not_unorphaned (by decide), not_unorphaned (by decide),
    not_unorphaned (by decide +kernel)⟩

end VtEngine

end Rill.Vt
