import Rill.Vt.Rows

/-!
# Line feeds and the margins

A line feed is meant to scroll the region from the bottom margin alone, and a
reverse one from the top margin alone. The comparisons of the source also scroll
from below the region, and from above it.
-/

namespace Rill.Vt

open Lib

namespace Screen

variable {s t : Screen} {cols rows : Nat}

def region (s : Screen) : List (List Cell) :=
  (s.rowList.drop s.scrollTop.toNat).take (s.scrollBottom.toNat + 1 - s.scrollTop.toNat)

/-- `t` is `s` a line further down: on the bottom margin the region has scrolled,
elsewhere the cursor has moved, as far as there are rows, and no cell is another. -/
def FeedsLine (s t : Screen) : Prop :=
  if s.cursorRow = s.scrollBottom then
    t.rowList = onSegment s.scrollTop.toNat (s.scrollBottom.toNat + 1 - s.scrollTop.toNat)
      (shiftLeft 1 s.blankLine) s.rowList ∧ t.cursorRow = s.cursorRow
  else t.rowList = s.rowList ∧ t.scrolledOff = s.scrolledOff ∧
    t.cursorRow.toNat = min (s.cursorRow.toNat + 1) (s.rows.toNat - 1)

instance (s t : Screen) : Decidable (FeedsLine s t) := by
  unfold FeedsLine
  infer_instance

/-- `t` is `s` a line further up. -/
def FeedsBack (s t : Screen) : Prop :=
  if s.cursorRow = s.scrollTop then
    t.rowList = onSegment s.scrollTop.toNat (s.scrollBottom.toNat + 1 - s.scrollTop.toNat)
      (shiftRight 1 s.blankLine) s.rowList ∧ t.cursorRow = s.cursorRow
  else t.rowList = s.rowList ∧ t.scrolledOff = s.scrolledOff ∧
    t.cursorRow.toNat = s.cursorRow.toNat - 1

/-- The cursor is not below the region, or it has nowhere to go and scrolling the
region shows nothing. -/
def FeedsInside (s : Screen) : Prop :=
  s.cursorRow ≤ s.scrollBottom ∨ s.cursorRow.toNat + 1 = s.rows.toNat ∧
    (∀ row ∈ s.region, row = s.blankLine) ∧ ¬ (s.inAlt = false ∧ s.scrollTop.toNat = 0)

/-- The same for the cursor above the region. -/
def FeedsBackInside (s : Screen) : Prop :=
  s.scrollTop ≤ s.cursorRow ∨ s.cursorRow.toNat = 0 ∧ ∀ row ∈ s.region, row = s.blankLine

theorem cursorRow_scrollUp (s : Screen) : s.scrollUp.cursorRow = s.cursorRow :=
  (Edits.scrollUp s).congr Screen.cursorRow fun _ _ _ _ _ _ _ => rfl

theorem cursorRow_scrollDown (s : Screen) : s.scrollDown.cursorRow = s.cursorRow :=
  (Edits.scrollDown s).congr Screen.cursorRow fun _ _ _ _ _ _ _ => rfl

theorem scrolledOff_scrollDown (s : Screen) : s.scrollDown.scrolledOff = s.scrolledOff :=
  scrolledOff_copyRows s _

theorem rowList_scrollUp_eq_iff (h : Sound True cols rows s) :
    s.scrollUp.rowList = s.rowList ↔ ∀ row ∈ s.region, row = s.blankLine := by
  rw [rowList_scrollUp h, onSegment_eq_self_iff (length_shiftLeft _ _),
    shiftLeft_eq_self_iff]
  rfl

theorem rowList_scrollDown_eq_iff (h : Sound True cols rows s) :
    s.scrollDown.rowList = s.rowList ↔ ∀ row ∈ s.region, row = s.blankLine := by
  rw [rowList_scrollDown h, onSegment_eq_self_iff (length_shiftRight _ _), shiftRight_eq_self_iff]
  rfl

theorem feedsLine_index_iff (h : Sound True cols rows s) : FeedsLine s s.index ↔ s.FeedsInside := by
  have hlt := h.bottom_lt
  have hrow := h.cursorRow_lt
  have hrows := h.rows_eq
  unfold FeedsLine FeedsInside
  by_cases hmove : s.cursorRow < s.scrollBottom
  · have hlt := UInt16.lt_iff_toNat_lt.mp hmove
    have hindex : s.index = { s with cursorRow := s.cursorRow + 1 } := if_pos hmove
    have hne : s.cursorRow ≠ s.scrollBottom := fun heq => UInt16.lt_irrefl _ (heq ▸ hmove)
    have hnext : (s.cursorRow + 1).toNat = s.cursorRow.toNat + 1 := toNat_succ16 hlt
    rw [if_neg hne, hindex]
    refine iff_of_true ⟨rfl, rfl, ?_⟩ (.inl (UInt16.le_of_lt hmove))
    dsimp only
    omega
  · have hindex : s.index = s.scrollUp := if_neg hmove
    rw [hindex, cursorRow_scrollUp]
    by_cases heq : s.cursorRow = s.scrollBottom
    · rw [if_pos heq]
      exact iff_of_true ⟨rowList_scrollUp h, rfl⟩ (.inl (UInt16.le_of_eq heq))
    · have hbelow : ¬ s.cursorRow ≤ s.scrollBottom := fun hle =>
        (UInt16.lt_or_eq_of_le hle).elim hmove heq
      have hoff : s.scrollUp.scrolledOff = s.scrolledOff ↔ ¬ (s.inAlt = false ∧ s.scrollTop.toNat = 0) := by
        rw [scrolledOff_scrollUp h]
        split
        case isTrue hc => exact iff_of_false (fun k => by simp at k) (fun k => k hc)
        case isFalse hc => exact iff_of_true (List.append_nil _) hc
      rw [if_neg heq, or_iff_right hbelow, rowList_scrollUp_eq_iff h, hoff]
      constructor
      · rintro ⟨hblank, hkeep, hstay⟩
        exact ⟨by omega, hblank, hkeep⟩
      · rintro ⟨hlast, hblank, hkeep⟩
        exact ⟨hblank, hkeep, by omega⟩

theorem feedsBack_reverseIndex_iff (h : Sound True cols rows s) :
    FeedsBack s s.reverseIndex ↔ s.FeedsBackInside := by
  unfold FeedsBack FeedsBackInside
  by_cases hmove : s.cursorRow > s.scrollTop
  · have hlt := UInt16.lt_iff_toNat_lt.mp hmove
    have hindex : s.reverseIndex = { s with cursorRow := s.cursorRow - 1 } := if_pos hmove
    have hne : s.cursorRow ≠ s.scrollTop := fun heq => UInt16.lt_irrefl s.scrollTop (heq ▸ hmove)
    rw [if_neg hne, hindex]
    exact iff_of_true ⟨rfl, rfl, toNat_pred16 hlt⟩ (.inl (UInt16.le_of_lt hmove))
  · have hindex : s.reverseIndex = s.scrollDown := if_neg hmove
    rw [hindex, cursorRow_scrollDown]
    by_cases heq : s.cursorRow = s.scrollTop
    · rw [if_pos heq]
      exact iff_of_true ⟨rowList_scrollDown h, rfl⟩ (.inl (UInt16.le_of_eq heq.symm))
    · have habove : ¬ s.scrollTop ≤ s.cursorRow := fun hle =>
        (UInt16.lt_or_eq_of_le hle).elim hmove fun k => heq k.symm
      rw [if_neg heq, or_iff_right habove, rowList_scrollDown_eq_iff h,
        and_iff_right (scrolledOff_scrollDown s), and_comm]
      exact and_congr_left fun _ => by omega

/-- The control functions that feed a line, and the wrap, do so just when the cursor
is not below the region, or there is nothing to see of it; and ESC M likewise when it
is not above. -/
theorem feeds_line_iff (h : Sound True cols rows s) :
    (∀ byte, between 0x0a 0x0c byte → (FeedsLine s (s.execute byte) ↔ s.FeedsInside)) ∧
    (∀ intermediates, FeedsLine s (s.esc intermediates 0x44) ↔ s.FeedsInside) ∧
    (∀ intermediates, FeedsLine s (s.esc intermediates 0x45) ↔ s.FeedsInside) ∧
    (∀ width, s.autowrap = true → s.pendingWrap = true ∨ s.remainingCols < width →
      (FeedsLine s (s.wrapIfNeededWidth width) ↔ s.FeedsInside)) ∧
    (∀ intermediates, FeedsBack s (s.esc intermediates 0x4d) ↔ s.FeedsBackInside) := by
  refine ⟨fun byte hbyte => ?_, fun _ => feedsLine_index_iff h.clearPendingWrap,
    fun _ => feedsLine_index_iff (h.clearPendingWrap.setCursorCol 0 h.cols_pos),
    fun width hauto hwrap => ?_, fun _ => feedsBack_reverseIndex_iff h.clearPendingWrap⟩
  · have hbs : byte ≠ 0x08 := by
      rintro rfl
      exact absurd hbyte (by decide)
    have hht : byte ≠ 0x09 := by
      rintro rfl
      exact absurd hbyte (by decide)
    rw [execute, if_neg hbs, if_neg hht, if_pos hbyte]
    exact feedsLine_index_iff (h.clearPendingWrap.setOpenCluster (o := none) fun _ => nofun)
  · have hneeded : (s.pendingWrap || decide (s.remainingCols < width)) = true := by
      simpa using hwrap
    rw [wrapIfNeededWidth, hneeded, hauto]
    exact feedsLine_index_iff (h.clearPendingWrap.setCursorCol 0 h.cols_pos)

/-- A line feed on the first of two rows. -/
theorem feeds_line_inside :
    let s := (Screen.new 1 2).toOption.get rfl
    FeedsLine s (s.execute 0x0a) :=
  ((feeds_line_iff (sound_new (show Screen.new 1 2 = .ok _ from rfl))).1 0x0a rfl).mpr (.inl (by decide))

/-- With the margins on the first two rows a line feed on the third scrolls them. -/
theorem feeds_line_below :
    let e := ((VtEngine.new 1 3).toOption.get rfl).feed
      [0x1b, 0x5b, 0x31, 0x3b, 0x32, 0x72, 0x41, 0x1b, 0x5b, 0x33, 0x3b, 0x31, 0x48]
    ¬ FeedsLine e.screen (e.feed [0x0a]).screen := by
  decide

end Screen

end Rill.Vt
