import Rill.Lib.Window
import Rill.Vt.Damage

/-!
# The host's viewport

The live grid, or a window that ends some rows above its last, over the rows
that have left it.
-/

namespace Rill.Host

open Lib Vt

def maxHistoryRows : Nat := 10000

/-- One row more, at the cost of the oldest. -/
def ingestRow (history : List (List PodCell)) (row : List PodCell) : List (List PodCell) :=
  let history := history ++ [row]
  if history.length > maxHistoryRows then history.tail else history

def ingestScrolled (history rows : List (List PodCell)) : List (List PodCell) :=
  rows.foldl ingestRow history

def clampOffset (historyLen : Nat) (_liveRows : UInt16) (offset : UInt32) : UInt32 :=
  min offset (UInt32.ofNat historyLen)

/-- Typing returns to the live rows. -/
def followLiveAfterInput (_offset : UInt32) : UInt32 := 0

def markFullIfViewportJumped (grid : PodGrid) (jumped : Bool) : PodGrid :=
  if jumped then { grid with fullDamage := true } else grid

/-- The rows of a grid that are all there. -/
def liveStack (live : PodGrid) : List (List PodCell) :=
  (List.range live.rows.toNat).filterMap fun r =>
    let start := r * live.cols.toNat
    if start + live.cols.toNat ≤ live.cells.length then
      some ((live.cells.drop start).take live.cols.toNat)
    else none

/-- `live.rows` rows that end `offset` rows above the last live one. -/
def composeViewport (history : List (List PodCell)) (live : PodGrid) (offset : UInt32) : PodGrid :=
  if offset = 0 ∨ history.isEmpty then live
  else
    let cols := live.cols.toNat
    let rows := live.rows.toNat
    let stack := history ++ liveStack live
    let off := (clampOffset history.length live.rows offset).toNat
    let start := stack.length - off - rows
    let blank : PodCell := ⟨32, live.defaultFg, live.defaultBg, 0, 0⟩
    { live with
      cursorVisible := offset = 0 && live.cursorVisible
      fullDamage := true
      damageRow0 := 0
      damageRow1 := satSub16 live.rows 1
      cells := (List.range' start rows).flatMap fun i =>
        match stack[i]? with
        | some row =>
          if row.length ≥ cols then row.take cols
          else row ++ List.replicate (cols - row.length) blank
        | none => List.replicate cols blank }

-- ---------------------------------------------------------------------------
-- Where the viewport is
-- ---------------------------------------------------------------------------

/-- The offset leads no further up than there is history. -/
def InHistory (history : List (List PodCell)) (offset : UInt32) : Prop :=
  offset.toNat ≤ history.length

theorem InHistory.zero (history : List (List PodCell)) : InHistory history 0 := Nat.zero_le _

theorem ingestRow_mono {history : List (List PodCell)} (h : history.length ≤ maxHistoryRows)
    (row : List PodCell) : history.length ≤ (ingestRow history row).length ∧
      (ingestRow history row).length ≤ maxHistoryRows := by
  have hlen : (history ++ [row]).length = history.length + 1 := by
    rw [List.length_append, List.length_singleton]
  unfold ingestRow
  dsimp only
  split
  case isTrue hlong =>
    rw [List.length_tail, hlen, Nat.add_sub_cancel]
    exact ⟨Nat.le_refl _, h⟩
  case isFalse hshort => exact ⟨by omega, Nat.le_of_not_lt hshort⟩

theorem ingestScrolled_mono {history : List (List PodCell)} (h : history.length ≤ maxHistoryRows)
    (rows : List (List PodCell)) : history.length ≤ (ingestScrolled history rows).length ∧
      (ingestScrolled history rows).length ≤ maxHistoryRows := by
  unfold ingestScrolled
  induction rows generalizing history with
  | nil => exact ⟨Nat.le_refl _, h⟩
  | cons row rows ih =>
    obtain ⟨hlo, hhi⟩ := ingestRow_mono h row
    obtain ⟨hlo', hhi'⟩ := ih hhi
    exact ⟨Nat.le_trans hlo hlo', hhi'⟩

theorem fullDamage_composeViewport {history : List (List PodCell)} {offset : UInt32}
    (h : InHistory history offset) (hoff : offset ≠ 0) (live : PodGrid) :
    (composeViewport history live offset).fullDamage = true := by
  have hne : ¬ (offset = 0 ∨ history.isEmpty = true) := by
    rintro (hzero | hempty)
    · exact hoff hzero
    · rw [List.isEmpty_iff] at hempty
      subst hempty
      exact hoff (UInt32.toNat_inj.mp (Nat.le_zero.mp h))
  rw [composeViewport, if_neg hne]

theorem composeViewport_zero (history : List (List PodCell)) (live : PodGrid) :
    composeViewport history live 0 = live := if_pos (.inl rfl)

-- ---------------------------------------------------------------------------
-- What the viewport shows
-- ---------------------------------------------------------------------------

variable {history : List (List PodCell)} {live : PodGrid}

def blankOf (live : PodGrid) : PodCell := ⟨32, live.defaultFg, live.defaultBg, 0, 0⟩

def liveRows (live : PodGrid) : List (List PodCell) :=
  chunks live.cells live.cols.toNat live.rows.toNat

/-- The rows a viewport of the grid's height shows, `up` rows above the last. -/
def windowCells (history : List (List PodCell)) (live : PodGrid) (up : Nat) : List PodCell :=
  (window (history ++ liveRows live) live.rows.toNat up).flatMap
    (fitted (blankOf live) live.cols.toNat)

/-- `view` is the window on the rows gone and the live ones that ends `up` rows
above the last. -/
structure Windowed (history : List (List PodCell)) (live : PodGrid) (up : Nat) (view : PodGrid) :
    Prop where
  cols_eq : view.cols = live.cols
  rows_eq : view.rows = live.rows
  length_cells : view.cells.length = live.cols.toNat * live.rows.toNat
  cells_eq : view.cells = windowCells history live up

theorem liveStack_eq (h : live.cells.length = live.cols.toNat * live.rows.toNat) :
    liveStack live = liveRows live := by
  unfold liveStack liveRows chunks
  rw [← List.filterMap_eq_map]
  refine List.filterMap_congr fun r hr => if_pos ?_
  have hend := Nat.mul_le_mul_right live.cols.toNat (List.mem_range.mp hr)
  rw [Nat.succ_mul, Nat.mul_comm live.rows.toNat, ← h] at hend
  exact hend

theorem fitted_of_ge {row : List PodCell} {cols : Nat} (blank : PodCell) :
    (if row.length ≥ cols then row.take cols else row ++ List.replicate (cols - row.length) blank) =
      fitted blank cols row := by
  unfold fitted
  split
  case isTrue hge => rw [Nat.sub_eq_zero_of_le hge, List.replicate_zero, List.append_nil]
  case isFalse hlt => rw [List.take_of_length_le (Nat.le_of_not_le hlt)]

/-- The length of history is cut to a word before the offset is held to it. -/
theorem toNat_clampOffset (historyLen : Nat) (liveRows : UInt16) (offset : UInt32) :
    (clampOffset historyLen liveRows offset).toNat = min offset.toNat (historyLen % 2 ^ 32) := by
  unfold clampOffset
  change (if offset ≤ UInt32.ofNat historyLen then offset else UInt32.ofNat historyLen).toNat = _
  have hlen : (UInt32.ofNat historyLen).toNat = historyLen % 2 ^ 32 := UInt32.toNat_ofNat'
  split
  case isTrue hle =>
    rw [UInt32.le_iff_toNat_le, hlen] at hle
    exact (Nat.min_eq_left hle).symm
  case isFalse hgt =>
    rw [UInt32.not_le, UInt32.lt_iff_toNat_lt, hlen] at hgt
    rw [hlen]
    exact (Nat.min_eq_right (Nat.le_of_lt hgt)).symm

theorem windowCells_zero (h : live.cells.length = live.cols.toNat * live.rows.toNat) :
    windowCells history live 0 = live.cells := by
  have hwindow := window_append_zero history (liveRows live)
  rw [liveRows, length_chunks] at hwindow
  rw [windowCells, liveRows, hwindow]
  exact flatMap_fitted_chunks (h.trans (Nat.mul_comm _ _)) _

/-- The cells are those of a window, at the offset as it was held to history. -/
theorem cells_composeViewport (h : live.cells.length = live.cols.toNat * live.rows.toNat)
    (offset : UInt32) : (composeViewport history live offset).cells =
      windowCells history live (min offset.toNat (history.length % 2 ^ 32)) := by
  unfold composeViewport
  split
  case isTrue hlive =>
    have hzero : min offset.toNat (history.length % 2 ^ 32) = 0 := by
      rcases hlive with rfl | hempty
      · exact Nat.zero_min _
      · rw [List.isEmpty_iff.mp hempty]
        exact Nat.min_zero _
    rw [hzero, windowCells_zero h]
  case isFalse =>
    have hmod := Nat.mod_le history.length (2 ^ 32)
    have hrows : (liveRows live).length = live.rows.toNat := length_chunks _ _ _
    have hfits : live.rows.toNat + min offset.toNat (history.length % 2 ^ 32) ≤
        (history ++ liveRows live).length := by
      rw [List.length_append, hrows]
      omega
    dsimp only
    rw [liveStack_eq h, toNat_clampOffset, windowCells, window_eq hfits]
    refine flatMap_range' (by omega) _ _ fun i hi => ?_
    rw [List.getElem?_eq_getElem hi]
    exact fitted_of_ge _

theorem windowed_composeViewport (h : live.cells.length = live.cols.toNat * live.rows.toNat)
    (history : List (List PodCell)) (offset : UInt32) :
    Windowed history live (min offset.toNat (history.length % 2 ^ 32))
      (composeViewport history live offset) := by
  have hcells : (composeViewport history live offset).cells = _ := cells_composeViewport h offset
  have hmod := Nat.mod_le history.length (2 ^ 32)
  have hfits : live.rows.toNat + min offset.toNat (history.length % 2 ^ 32) ≤
      (history ++ liveRows live).length := by
    rw [List.length_append, liveRows, length_chunks]
    omega
  refine ⟨?_, ?_, ?_, hcells⟩
  · unfold composeViewport
    split <;> rfl
  · unfold composeViewport
    split <;> rfl
  · rw [hcells, windowCells, length_flatMap_fitted, length_window hfits]

-- ---------------------------------------------------------------------------
-- What history holds
-- ---------------------------------------------------------------------------

theorem ingestRow_eq (history : List (List PodCell)) (row : List PodCell)
    (h : history.length ≤ maxHistoryRows) :
    ingestRow history row = (history ++ [row]).rtake maxHistoryRows := by
  have hlen : (history ++ [row]).length = history.length + 1 := by
    rw [List.length_append, List.length_singleton]
  unfold ingestRow
  dsimp only
  generalize maxHistoryRows = n at h ⊢
  split
  case isTrue hlong =>
    rw [List.rtake, hlen, ← List.drop_one]
    congr 1
    omega
  case isFalse hshort => exact (rtake_of_length_le (Nat.le_of_not_lt hshort)).symm

/-- However the rows come in batches, history holds the newest of them. -/
theorem foldl_ingestScrolled (h : history.length ≤ maxHistoryRows)
    (batches : List (List (List PodCell))) :
    batches.foldl ingestScrolled history = (history ++ batches.flatten).rtake maxHistoryRows := by
  have hrows : batches.foldl ingestScrolled history = batches.flatten.foldl ingestRow history :=
    List.foldl_flatten.symm
  rw [hrows]
  exact foldl_newest ingestRow_eq h batches.flatten

/-- The viewport is a window on history and the live rows, and history is the
newest of the rows that scrolled off. -/
theorem viewport_window (hlive : live.cells.length = live.cols.toNat * live.rows.toNat)
    (history : List (List PodCell)) (offset : UInt32) (batches : List (List (List PodCell))) :
    let view := composeViewport history live offset
    Windowed history live (min offset.toNat (history.length % 2 ^ 32)) view ∧
      (history.length < 2 ^ 32 → Windowed history live (min offset.toNat history.length) view) ∧
      (offset = 0 → view = live) ∧
      batches.foldl ingestScrolled [] = batches.flatten.rtake maxHistoryRows := by
  intro view
  have hview : Windowed history live (min offset.toNat (history.length % 2 ^ 32)) view :=
    windowed_composeViewport hlive history offset
  refine ⟨hview, fun hlen => ?_, ?_, foldl_ingestScrolled (Nat.zero_le _) batches⟩
  · rw [Nat.mod_eq_of_lt hlen] at hview
    exact hview
  · rintro rfl
    exact composeViewport_zero history live

def dotGrid : PodGrid where
  cols := 1
  rows := 1
  cursorCol := 0
  cursorRow := 0
  cursorVisible := true
  fullDamage := false
  damageRow0 := 1
  damageRow1 := 0
  defaultFg := 0
  defaultBg := 0
  graphemeTruncated := 0
  repliesDropped := 0
  cells := [⟨46, 0, 0, 0, 0⟩]

/-- Two rows that left in two batches, one too wide and one empty, seen from one
row up. -/
theorem viewport_window_batches :
    let history := [[[⟨65, 0, 0, 0, 0⟩, ⟨66, 0, 0, 0, 0⟩]], [[]]].foldl ingestScrolled []
    Windowed history dotGrid (min 1 2) (composeViewport history dotGrid 1) ∧
      (composeViewport history dotGrid 2).cells = [⟨65, 0, 0, 0, 0⟩] := by
  intro history
  have hlen : history.length < 2 ^ 32 := by decide
  exact ⟨(viewport_window rfl history 1 []).2.1 hlen, by decide⟩

/-- At 2^32 rows the length of history is cut to nothing, and an offset of one
row still shows the live grid. -/
theorem viewport_ignores_offset :
    let history := List.replicate (2 ^ 32) ([] : List PodCell)
    ¬ Windowed history dotGrid (min (1 : UInt32).toNat history.length)
      (composeViewport history dotGrid 1) := by
  intro history hwindowed
  have hlive : dotGrid.cells.length = dotGrid.cols.toNat * dotGrid.rows.toNat := rfl
  have hcells : (composeViewport history dotGrid 1).cells = _ := cells_composeViewport hlive 1
  have hlen : history.length = 2 ^ 32 := List.length_replicate
  have hshown := hwindowed.cells_eq
  rw [hcells, hlen, Nat.mod_self, Nat.min_zero, windowCells_zero hlive,
    Nat.min_eq_left (by decide)] at hshown
  have hsplit : history = List.replicate 4294967295 [] ++ [[]] := List.replicate_succ'
  have hwindow : window (history ++ liveRows dotGrid) 1 1 = [[]] := by
    rw [hsplit]
    exact window_one_up _ _ _
  change dotGrid.cells = (window _ 1 1).flatMap _ at hshown
  rw [hwindow] at hshown
  exact absurd hshown (by decide)

end Rill.Host
