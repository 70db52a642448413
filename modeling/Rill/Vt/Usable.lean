import Rill.Vt.Import

/-!
# Usable checkpoints

The import checks tags, lengths and the hash of a blob but not how its numbers
relate. What the screen indexes by afterwards is in range just when both ends of
the stored scroll region are rows of the stored grid.
-/

namespace Rill.Vt

open Lib.Bytes

/-- The scroll region is ordered and inside the grid, and so is the open cluster. -/
structure Decoded.Related (x : Decoded) : Prop where
  region_le : x.scrollTop ≤ x.scrollBottom
  region_lt : x.scrollBottom < x.rows
  cluster_lt : ∀ cl, x.openCluster = some cl → cl.col < x.cols ∧ cl.row < x.rows

structure Decoded.Sized (x : Decoded) : Prop where
  cols_pos : 0 < x.cols.toNat
  rows_pos : 0 < x.rows.toNat
  length_cells : x.cells.length = x.cols.toNat * x.rows.toNat
  length_saved : ∀ grid, x.savedGrid = some grid → grid.length = x.cols.toNat * x.rows.toNat

theorem returns_size (cols rows : UInt16) : Returns (takeSize cols rows) fun n =>
    n = cols.toNat * rows.toNat ∧ 0 < cols.toNat ∧ 0 < rows.toNat :=
  .ite (fun _ => .throw _ _) fun h => .pure ⟨rfl, size_pos h⟩

theorem returns_option {take : Take Error α} {P : α → Prop} (badTag : Error) (h : Returns take P) :
    Returns (takeOption badTag take) fun o => ∀ a, o = some a → P a := by
  refine .skip fun tag => .ite (fun _ => .pure nofun) fun _ => .ite (fun _ => ?_) fun _ => .throw _ _
  refine h.map fun a ha b hb => ?_
  cases hb
  exact ha

theorem returns_decoded : Returns takeDecoded Decoded.Sized := by
  refine .skip fun cols => .skip fun rows => (returns_size cols rows).bind ?_
  rintro n ⟨rfl, hcols, hrows⟩
  refine .skip fun _ => .skip fun _ => .skip fun _ => .skip fun _ => .skip fun _ => ?_
  refine .skip fun _ => .skip fun _ => .skip fun _ => .skip fun _ => .skip fun _ => ?_
  refine (Returns.many takeCell _).bind fun cells hcells => ?_
  refine (returns_option _ (Returns.many takeCell _)).bind fun saved hsaved => ?_
  exact .skip fun _ => .skip fun _ => .skip fun _ => .pure ⟨hcols, hrows, hcells, hsaved⟩

/-- An imported screen is sound where the ends of its scroll region are rows. -/
theorem Decoded.Sized.sound {x : Decoded} (h : x.Sized) {s : Screen} (hs : s.panicked = false)
    (htop : x.scrollTop < x.rows) (hbottom : x.scrollBottom < x.rows) :
    Sound x.Related x.cols.toNat x.rows.toNat (x.assign s) := by
  have hcol := toNat_satSub16_one_lt h.cols_pos
  have hrow := toNat_satSub16_one_lt h.rows_pos
  exact {
    cols_pos := h.cols_pos
    rows_pos := h.rows_pos
    cols_eq := rfl
    rows_eq := rfl
    length_cells := h.length_cells
    length_saved := h.length_saved
    cursorCol_lt := by
      simp only [Decoded.assign, toNat_min16]
      omega
    cursorRow_lt := by
      simp only [Decoded.assign, toNat_min16]
      omega
    top_lt := UInt16.lt_iff_toNat_lt.mp htop
    bottom_lt := UInt16.lt_iff_toNat_lt.mp hbottom
    region_le := fun hrel => UInt16.le_iff_toNat_le.mp hrel.region_le
    cluster_lt := fun hrel cl hcl =>
      (hrel.cluster_lt cl hcl).imp UInt16.lt_iff_toNat_lt.mp UInt16.lt_iff_toNat_lt.mp
    panicked := hs }

-- ---------------------------------------------------------------------------
-- Rows outside the grid
-- ---------------------------------------------------------------------------

namespace Screen

theorem panicked_blankRow (s : Screen) (h : s.cells.length < r * s.cols.toNat + s.cols.toNat) :
    (s.blankRow r).panicked = true := by
  have hout : decide (r * s.cols.toNat + s.cols.toNat ≤ s.cells.length) = false :=
    decide_eq_false (by omega)
  simp [blankRow, blankCells, fillCells, check, hout]

theorem length_copyRows (s : Screen) (moves : List (Nat × Nat)) :
    (s.copyRows moves).cells.length = s.cells.length := by
  unfold copyRows
  induction moves generalizing s with
  | nil => rfl
  | cons m moves ih => rw [List.foldl_cons, ih, copyRow, copyWithin, List.length_mapIdx]

theorem cells_retireRow (s : Screen) (row : Nat) : (s.retireRow row).cells = s.cells := by
  unfold retireRow
  dsimp only
  split <;> rfl

/-- A row past the grid is past its cells. -/
theorem length_lt_of_rows_le {s : Screen} (hlen : s.cells.length = s.cols.toNat * s.rows.toNat)
    (hcols : 0 < s.cols.toNat) (hr : s.rows.toNat ≤ r) :
    s.cells.length < r * s.cols.toNat + s.cols.toNat := by
  have hmul := Nat.mul_le_mul_left s.cols.toNat hr
  rw [Nat.mul_comm r]
  omega

theorem panicked_scrollUp {s : Screen} (hlen : s.cells.length = s.cols.toNat * s.rows.toNat)
    (hcols : 0 < s.cols.toNat) (hb : s.rows.toNat ≤ s.scrollBottom.toNat) :
    s.scrollUp.panicked = true := by
  have hlt := length_lt_of_rows_le hlen hcols hb
  refine panicked_blankRow _ ?_
  have hd := ((Draws.refl s).retireRow s.scrollTop.toNat).copyRows
    ((List.range' s.scrollTop.toNat (s.scrollBottom.toNat - s.scrollTop.toNat)).map
      fun r => (r + 1, r))
  rw [length_copyRows, cells_retireRow, hd.cols]
  exact hlt

theorem panicked_scrollDown {s : Screen} (hlen : s.cells.length = s.cols.toNat * s.rows.toNat)
    (hcols : 0 < s.cols.toNat) (ht : s.rows.toNat ≤ s.scrollTop.toNat) :
    s.scrollDown.panicked = true := by
  have hlt := length_lt_of_rows_le hlen hcols ht
  refine panicked_blankRow _ ?_
  rw [length_copyRows, ((Draws.refl s).copyRows _).cols]
  exact hlt

end Screen

-- ---------------------------------------------------------------------------
-- Engines
-- ---------------------------------------------------------------------------

namespace VtEngine

inductive Continued (e : VtEngine) : VtEngine → Prop
  | refl : Continued e e
  | feed : Continued e f → ∀ bytes, Continued e (f.feed bytes)
  | resize : Continued e f → f.resize cols rows = .ok g → Continued e g

/-- Nothing that follows indexes out of range. -/
def NeverPanics (e : VtEngine) : Prop := ∀ f, Continued e f → f.screen.panicked = false

/-- What an accepted checkpoint is to be. -/
structure Usable (e : VtEngine) : Prop where
  region_le : e.screen.scrollTop ≤ e.screen.scrollBottom
  region_lt : e.screen.scrollBottom < e.screen.rows
  cluster_lt : ∀ cl, e.screen.openCluster = some cl →
    cl.col < e.screen.cols ∧ cl.row < e.screen.rows
  length_saved : ∀ grid, e.screen.savedGrid = some grid →
    grid.length = e.screen.cols.toNat * e.screen.rows.toNat
  neverPanics : NeverPanics e

theorem NeverPanics.of_sound {e : VtEngine} (h : Sound strict cols rows e.screen) :
    NeverPanics e := by
  intro f hf
  suffices hs : ∃ cols rows, Sound strict cols rows f.screen by
    obtain ⟨_, _, hs⟩ := hs
    exact hs.panicked
  induction hf with
  | refl => exact ⟨cols, rows, h⟩
  | feed _ bytes ih =>
    obtain ⟨cols, rows, hs⟩ := ih
    exact ⟨cols, rows, hs.acts _⟩
  | @resize f g _ _ _ hr ih =>
    obtain ⟨_, _, hs⟩ := ih
    exact ⟨_, _, sound_resize (VtEngine.resize_ok hr) hs⟩

/-- `CSI S` and `CSI T` on a new parser. -/
theorem feed_scroll (s : Screen) :
    (VtEngine.feed ⟨.new, s⟩ [0x1b, 0x5b, 0x53]).screen = s.scrollUp ∧
      (VtEngine.feed ⟨.new, s⟩ [0x1b, 0x5b, 0x54]).screen = s.scrollDown := ⟨rfl, rfl⟩

/-- An accepted checkpoint is usable just when its numbers are related; and what
follows indexes out of range just when an end of its scroll region is no row. -/
theorem importCheckpoint_usable {m f : VtEngine} (hm : m.screen.panicked = false)
    (h : m.importCheckpoint blob = .ok (offset, f)) :
    ∃ x, takeDecoded.run (blob.drop 22) = .ok (x, []) ∧ (Usable f ↔ x.Related) ∧
      (NeverPanics f ↔ x.scrollTop < x.rows ∧ x.scrollBottom < x.rows) := by
  obtain ⟨x, hx, rfl⟩ := importCheckpoint_ok h
  have hsized := returns_decoded _ _ _ hx
  have hpanics : NeverPanics ⟨.new, x.assign m.screen⟩ ↔
      x.scrollTop < x.rows ∧ x.scrollBottom < x.rows := by
    refine ⟨fun hp => ?_, fun hin => .of_sound (hsized.sound hm hin.1 hin.2)⟩
    rw [← Decidable.not_not (p := x.scrollTop < x.rows ∧ x.scrollBottom < x.rows)]
    intro hout
    rw [Decidable.not_and_iff_or_not, UInt16.not_lt, UInt16.not_lt, UInt16.le_iff_toNat_le,
      UInt16.le_iff_toNat_le] at hout
    obtain ht | hb := hout
    · have hfeed := hp _ (.feed .refl [0x1b, 0x5b, 0x54])
      rw [(feed_scroll _).2, Screen.panicked_scrollDown hsized.length_cells hsized.cols_pos ht]
        at hfeed
      cases hfeed
    · have hfeed := hp _ (.feed .refl [0x1b, 0x5b, 0x53])
      rw [(feed_scroll _).1, Screen.panicked_scrollUp hsized.length_cells hsized.cols_pos hb]
        at hfeed
      cases hfeed
  refine ⟨x, hx, ⟨fun hu => ⟨hu.region_le, hu.region_lt, hu.cluster_lt⟩, fun hrel => ?_⟩, hpanics⟩
  have htop : x.scrollTop < x.rows := UInt16.lt_of_le_of_lt hrel.region_le hrel.region_lt
  exact {
    region_le := hrel.region_le
    region_lt := hrel.region_lt
    cluster_lt := hrel.cluster_lt
    length_saved := hsized.length_saved
    neverPanics := hpanics.mpr ⟨htop, hrel.region_lt⟩ }

/-- A 4 by 3 screen whose region is its last two rows, with two lines of text and a character that
a mark can still join. -/
theorem importCheckpoint_usable_region :
    let m := (VtEngine.new 2 1).toOption.get rfl
    let s := ((VtEngine.new 4 3).toOption.get rfl).feed
      [0x1b, 0x5b, 0x32, 0x3b, 0x33, 0x72, 0x61, 0x0d, 0x0a, 0x62]
    ∃ f, m.importCheckpoint (s.screen.exportCheckpoint 5) = .ok (5, f) ∧
      f.screen.scrollTop = 1 ∧ f.screen.scrollBottom = 2 ∧ f.screen.openCluster.isSome ∧
      Usable f ∧ NeverPanics f := by
  intro m s
  have hs : Reached s := .feed (.new (show VtEngine.new 4 3 = .ok _ from rfl)) _
  obtain ⟨⟨_, _, hsound⟩, -⟩ := hs.invariant
  have himport := importCheckpoint_exported hsound m 5
  obtain ⟨x, hx, husable, -⟩ := importCheckpoint_usable (m := m) rfl himport
  have hrelated : ((takeDecoded.run ((s.screen.exportCheckpoint 5).drop 22)).toOption.any fun y =>
      y.1.scrollTop ≤ y.1.scrollBottom && y.1.scrollBottom < y.1.rows &&
        y.1.openCluster.all fun cl => cl.col < y.1.cols && cl.row < y.1.rows) = true := by
    decide +kernel
  rw [hx] at hrelated
  simp only [Except.toOption, Option.any_some, Bool.and_eq_true, decide_eq_true_eq,
    Option.all_eq_true] at hrelated
  obtain ⟨⟨hle, hlt⟩, hcluster⟩ := hrelated
  have hf := husable.mpr ⟨hle, hlt, hcluster⟩
  exact ⟨_, himport, by decide +kernel, by decide +kernel, by decide +kernel, hf, hf.neverPanics⟩

/-- The blob of a 1 by 1 grid whose scroll region ends at row 5. -/
def tallRegion : List UInt8 :=
  { ((VtEngine.new 1 1).toOption.get rfl).screen with scrollBottom := 5 }.exportCheckpoint 0

/-- It is accepted, and the first `CSI S` indexes out of range. -/
theorem tallRegion_panics :
    ∃ m f, VtEngine.new 1 1 = .ok m ∧ m.importCheckpoint tallRegion = .ok (0, f) ∧
      (f.feed [0x1b, 0x5b, 0x53]).screen.panicked = true ∧ ¬ Usable f := by
  have hrun : (((VtEngine.new 1 1).toOption.get rfl).importCheckpoint tallRegion).toOption.map
      (fun y => (y.1, (y.2.feed [0x1b, 0x5b, 0x53]).screen.panicked)) = some (0, true) := by
    decide +kernel
  cases hi : ((VtEngine.new 1 1).toOption.get rfl).importCheckpoint tallRegion with
  | error err =>
    rw [hi] at hrun
    cases hrun
  | ok y =>
    rw [hi] at hrun
    obtain ⟨hoffset, hpanics⟩ := Prod.mk.inj (Option.some.inj hrun)
    refine ⟨_, y.2, rfl, ?_, hpanics, fun hu => ?_⟩
    · rw [← hoffset]
      exact hi
    · exact absurd ((hu.neverPanics _ (.feed .refl _)).symm.trans hpanics) Bool.false_ne_true

end VtEngine

end Rill.Vt
