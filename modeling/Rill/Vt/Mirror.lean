import Rill.Vt.Typeset

/-!
# The mirror of a picture

Whatever a repaint types, no half of a wide glyph is alone on the mirror. So a
mirror that shows the picture shows one whose rows are typed one by one, and
those come out as they are just when they replay.
-/

namespace Rill.Vt

open Screen Function

structure Typable (cols rows : Nat) (s : Screen) : Prop where
  joined : Joined cols rows s
  autowrap : s.autowrap = true
  cluster : ∀ cl, s.openCluster = some cl → (s.cellAt (s.idx cl.col cl.row)).isTail = false

namespace Typable

variable {cols rows : Nat} {s t : Screen}

/-- With one column there are no halves. -/
theorem cluster_of_one (h : Joined cols rows t) (hone : cols = 1) (cl : OpenCluster) :
    (t.cellAt (t.idx cl.col cl.row)).isTail = false := by
  subst hone
  exact h.active.row_start (Nat.mod_one _)

theorem of_cells (h : Typable cols rows s) (ht : Joined cols rows t) (hauto : t.autowrap = s.autowrap)
    (hcells : t.cells = s.cells) (hcols : t.cols = s.cols)
    (hcluster : ∀ cl, t.openCluster = some cl →
      ∃ cl', s.openCluster = some cl' ∧ cl.col = cl'.col ∧ cl.row = cl'.row) :
    Typable cols rows t := by
  refine ⟨ht, hauto.trans h.autowrap, fun cl hcl => ?_⟩
  obtain ⟨cl', hopen, hcol, hrow⟩ := hcluster cl hcl
  rw [Screen.cellAt, Screen.idx, hcells, hcols, hcol, hrow]
  exact h.cluster cl' hopen

theorem expandFits (h : Typable cols rows s) : Joined.ExpandFits s :=
  fun cl hcl _ _ _ => h.cluster cl hcl

theorem withPen (h : Typable cols rows s) (p : Pen) : Typable cols rows (s.withPen p) :=
  h.of_cells (h.joined.of_same { h.joined.toSound with } rfl rfl) rfl rfl rfl
    fun cl hcl => ⟨cl, hcl, rfl, rfl⟩

theorem cellAt_setPair {i j : Nat} (hi : i < s.cells.length) (hj : j = i + 1) (a b : Cell) :
    ((s.setCell i a).setCell j b).cellAt i = a := by
  subst hj
  change gridCell ((s.cells.set i a).set (i + 1) b) i = a
  rw [gridCell, List.getD_eq_getElem?_getD, List.getElem?_set_ne (by omega),
    List.getElem?_set_self hi, Option.getD_some]

theorem cell_widenCluster (h : Joined cols rows s) {cl : OpenCluster}
    (hlead : cl.col.toNat < cols ∧ cl.row.toNat < rows) (hnext : (cl.col + 1).toNat < cols) :
    ((s.widenCluster cl (cl.col + 1)).cellAt (s.idx cl.col cl.row)).isTail = false := by
  have hsound := h.toSound.smashWideAt (cl.col + 1) cl.row
  have hidx := Joined.idx_next hsound hlead.1 hnext cl.row
  unfold widenCluster
  dsimp only
  rw [Screen.cellAt, (agree_dirty _ _).cells, ← Joined.idx_draws ((Draws.refl s).smashWideAt (cl.col + 1) cl.row)]
  generalize s.smashWideAt (cl.col + 1) cl.row = u at *
  refine (congrArg Cell.isTail (cellAt_setPair (hsound.idx_lt hlead.1 hlead.2) hidx.1 _ _)).trans ?_
  exact (Joined.lead_sgr _ _ _ _).2

theorem width_cases (c : Char) : clusterWidth c = 2 ∨ clusterWidth c = 1 := by
  unfold clusterWidth
  cases isWide c.val with
  | false => exact .inr rfl
  | true => exact .inl rfl

theorem cell_paintGlyph (h : Sound True cols rows s) (c : Char) {col row : UInt16}
    (hc : col.toNat < cols) (hr : row.toNat < rows)
    (hw : clusterWidth c = 2 → (col + 1).toNat < cols) :
    ((s.paintGlyph c col row (clusterWidth c)).cellAt (s.idx col row)).isTail = false := by
  have hfirst := h.smashWideAt col row
  have hframe := (Draws.refl s).smashWideAt col row
  unfold paintGlyph
  dsimp only
  generalize s.smashWideAt col row = u at *
  obtain hwidth | hwidth := width_cases c
  · have hsecond := hfirst.smashWideAt (col + 1) row
    have hframe' := hframe.smashWideAt (col + 1) row
    rw [hwidth, if_pos rfl, if_pos rfl, if_pos rfl]
    generalize u.smashWideAt (col + 1) row = v at *
    have hidx := Joined.idx_next hsecond hc (hw hwidth) row
    rw [← Joined.idx_draws hframe']
    refine (congrArg Cell.isTail (cellAt_setPair (hsecond.idx_lt hc hr) hidx.1 _ _)).trans ?_
    exact (Joined.lead_sgr _ _ _ _).2
  · rw [hwidth, if_neg (by decide), if_neg (by decide), if_neg (by decide), ← Joined.idx_draws hframe]
    have hset := congrFun (gridCell_set (hfirst.idx_lt hc hr)
      ⟨c.val, u.penFg, u.penBg, (s.penAttrs &&& sgrMask) ||| 0⟩) (u.idx col row)
    rw [update_self] at hset
    exact (congrArg Cell.isTail hset).trans (Joined.plain_sgr _ _ _ _).tail

theorem moved_eq (u : Screen) (row width : UInt16) :
    ((u.dirty row).advanceAfterWidth width).cells = u.cells ∧
      ((u.dirty row).advanceAfterWidth width).openCluster = u.openCluster := by
  obtain ⟨damageRow0, damageRow1, hdirty⟩ := Typing.dirty_eq u row
  obtain ⟨col, pending, hadvance⟩ := Typing.advance_eq (u.dirty row) width
  rw [hadvance, hdirty]
  exact ⟨rfl, rfl⟩

theorem placeGlyph (h : Joined cols rows s) (hauto : s.autowrap = true) (c : Char)
    (hw : clusterWidth c = 2 → (s.cursorCol + 1).toNat < cols) :
    Typable cols rows (s.placeGlyph c (clusterWidth c)) := by
  have hframe := (Draws.refl s).placeGlyph c (clusterWidth c)
  refine ⟨h.placeGlyph c hw, (hframe.congr Screen.autowrap fun _ _ => rfl).trans hauto, ?_⟩
  intro cl hcl
  have hcell := cell_paintGlyph h.toSound c h.cursorCol_lt h.cursorRow_lt hw
  rw [Joined.idx_draws hframe, Screen.cellAt]
  unfold Screen.placeGlyph at hcl ⊢
  dsimp only at hcl ⊢
  rw [(moved_eq _ _ _).2] at hcl
  rw [(moved_eq _ _ _).1]
  obtain rfl := Option.some.inj hcl
  exact hcell

theorem copyRows_keeps (s : Screen) (moves : List (Nat × Nat)) :
    (s.copyRows moves).cursorCol = s.cursorCol ∧ (s.copyRows moves).openCluster = s.openCluster := by
  unfold copyRows
  induction moves generalizing s with
  | nil => exact ⟨rfl, rfl⟩
  | cons move moves ih => exact ih (s.copyRow move.1 move.2)

theorem index_keeps (s : Screen) :
    s.index.cursorCol = s.cursorCol ∧ s.index.openCluster = s.openCluster := by
  have hretire : (s.retireRow s.scrollTop.toNat).cursorCol = s.cursorCol ∧
      (s.retireRow s.scrollTop.toNat).openCluster = s.openCluster := by
    unfold retireRow
    dsimp only
    split <;> exact ⟨rfl, rfl⟩
  unfold index
  split
  · exact ⟨rfl, rfl⟩
  · obtain ⟨hcol, hopen⟩ := copyRows_keeps (s.retireRow s.scrollTop.toNat)
      ((List.range' s.scrollTop.toNat (s.scrollBottom.toNat - s.scrollTop.toNat)).map fun r => (r + 1, r))
    exact ⟨hcol.trans hretire.1, hopen.trans hretire.2⟩

/-- After a wrap there is room for the glyph, or all the room there is. -/
theorem room_of_wrap (hauto : s.autowrap = true) (width : UInt16) :
    width.toNat ≤ (s.wrapIfNeededWidth width).remainingCols.toNat ∨
      (s.wrapIfNeededWidth width).cursorCol = 0 := by
  unfold wrapIfNeededWidth
  rw [hauto]
  split
  case isTrue hfits =>
    simp only [Bool.not_eq_true', Bool.or_eq_false_iff, decide_eq_false_iff_not, UInt16.not_lt] at hfits
    exact .inl (UInt16.le_iff_toNat_le.mp hfits.2)
  case isFalse => exact .inr (index_keeps (s.clearPendingWrap.setCursorCol 0)).1

theorem printBase (h : Typable cols rows s) (c : Char) : Typable cols rows (s.printBase c) := by
  have hwrap := h.joined.wrapIfNeededWidth (clusterWidth c)
  have hauto := ((Draws.refl s).wrapIfNeededWidth (clusterWidth c)).congr Screen.autowrap fun _ _ => rfl
  have hjoined := h.joined.printBase c
  unfold Screen.printBase at hjoined ⊢
  dsimp only at hjoined ⊢
  split
  case isFalse hfit =>
    exact placeGlyph hwrap (hauto.trans h.autowrap) c fun htwo => hwrap.cols_eq ▸ fits_next hfit htwo
  case isTrue hnone =>
    -- a wide glyph finds no room only in a grid of one column
    have hone : cols = 1 := by
      have hcols := hwrap.cols_eq
      have hpos := hwrap.cols_pos
      have hwidth : (clusterWidth c).toNat ≤ 2 := by
        obtain hwidth | hwidth := width_cases c <;> rw [hwidth] <;> decide
      simp only [Bool.or_eq_true, decide_eq_true_eq, UInt16.lt_iff_toNat_lt, remainingCols,
        toNat_satSub16] at hnone
      obtain hroom | hstart := room_of_wrap h.autowrap (clusterWidth c)
      · simp only [remainingCols, toNat_satSub16] at hroom
        omega
      · have hstart := congrArg UInt16.toNat hstart
        rw [UInt16.toNat_zero] at hstart
        omega
    exact ⟨hwrap, hauto.trans h.autowrap, fun cl _ => cluster_of_one hwrap hone cl⟩

/-- A flag is completed over its own cell, or over the cell after it as well. -/
theorem expand_cases (h : Joined cols rows s) :
    s.maybeExpandRiPair = s ∨ ∃ cl, s.openCluster = some cl ∧
      (cl.col.toNat < cols ∧ cl.row.toNat < rows) ∧ (cl.col + 1).toNat < cols ∧
      s.maybeExpandRiPair.cells = (s.widenCluster cl (cl.col + 1)).cells ∧
      s.maybeExpandRiPair.openCluster = some { cl with width := 2 } := by
  unfold Screen.maybeExpandRiPair
  cases hcl : s.openCluster with
  | none => exact .inl rfl
  | some cl =>
    dsimp only
    split
    · exact .inl rfl
    · split
      case isTrue => exact .inl rfl
      case isFalse hin =>
        simp only [Bool.or_eq_true, decide_eq_true_eq, not_or, ge_iff_le, UInt16.not_le,
          Decidable.not_not] at hin
        obtain ⟨hnext, hrow⟩ := hin
        have hlt := UInt16.lt_iff_toNat_lt.mp hnext
        rw [h.cols_eq] at hlt
        have hle := toNat_le_satAdd16 cl.col 1
        rw [satAdd16_one_of_lt hnext] at hlt hle ⊢
        have hopen : (s.widenCluster cl (cl.col + 1)).openCluster = some { cl with width := 2 } := by
          unfold widenCluster
          obtain ⟨damageRow0, damageRow1, hdirty⟩ := Typing.dirty_eq (setOpenCluster _ _) cl.row
          dsimp only
          rw [hdirty]
          rfl
        refine .inr ⟨cl, rfl, ⟨by omega, hrow ▸ h.cursorRow_lt⟩, hlt, ?_⟩
        split
        · obtain ⟨col, pending, hadvance⟩ := Typing.advance_eq
            ((s.widenCluster cl (cl.col + 1)).setCursorCol (cl.col + 1)) 1
          rw [hadvance]
          exact ⟨rfl, hopen⟩
        · exact ⟨rfl, hopen⟩

theorem maybeExpandRiPair (h : Typable cols rows s) : Typable cols rows s.maybeExpandRiPair := by
  have hframe := (Draws.refl s).maybeExpandRiPair
  refine ⟨h.joined.maybeExpandRiPair h.expandFits,
    (hframe.congr Screen.autowrap fun _ _ => rfl).trans h.autowrap, fun cl' hcl' => ?_⟩
  obtain heq | ⟨cl, -, hlead, hnext, hcells, hopen⟩ := expand_cases h.joined
  · rw [heq] at hcl' ⊢
    exact h.cluster cl' hcl'
  · obtain rfl := Option.some.inj (hopen.symm.trans hcl')
    rw [Joined.idx_draws hframe, Screen.cellAt, hcells]
    exact cell_widenCluster h.joined hlead hnext

theorem print (h : Typable cols rows s) (c : Char) : Typable cols rows (s.print c) := by
  unfold Screen.print writeChar
  cases happend : s.shouldAppend c with
  | false => exact h.printBase c
  | true =>
    cases hcl : s.openCluster with
    | none =>
      unfold Screen.appendToCluster
      rw [hcl]
      exact h.printBase c
    | some cl =>
      obtain ⟨graphemeTruncated, damageRow0, damageRow1, len, heq⟩ :=
        Typing.appendToCluster_eq hcl c
      rw [if_pos rfl, heq]
      have hgrown : Typable cols rows { s with
          graphemeTruncated, damageRow0, damageRow1
          openCluster := some { cl with
            len
            afterZwj := c = zeroWidthJoiner
            lastWasRi := isRegionalIndicator c } } := by
        refine h.of_cells (h.joined.of_same { h.joined.toSound with cluster_lt := ?_ } rfl rfl) rfl
          rfl rfl ?_
        · rintro - _ ⟨⟩
          exact h.joined.cluster_lt trivial cl hcl
        · rintro _ ⟨⟩
          exact ⟨cl, hcl, rfl, rfl⟩
      dsimp only
      split
      · exact hgrown.maybeExpandRiPair
      · exact hgrown

theorem typeCell (h : Typable cols rows s) (cell : Cell) : Typable cols rows (s.typeCell cell) := by
  unfold Screen.typeCell
  split
  · exact h.withPen _
  · exact (h.withPen _).print _

theorem typeCells (h : Typable cols rows s) (cells : List Cell) : Typable cols rows (s.typeCells cells) := by
  unfold Screen.typeCells
  induction cells generalizing s with
  | nil => exact h
  | cons cell cells ih => exact ih (h.typeCell cell)

theorem nextRow (h : Typable cols rows s) : Typable cols rows s.nextRow := by
  have hframe := ((Draws.refl s).execute 0x0d).execute 0x0a
  have hjoined := (h.joined.execute 0x0d).execute 0x0a
  have hclosed : ((s.execute 0x0d).execute 0x0a).openCluster = none := (index_keeps _).2
  have hmoved : Typable cols rows ((s.execute 0x0d).execute 0x0a) :=
    ⟨hjoined, (hframe.congr Screen.autowrap fun _ _ => rfl).trans h.autowrap,
      fun cl hcl => nomatch hclosed.symm.trans hcl⟩
  exact hmoved.withPen _

theorem typeRows (e : Screen) (h : Typable cols rows s) (l : List Nat) :
    Typable cols rows (e.typeRows s l) := by
  induction l generalizing s with
  | nil => exact h
  | cons r l ih =>
    dsimp only [Screen.typeRows]
    split
    · exact ih (h.typeCells _).nextRow
    · exact ih (h.typeCells _)

end Typable

-- ---------------------------------------------------------------------------
-- The mirror
-- ---------------------------------------------------------------------------

namespace Screen

variable {cols rows : UInt16} {e s : Screen}

theorem typable_typingOn (e : Screen) (h : Screen.new cols rows = .ok s) :
    Typable cols.toNat rows.toNat (e.typingOn s) := by
  have htyping := typing_typingOn e h
  have herased : Joined cols.toNat rows.toNat (s.csiDispatch [2] 'J') :=
    (joined_new h).csiDispatch nofun
  have hhomed : Joined cols.toNat rows.toNat ((s.csiDispatch [2] 'J').csiDispatch [] 'H') :=
    herased.csiDispatch nofun
  have hstart : Joined cols.toNat rows.toNat (if e.inAlt then
      ((s.csiDispatch [2] 'J').csiDispatch [] 'H').privateMode [1049] true
      else (s.csiDispatch [2] 'J').csiDispatch [] 'H') :=
    Joined.ite (fun _ => hhomed.privateModeOne true 1049) fun _ => hhomed
  exact ⟨hstart.of_same htyping.sound rfl rfl, htyping.autowrap,
    fun cl hcl => nomatch (htyping.closed rfl).symm.trans hcl⟩

theorem joined_resyncOn (e : Screen) (h : Screen.new cols rows = .ok s) :
    Joined cols.toNat rows.toNat (e.resyncOn s) := by
  have htyped := ((typable_typingOn e h).typeRows e (List.range e.rows.toNat)).joined
  have hcup := htyped.setCursor (satSub16 (csiN [satAdd16 e.cursorRow 1, satAdd16 e.cursorCol 1] 0 1) 1)
    (satSub16 (csiN [satAdd16 e.cursorRow 1, satAdd16 e.cursorCol 1] 1 1) 1)
  exact Joined.ite (fun _ => hcup) fun _ => hcup.privateModeOne false 25

/-- A position counted from one, as CUP reads it. -/
theorem cup_param {a b : UInt16} (h : a < b) : satSub16 (csiN [satAdd16 a 1] 0 1) 1 = a := by
  have hlt := UInt16.lt_iff_toNat_lt.mp h
  have hb := b.toNat_lt
  have hsum : satAdd16 a 1 = a + 1 := if_pos (by rw [UInt16.toNat_one]; omega)
  have hone : (a + 1).toNat = a.toNat + 1 := by
    rw [UInt16.toNat_add, UInt16.toNat_one]
    omega
  have hpos : a + 1 ≠ 0 := fun k => by
    rw [k, UInt16.toNat_zero] at hone
    omega
  have hread : csiN [a + 1] 0 1 = a + 1 := if_neg hpos
  apply UInt16.toNat_inj.mp
  rw [hsum, hread, toNat_satSub16, hone, UInt16.toNat_one, Nat.add_sub_cancel]

theorem min_last_of_lt {a b : UInt16} (h : a < b) : min a (satSub16 b 1) = a := by
  have hlt := UInt16.lt_iff_toNat_lt.mp h
  apply UInt16.toNat_inj.mp
  rw [toNat_min16, toNat_satSub16, UInt16.toNat_one]
  omega

theorem cursor_resyncOn (h : Screen.new cols rows = .ok s) (he : Sound True cols.toNat rows.toNat e) :
    (e.resyncOn s).cursorCol = e.cursorCol ∧ (e.resyncOn s).cursorRow = e.cursorRow := by
  have htyped := ((typable_typingOn e h).typeRows e (List.range e.rows.toNat)).joined.toSound
  have hcol : e.cursorCol < cols := UInt16.lt_iff_toNat_lt.mpr he.cursorCol_lt
  have hrow : e.cursorRow < rows := UInt16.lt_iff_toNat_lt.mpr he.cursorRow_lt
  have hcup : ((e.typeRows (e.typingOn s) (List.range e.rows.toNat)).csiDispatch
      [satAdd16 e.cursorRow 1, satAdd16 e.cursorCol 1] 'H').cursorCol = e.cursorCol ∧
      ((e.typeRows (e.typingOn s) (List.range e.rows.toNat)).csiDispatch
        [satAdd16 e.cursorRow 1, satAdd16 e.cursorCol 1] 'H').cursorRow = e.cursorRow := by
    have hcols := UInt16.toNat_inj.mp htyped.cols_eq
    have hrows := UInt16.toNat_inj.mp htyped.rows_eq
    constructor
    · refine (congrArg₂ min (cup_param hcol) (congrArg (satSub16 · 1) hcols)).trans ?_
      exact min_last_of_lt hcol
    · refine (congrArg₂ min (cup_param hrow) (congrArg (satSub16 · 1) hrows)).trans ?_
      exact min_last_of_lt hrow
  unfold resyncOn typeScreen
  dsimp only
  split
  · exact hcup
  · exact hcup

/-- The mirror shows the picture just when each of its rows is typed as it is. -/
theorem cells_resyncOn_iff (h : Screen.new cols rows = .ok s)
    (he : Sound True cols.toNat rows.toNat e) (hw : ∀ c ∈ e.cells, Written c) :
    (e.resyncOn s).cells = e.cells ↔ ∀ r < rows.toNat, Replays none (e.inkOfRow r) := by
  obtain ⟨hgrid, hink⟩ := cells_eq_gridOf he
  have hwritten : ∀ r, ∀ c ∈ e.inkOfRow r, Written c := fun r c hc => hw c (mem_inkOfRow hc)
  have hunits : (∀ r < rows.toNat, Units (e.inkOfRow r)) →
      ((e.resyncOn s).cells = e.cells ↔ ∀ r < rows.toNat, Replays none (e.inkOfRow r)) := by
    intro hu
    have htyped := fun r hr => Line.typeCells_iff (hu r hr) (hwritten r) Line.tidy_empty
    have hlen : ∀ r < rows.toNat, (typedRow e r).length ≤ (e.inkOfRow r).length := fun r hr =>
      Nat.le_trans (htyped r hr).1 (Nat.le_of_eq (Nat.zero_add _))
    have hfit : ∀ r < rows.toNat, (typedRow e r).length ≤ cols.toNat := fun r hr =>
      Nat.le_trans (hlen r hr) (hink r hr)
    rw [resyncOn_picture h he hfit, hgrid, gridOf_inj (fun r hr => length_padded (hfit r hr))
      fun r hr => length_padded (hink r hr)]
    refine forall_congr' fun r => imp_congr_right fun hr => ?_
    exact (padded_inj (hlen r hr) (hink r hr) fun _ => last_inkOfRow).trans (htyped r hr).2
  refine ⟨fun heq => (hunits fun r hr => ?_).mp heq,
    fun hreplays => (hunits fun r hr => (hreplays r hr).units (hwritten r)).mpr hreplays⟩
  -- the mirror has no lone half, so the picture it shows has none
  have hpaired := (joined_resyncOn e h).active
  rw [heq] at hpaired
  have hspan := row_span_le cols.toNat hr
  have hrow : e.rowCells r = padded e.cols.toNat (e.inkOfRow r) := (e.rowCells_eq (by
    rw [rowCells, List.length_take, List.length_drop, he.cols_eq, he.length_cells]
    omega)).1
  have hu := units_of_paired hpaired he.length_cells hr
  rw [rowCells, he.cols_eq] at hrow
  refine hu.of_append hrow fun c hc => ?_
  rw [List.eq_of_mem_replicate hc]
  rfl

end Screen

/-- What a screen shows: its cells, and the cursor where it is to be seen. -/
structure SamePicture (s t : Screen) : Prop where
  cells : s.cells = t.cells
  cursor : s.cursorCol = t.cursorCol ∧ s.cursorRow = t.cursorRow
  cursorVisible : s.cursorVisible = t.cursorVisible

namespace VtEngine

variable {cols rows : UInt16} {e r r' : VtEngine} {history bytes : List UInt8}

/-- The mirror of a resync shows what the history left just when each row of it
is typed as it is. -/
theorem resync_samePicture_iff (hnew : VtEngine.new cols rows = .ok e)
    (hsize : r.screen.cols = cols ∧ r.screen.rows = rows)
    (hres : r.resyncFromHistory history = .ok (bytes, r')) :
    SamePicture (e.feed bytes).screen (e.feed history).screen ↔
      ∀ row < rows.toNat, Replays none ((e.feed history).screen.inkOfRow row) := by
  have hsnew := new_ok hnew
  have hsound : Sound True cols.toNat rows.toNat (e.feed history).screen :=
    (sound_of_new hnew).acts (e.parser.feed history).2
  have hstored := stored_feed (stored_new hsnew) history
  have hvisible : e.screen.cursorVisible = true := by
    unfold Screen.new at hsnew
    split at hsnew
    case isTrue => exact nomatch hsnew
    case isFalse => rw [(Except.ok.inj hsnew).symm]
  rw [feed_resync hnew hsize hres]
  have hiff := Screen.cells_resyncOn_iff hsnew hsound hstored.cells
  exact ⟨fun h => hiff.mp h.cells,
    fun h => ⟨hiff.mpr h, Screen.cursor_resyncOn hsnew hsound, Screen.cursorVisible_resyncOn _ hvisible⟩⟩

/-- A letter and a wide glyph, in a 3 by 1 engine. -/
theorem resync_samePicture_wide :
    let e := (VtEngine.new 3 1).toOption.get rfl
    let history : List UInt8 := [0x61, 0xe4, 0xb8, 0xad]
    let bytes := ((e.resyncFromHistory history).toOption.get rfl).1
    SamePicture (e.feed bytes).screen (e.feed history).screen := by
  intro e history bytes
  have hnew : VtEngine.new 3 1 = .ok e := rfl
  have hres : e.resyncFromHistory history = .ok (bytes, _) := rfl
  refine (resync_samePicture_iff hnew ⟨rfl, rfl⟩ hres).mpr fun row hrow => ?_
  obtain rfl : row = 0 := Nat.lt_one_iff.mp hrow
  have hink : (e.feed history).screen.inkOfRow 0 =
      [⟨0x61, .default, .default, 0⟩, ⟨0x4e2d, .default, .default, 8⟩,
        Cell.tailHalf ⟨0x4e2d, .default, .default, 8⟩] := by decide +kernel
  rw [hink]
  refine .narrow nofun (by decide) (by decide) (.wide ?_ (by decide) (by decide) .nil)
  rintro _ ⟨⟩
  decide +kernel

/-- Of a flag the mirror shows the first letter alone. -/
theorem resync_loses_flag :
    let e := (VtEngine.new 2 1).toOption.get rfl
    let history : List UInt8 := [0xf0, 0x9f, 0x87, 0xba, 0xf0, 0x9f, 0x87, 0xb8]
    let bytes := ((e.resyncFromHistory history).toOption.get rfl).1
    (e.feed history).parser.isIdle ∧
      ¬ SamePicture (e.feed bytes).screen (e.feed history).screen := by
  intro e history bytes
  refine ⟨by decide, fun h => ?_⟩
  exact absurd h.cells (by decide +kernel)

end VtEngine

end Rill.Vt
