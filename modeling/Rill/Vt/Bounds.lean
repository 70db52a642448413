import Rill.Vt.Delta
import Rill.Vt.Draw

/-!
# Bounds

The fixed arrays of the parser are never written past their end, and the saved
cursors stay inside the grid. With the screen invariant this holds of every
engine a host can have, resyncs and imports of its checkpoints included.
-/

namespace Rill.Vt

-- ---------------------------------------------------------------------------
-- Parser
-- ---------------------------------------------------------------------------

namespace Parser

/-- The registers fit their arrays: at most 32 parameters, 2 intermediates, 1024
bytes of an OSC string, and of a character always fewer bytes than awaited. -/
structure Bounded (p : Parser) : Prop where
  params_le : p.params.length ≤ maxParams
  intermediates_le : p.intermediates.length ≤ maxInter
  osc_le : p.osc.length ≤ maxOsc
  utf8_lt : p.utf8 = [] ∧ p.utf8Needed = 0 ∨ p.utf8.length < p.utf8Needed ∧ p.utf8Needed ≤ 4

theorem bounded_new : Bounded new :=
  ⟨Nat.zero_le _, Nat.zero_le _, Nat.zero_le _, .inl ⟨rfl, rfl⟩⟩

namespace Bounded

variable {p : Parser}

theorem utf8_le (h : Bounded p) : p.utf8.length ≤ 4 := by
  obtain ⟨h8, -⟩ | ⟨hlt, hle⟩ := h.utf8_lt
  · simp [h8]
  · omega

theorem ite {c : Prop} [Decidable c] {x y : Parser × List Action} (hx : c → Bounded x.1)
    (hy : ¬ c → Bounded y.1) : Bounded (if c then x else y).1 := by
  split
  case isTrue hc => exact hx hc
  case isFalse hc => exact hy hc

theorem setState (h : Bounded p) (state : State) : Bounded { p with state } := { h with }

theorem setIgnore (h : Bounded p) (ignore : Bool) : Bounded { p with ignore } := { h with }

theorem reprocess (h : Bounded p) (b : UInt8) : Bounded (p.reprocess b) := { h with }

theorem resetSeq (h : Bounded p) : Bounded p.resetSeq :=
  { h with
    params_le := Nat.zero_le _
    intermediates_le := Nat.zero_le _
    osc_le := Nat.zero_le _ }

theorem ended (h : Bounded p) (state : State) : Bounded { p.resetSeq with state } :=
  h.resetSeq.setState state

theorem pushInter (h : Bounded p) (b : UInt8) : Bounded (p.pushInter b) := by
  unfold Parser.pushInter
  split
  case isTrue hlt => exact { h with intermediates_le := by simpa using Nat.succ_le_of_lt hlt }
  case isFalse => exact { h with }

theorem pushDigit (h : Bounded p) (b : UInt8) : Bounded (p.pushDigit b) := { h with }

theorem finishParam (h : Bounded p) : Bounded p.finishParam := by
  unfold Parser.finishParam
  split
  case isTrue hlt => exact { h with params_le := by simpa using Nat.succ_le_of_lt hlt }
  case isFalse => exact { h with }

theorem pushOsc (h : Bounded p) (b : UInt8) : Bounded (p.pushOsc b) := by
  unfold Parser.pushOsc
  split
  case isTrue hlt => exact { h with osc_le := by simpa using Nat.succ_le_of_lt hlt }
  case isFalse => exact { h with }

theorem abortUtf8 (h : Bounded p) : Bounded p.abortUtf8.1 :=
  ite (fun _ => { h with utf8_lt := .inl ⟨rfl, rfl⟩ }) fun _ => h

theorem startUtf8 (h : Bounded p) (lead : UInt8) {needed : Nat} (hlt : 1 < needed)
    (hle : needed ≤ 4) : Bounded (p.startUtf8 lead needed) :=
  { h with utf8_lt := .inr ⟨hlt, hle⟩ }

/-- The byte of a character that is awaited has room: it is the last one, and the
buffer is emptied, or more are awaited. -/
theorem ground (h : Bounded p) (b : UInt8) : Bounded (p.ground b).1 := by
  refine ite (fun hn => ite (fun _ => ?_) fun _ => h.abortUtf8.reprocess b) fun _ => ?_
  · refine ite (fun _ => { h with utf8_lt := .inl ⟨rfl, rfl⟩ }) fun hne => ?_
    refine { h with utf8_lt := .inr ?_ }
    simp only [List.length_append, List.length_singleton] at hne ⊢
    have hlt := h.utf8_lt
    omega
  refine ite (fun _ => h) fun _ => ite (fun _ => h.ended _) fun _ => ite (fun _ => h.ended _) fun _ => ?_
  refine ite (fun _ => h) fun _ => ite (fun _ => h) fun _ => ite (fun _ => h) fun _ => ?_
  refine ite (fun _ => h.startUtf8 b (by omega) (by omega)) fun _ => ?_
  refine ite (fun _ => h.startUtf8 b (by omega) (by omega)) fun _ => ?_
  exact ite (fun _ => h.startUtf8 b (by omega) (by omega)) fun _ => h

theorem escape (h : Bounded p) (b : UInt8) : Bounded (p.escape b).1 := by
  refine ite (fun _ => h) fun _ => ite (fun _ => h.setState _) fun _ => ite (fun _ => h.resetSeq) fun _ => ?_
  refine ite (fun _ => (h.pushInter b).setState _) fun _ => ite (fun _ => h.ended _) fun _ => ?_
  refine ite (fun _ => h.ended _) fun _ => ite (fun _ => h.ended _) fun _ => ?_
  refine ite (fun _ => h.ended _) fun _ => ite (fun _ => h.ended _) fun _ => ?_
  exact ite (fun _ => h) fun _ => h.ended _

theorem escapeIntermediate (h : Bounded p) (b : UInt8) : Bounded (p.escapeIntermediate b).1 := by
  refine ite (fun _ => h) fun _ => ite (fun _ => h.setState _) fun _ => ite (fun _ => h.ended _) fun _ => ?_
  exact ite (fun _ => h.pushInter b) fun _ => ite (fun _ => h.ended _) fun _ => h.ended _

theorem csiEntry (h : Bounded p) (b : UInt8) : Bounded (p.csiEntry b).1 := by
  refine ite (fun _ => h) fun _ => ite (fun _ => h.setState _) fun _ => ite (fun _ => h.ended _) fun _ => ?_
  refine ite (fun _ => (h.pushInter b).setState _) fun _ => ?_
  refine ite (fun _ => (h.pushDigit b).setState _) fun _ => ite (fun _ => h.finishParam.setState _) fun _ => ?_
  refine ite (fun _ => (h.pushInter b).setState _) fun _ => ite (fun _ => h.ended _) fun _ => ?_
  exact ite (fun _ => h) fun _ => (h.setIgnore true).setState _

theorem csiParam (h : Bounded p) (b : UInt8) : Bounded (p.csiParam b).1 := by
  refine ite (fun _ => h) fun _ => ite (fun _ => h.setState _) fun _ => ite (fun _ => h.ended _) fun _ => ?_
  refine ite (fun _ => (h.finishParam.pushInter b).setState _) fun _ => ?_
  refine ite (fun _ => h.pushDigit b) fun _ => ite (fun _ => h.finishParam) fun _ => ?_
  refine ite (fun _ => h.setState _) fun _ => ite (fun _ => h.finishParam.ended _) fun _ => ?_
  exact ite (fun _ => h) fun _ => h.setIgnore true

theorem csiIntermediate (h : Bounded p) (b : UInt8) : Bounded (p.csiIntermediate b).1 := by
  refine ite (fun _ => h) fun _ => ite (fun _ => h.setState _) fun _ => ite (fun _ => h.ended _) fun _ => ?_
  refine ite (fun _ => h.pushInter b) fun _ => ite (fun _ => h.setState _) fun _ => ?_
  exact ite (fun _ => h.ended _) fun _ => (h.setIgnore true).setState _

theorem csiIgnore (h : Bounded p) (b : UInt8) : Bounded (p.csiIgnore b).1 := by
  refine ite (fun _ => h) fun _ => ite (fun _ => h.setState _) fun _ => ite (fun _ => h.ended _) fun _ => ?_
  exact ite (fun _ => h.ended _) fun _ => h

theorem oscString (h : Bounded p) (b : UInt8) : Bounded (p.oscString b).1 :=
  ite (fun _ => h.ended _) fun _ => ite (fun _ => h.setState _) fun _ =>
    ite (fun _ => h.ended _) fun _ => h.pushOsc b

theorem stringEscape (h : Bounded p) (b : UInt8) (done : List Action) :
    Bounded (p.stringEscape b done).1 :=
  ite (fun _ => h.ended _) fun _ => (h.ended _).reprocess b

theorem dcsPassthrough (h : Bounded p) (b : UInt8) : Bounded (p.dcsPassthrough b).1 :=
  ite (fun _ => h.setState _) fun _ => ite (fun _ => h.ended _) fun _ => h

theorem sos (h : Bounded p) (b : UInt8) : Bounded (p.sos b).1 :=
  ite (fun _ => h.setState _) fun _ => ite (fun _ => h.ended _) fun _ => h

theorem dispatch (h : Bounded p) (b : UInt8) : Bounded (p.dispatch b).1 := by
  unfold Parser.dispatch
  cases p.state with
  | ground => exact h.ground b
  | escape => exact h.escape b
  | escapeIntermediate => exact h.escapeIntermediate b
  | csiEntry => exact h.csiEntry b
  | csiParam => exact h.csiParam b
  | csiIntermediate => exact h.csiIntermediate b
  | csiIgnore => exact h.csiIgnore b
  | oscString => exact h.oscString b
  | dcsPassthrough => exact h.dcsPassthrough b
  | sosPmApc => exact h.sos b
  | oscEscape | dcsEscape | sosEscape => exact h.stringEscape b _

theorem step (h : Bounded p) (b : UInt8) : Bounded (p.step b).1 := by
  have hp : Bounded (if p.state ≠ .ground then p.abortUtf8 else (p, [])).1 :=
    ite (fun _ => h.abortUtf8) fun _ => h
  exact hp.dispatch b

theorem settle (h : Bounded p) (n : Nat) : Bounded (p.settle n).1 := by
  induction n generalizing p with
  | zero => exact h
  | succ n ih =>
    unfold Parser.settle
    cases p.putback with
    | none => exact h
    | some b =>
      have hp : Bounded { p with putback := none } := { h with }
      exact ih (hp.step b)

theorem feed (h : Bounded p) (bytes : List UInt8) : Bounded (p.feed bytes).1 := by
  induction bytes generalizing p with
  | nil => exact h.settle 2
  | cons b bytes ih => exact ih ((h.settle 2).step b)

end Bounded

end Parser

-- ---------------------------------------------------------------------------
-- Saved cursors
-- ---------------------------------------------------------------------------

/-- The saved cursor lies inside the grid. -/
def SavedCursor.In (cols rows : Nat) (c : SavedCursor) : Prop :=
  c.col.toNat < cols ∧ c.row.toNat < rows

structure Whole (cols rows : Nat) (s : Screen) : Prop where
  sound : Sound True cols rows s
  saved_in : ∀ c, s.savedCursor = some c → c.In cols rows
  alt_in : ∀ c, s.altCursor = some c → c.In cols rows

namespace Whole

variable {s t : Screen} {cols rows : Nat}

theorem ite {c : Prop} [Decidable c] {a b : Screen} (ha : c → Whole cols rows a)
    (hb : ¬ c → Whole cols rows b) : Whole cols rows (if c then a else b) := by
  split
  case isTrue hc => exact ha hc
  case isFalse hc => exact hb hc

theorem captured (h : Whole cols rows s) : s.captureCursor.In cols rows :=
  ⟨h.sound.cursorCol_lt, h.sound.cursorRow_lt⟩

/-- Where the saved cursors are as before, only soundness is to be shown. -/
theorem kept (h : Whole cols rows s) (ht : Sound True cols rows t) (hs : t.savedCursor = s.savedCursor)
    (ha : t.altCursor = s.altCursor) : Whole cols rows t :=
  ⟨ht, hs ▸ h.saved_in, ha ▸ h.alt_in⟩

theorem draws (h : Whole cols rows s) (ht : Sound True cols rows t) (hd : Screen.Draws s t) :
    Whole cols rows t := h.kept ht hd.savedCursor hd.altCursor

theorem saveGrid (h : Whole cols rows s) (saveCursor : Bool) :
    Whole cols rows (s.saveGrid saveCursor) := by
  refine ⟨h.sound.saveGrid saveCursor, h.saved_in, ?_⟩
  cases saveCursor with
  | false => exact nofun
  | true => rintro _ ⟨⟩; exact h.captured

theorem enterAlt (h : Whole cols rows s) (saveCursor clear : Bool) :
    Whole cols rows (s.enterAlt saveCursor clear) := by
  have hsave : Whole cols rows (if !s.inAlt then s.saveGrid saveCursor else s) :=
    ite (fun _ => h.saveGrid _) fun _ => h
  have hclear : Whole cols rows (if clear then
      (if !s.inAlt then s.saveGrid saveCursor else s).clearGrid else
      (if !s.inAlt then s.saveGrid saveCursor else s)) :=
    ite (fun _ => hsave.kept hsave.sound.clearGrid rfl rfl) fun _ => hsave
  exact hclear.kept (h.sound.enterAlt saveCursor clear) rfl rfl

theorem leaveAlt (h : Whole cols rows s) (restoreCursor : Bool) :
    Whole cols rows (s.leaveAlt restoreCursor) := by
  have hs := h.sound.leaveAlt restoreCursor
  unfold Screen.leaveAlt at hs ⊢
  split at hs
  case isTrue hc => rwa [if_pos hc]
  case isFalse hc =>
    rw [if_neg hc]
    have hgrid : s.restoreGrid.savedCursor = s.savedCursor := by
      unfold Screen.restoreGrid
      cases s.savedGrid <;> rfl
    refine ⟨hs, ?_, ?_⟩
    all_goals
      intro c hsome
      unfold Screen.takeAltCursor at hsome
      split at hsome
    · exact h.saved_in c (hgrid ▸ hsome)
    · exact h.saved_in c (hgrid ▸ hsome)
    · cases hsome
    · cases hsome

theorem setScrollRegion (h : Whole cols rows s) (params : List UInt16) :
    Whole cols rows (s.setScrollRegion params) := by
  have hs := h.sound.setScrollRegion params
  unfold Screen.setScrollRegion at hs ⊢
  dsimp only at hs ⊢
  split at hs
  case isTrue hc => rwa [if_pos hc]
  case isFalse hc =>
    rw [if_neg hc]
    exact h.kept hs rfl rfl

theorem privateModeOne (h : Whole cols rows s) (set : Bool) (p : UInt16) :
    Whole cols rows (s.privateModeOne set p) := by
  have halt : ∀ a b, Whole cols rows (if set then s.enterAlt a true else s.leaveAlt b) :=
    fun _ _ => ite (fun _ => h.enterAlt _ _) fun _ => h.leaveAlt _
  refine ite (fun _ => h.kept { h.sound with } rfl rfl) fun _ => ?_
  refine ite (fun _ => h.kept { h.sound with } rfl rfl) fun _ => ?_
  refine ite (fun _ => h.kept { h.sound with } rfl rfl) fun _ => ?_
  refine ite (fun _ => h.kept { h.sound with } rfl rfl) fun _ => ?_
  refine ite (fun _ => h.kept { h.sound with } rfl rfl) fun _ => ?_
  refine ite (fun _ => h.kept { h.sound with } rfl rfl) fun _ => ?_
  refine ite (fun _ => h.kept { h.sound with } rfl rfl) fun _ => ?_
  refine ite (fun _ => h.kept { h.sound with } rfl rfl) fun _ => ?_
  refine ite (fun _ => h.kept { h.sound with } rfl rfl) fun _ => ?_
  refine ite (fun _ => halt false false) fun _ => ?_
  exact ite (fun _ => halt true true) fun _ => h

theorem privateMode (h : Whole cols rows s) (params : List UInt16) (set : Bool) :
    Whole cols rows (s.privateMode params set) := by
  unfold Screen.privateMode
  induction params generalizing s with
  | nil => exact h
  | cons p params ih => exact ih (h.privateModeOne set p)

theorem enqueueReply (h : Whole cols rows s) (bytes : List UInt8) :
    Whole cols rows (s.enqueueReply bytes) :=
  ite (fun _ => h.kept { h.sound with } rfl rfl) fun _ =>
    ite (fun _ => h.kept { h.sound with } rfl rfl) fun _ => h.kept { h.sound with } rfl rfl

theorem sgrLoop (h : Whole cols rows s) (params : List UInt16) :
    Whole cols rows (s.sgrLoop params) :=
  have hp := Screen.Pens.sgrLoop s params
  h.kept (h.sound.sgrLoop params) hp.savedCursor hp.altCursor

theorem csiDispatch (h : Whole cols rows s) (params : List UInt16) (action : Char) :
    Whole cols rows (s.csiDispatch params action) := by
  have hs := h.sound.csiDispatch params action
  have hd := Screen.Draws.refl s
  unfold Screen.csiDispatch at hs ⊢
  simp only at hs ⊢
  split
  case h_1 | h_2 | h_3 | h_4 | h_5 | h_6 | h_7 | h_8 | h_9 | h_10 =>
    exact h.draws (h.sound.setCursor _ _) (hd.setCursor _ _)
  case h_11 => exact h.draws hs (hd.eraseDisplay _)
  case h_12 => exact h.draws hs (hd.eraseLine _)
  case h_13 => exact h.draws hs (hd.eraseSpan _ _)
  case h_14 => exact h.draws hs (hd.insertLines _)
  case h_15 => exact h.draws hs (hd.deleteLines _)
  case h_16 => exact h.draws hs (hd.insertCells _)
  case h_17 => exact h.draws hs (hd.deleteCells _)
  case h_18 => exact h.setScrollRegion _
  case h_19 => exact h.draws hs (hd.iterate (fun _ h => h.scrollUp) _)
  case h_20 => exact h.draws hs (hd.iterate (fun _ h => h.scrollDown) _)
  case h_21 => exact h.sgrLoop _
  case h_22 => exact ite (fun _ => h.enqueueReply _) fun _ => h
  case h_23 =>
    exact ite (fun _ => h.enqueueReply _) fun _ => ite (fun _ => h.enqueueReply _) fun _ => h
  case h_24 => exact h

theorem csi (h : Whole cols rows s) (params : List UInt16) (intermediates : List UInt8)
    (ignore : Bool) (action : Char) :
    Whole cols rows (s.csi params intermediates ignore action) :=
  ite (fun _ => h) fun _ => ite (fun _ => h.privateMode params _) fun _ =>
    ite (fun _ => h.enqueueReply _) fun _ => ite (fun _ => h) fun _ => h.csiDispatch _ _

theorem restoreCursor (h : Whole cols rows s) (c : SavedCursor) :
    Whole cols rows (s.restoreCursor c) := h.kept (h.sound.restoreCursor c) rfl rfl

theorem esc (h : Whole cols rows s) (intermediates : List UInt8) (byte : UInt8) :
    Whole cols rows (s.esc intermediates byte) := by
  have hwrap := h.sound.clearPendingWrap
  have hd := (Screen.Draws.refl s).clearPendingWrap
  refine ite (fun _ => ?_) fun _ => ite (fun _ => ?_) fun _ => ?_
  · refine ⟨{ h.sound with }, ?_, h.alt_in⟩
    rintro _ ⟨⟩
    exact h.captured
  · cases s.savedCursor with
    | none => exact h
    | some c => exact h.restoreCursor c
  refine ite (fun _ => h.draws hwrap.index hd.index) fun _ => ?_
  refine ite (fun _ => h.draws (hwrap.setCursorCol 0 h.sound.cols_pos).index
    (hd.setCursorCol 0).index) fun _ => ?_
  refine ite (fun _ => h.draws hwrap.reverseIndex hd.reverseIndex) fun _ => ?_
  refine ite (fun _ => h.kept { h.sound with } rfl rfl) fun _ => ?_
  exact ite (fun _ => h.kept { h.sound with } rfl rfl) fun _ => h

theorem act (h : Whole cols rows s) (a : Action) : Whole cols rows (s.act a) := by
  have hs := h.sound.act a
  cases a with
  | print c => exact h.draws hs ((Screen.Draws.refl s).writeChar c)
  | execute b => exact h.draws hs ((Screen.Draws.refl s).execute b)
  | csi params intermediates ignore action => exact h.csi params intermediates ignore action
  | esc intermediates b => exact h.esc intermediates b
  | osc payload => exact h

theorem acts (h : Whole cols rows s) (l : List Action) : Whole cols rows (l.foldl Screen.act s) := by
  induction l generalizing s with
  | nil => exact h
  | cons a l ih => exact ih (h.act a)

end Whole

theorem whole_new {cols rows : UInt16} {s : Screen} (h : Screen.new cols rows = .ok s) :
    Whole cols.toNat rows.toNat s := by
  have hs : Sound True cols.toNat rows.toNat s := sound_new h
  unfold Screen.new at h
  split at h
  · cases h
  · obtain rfl := Except.ok.inj h
    exact ⟨hs, nofun, nofun⟩

theorem whole_resize {cols rows : UInt16} {s t : Screen} (h : s.resize cols rows = .ok t)
    (hs : Whole oldCols oldRows s) : Whole cols.toNat rows.toNat t := by
  have ht := sound_resize h hs.sound
  have hclamp : ∀ c, (Screen.clampCursor cols rows c).In cols.toNat rows.toNat := by
    intro c
    have hcol := ht.min_lastCol_lt c.col
    have hrow := ht.min_lastRow_lt c.row
    have hcols : t.lastCol = satSub16 cols 1 := by
      rw [Screen.lastCol, UInt16.toNat_inj.mp ht.cols_eq]
    have hrows : t.lastRow = satSub16 rows 1 := by
      rw [Screen.lastRow, UInt16.toNat_inj.mp ht.rows_eq]
    rw [hcols] at hcol
    rw [hrows] at hrow
    exact ⟨hcol, hrow⟩
  unfold Screen.resize at h
  split at h
  · cases h
  · obtain rfl := Except.ok.inj h
    refine ⟨ht, ?_, ?_⟩
    all_goals
      intro c hc
      obtain ⟨c, -, rfl⟩ := Option.map_eq_some_iff.mp hc
      exact hclamp c

-- ---------------------------------------------------------------------------
-- Engines
-- ---------------------------------------------------------------------------

namespace VtEngine

/-- The engines a host can have that also resyncs its engine from a history and
imports the checkpoints of another. -/
inductive Hosted : VtEngine → Prop
  | new : VtEngine.new cols rows = .ok e → Hosted e
  | feed : Hosted e → ∀ bytes, Hosted (e.feed bytes)
  | resize : Hosted e → e.resize cols rows = .ok f → Hosted f
  | snapshot : Hosted e → Hosted e.snapshot.2
  | takeReplies : Hosted e → Hosted e.takeReplies.2
  | takeScrolledOff : Hosted e → Hosted e.takeScrolledOff.2
  | reset : Hosted e → e.reset = .ok f → Hosted f
  | setPalette : Hosted e → ∀ palette, Hosted (e.setPalette palette)
  | resyncFromHistory : Hosted e → e.resyncFromHistory history = .ok (bytes, f) → Hosted f
  | importCheckpoint : Hosted e → Hosted m → e.exportCheckpoint offset = .ok blob →
      m.importCheckpoint blob = .ok (ending, f) → Hosted f

/-- Every length and position the operations index by. -/
structure InBounds (e : VtEngine) : Prop where
  cols_pos : 1 ≤ e.screen.cols.toNat
  rows_pos : 1 ≤ e.screen.rows.toNat
  length_cells : e.screen.cells.length = e.screen.cols.toNat * e.screen.rows.toNat
  cursorCol_lt : e.screen.cursorCol < e.screen.cols
  cursorRow_lt : e.screen.cursorRow < e.screen.rows
  region_le : e.screen.scrollTop ≤ e.screen.scrollBottom
  region_lt : e.screen.scrollBottom < e.screen.rows
  length_saved : ∀ grid, e.screen.savedGrid = some grid →
    grid.length = e.screen.cols.toNat * e.screen.rows.toNat
  saved_lt : ∀ c, e.screen.savedCursor = some c → c.col < e.screen.cols ∧ c.row < e.screen.rows
  alt_lt : ∀ c, e.screen.altCursor = some c → c.col < e.screen.cols ∧ c.row < e.screen.rows
  cluster_lt : ∀ cl, e.screen.openCluster = some cl →
    cl.col < e.screen.cols ∧ cl.row < e.screen.rows
  params_le : e.parser.params.length ≤ 32
  intermediates_le : e.parser.intermediates.length ≤ 2
  osc_le : e.parser.osc.length ≤ 1024
  utf8_le : e.parser.utf8.length ≤ 4
  utf8_room : 0 < e.parser.utf8Needed → e.parser.utf8.length < 4
  idx_lt : ∀ col row, col < e.screen.cols → row < e.screen.rows →
    e.screen.idx col row < e.screen.cells.length
  panicked : e.screen.panicked = false

/-- A whole screen behind a bounded parser. -/
def Fits (e : VtEngine) : Prop :=
  (∃ cols rows, Whole cols rows e.screen) ∧ e.parser.Bounded

theorem Fits.inBounds (h : Fits e) : InBounds e := by
  obtain ⟨⟨cols, rows, hs⟩, hp⟩ := h
  obtain rfl := hs.sound.cols_eq
  obtain rfl := hs.sound.rows_eq
  exact {
    cols_pos := hs.sound.cols_pos
    rows_pos := hs.sound.rows_pos
    length_cells := hs.sound.length_cells
    cursorCol_lt := UInt16.lt_iff_toNat_lt.mpr hs.sound.cursorCol_lt
    cursorRow_lt := UInt16.lt_iff_toNat_lt.mpr hs.sound.cursorRow_lt
    region_le := UInt16.le_iff_toNat_le.mpr (hs.sound.region_le trivial)
    region_lt := UInt16.lt_iff_toNat_lt.mpr hs.sound.bottom_lt
    length_saved := hs.sound.length_saved
    saved_lt := fun c hc =>
      (hs.saved_in c hc).imp UInt16.lt_iff_toNat_lt.mpr UInt16.lt_iff_toNat_lt.mpr
    alt_lt := fun c hc =>
      (hs.alt_in c hc).imp UInt16.lt_iff_toNat_lt.mpr UInt16.lt_iff_toNat_lt.mpr
    cluster_lt := fun cl hcl =>
      (hs.sound.cluster_lt trivial cl hcl).imp UInt16.lt_iff_toNat_lt.mpr UInt16.lt_iff_toNat_lt.mpr
    params_le := hp.params_le
    intermediates_le := hp.intermediates_le
    osc_le := hp.osc_le
    utf8_le := hp.utf8_le
    utf8_room := fun hn => by
      have hlt := hp.utf8_lt
      omega
    idx_lt := fun col row hc hr =>
      hs.sound.idx_lt (UInt16.lt_iff_toNat_lt.mp hc) (UInt16.lt_iff_toNat_lt.mp hr)
    panicked := hs.sound.panicked }

theorem Fits.withScreen {e : VtEngine} (h : Fits e) {s : Screen} (hs : Whole cols rows s) :
    Fits { e with screen := s } := ⟨⟨cols, rows, hs⟩, h.2⟩

theorem fits_new (h : VtEngine.new cols rows = .ok e) : Fits e := by
  obtain ⟨s, hs, rfl⟩ := new_eq h
  exact ⟨⟨_, _, whole_new hs⟩, Parser.bounded_new⟩

theorem Fits.feed (h : Fits e) (bytes : List UInt8) : Fits (e.feed bytes) := by
  obtain ⟨⟨cols, rows, hs⟩, hp⟩ := h
  exact ⟨⟨cols, rows, hs.acts _⟩, hp.feed bytes⟩

theorem Fits.resize (h : Fits e) (hr : e.resize cols rows = .ok f) : Fits f := by
  obtain ⟨_, _, hs⟩ := h.1
  obtain ⟨s, hn, rfl⟩ := resize_eq hr
  exact h.withScreen (whole_resize hn hs)

theorem Fits.setDiscardReplies (h : Fits e) (discard : Bool) :
    Fits { e with screen := e.screen.setDiscardReplies discard } := by
  obtain ⟨_, _, hs⟩ := h.1
  exact h.withScreen (hs.kept { hs.sound with } rfl rfl)

theorem Fits.resyncFromHistory {e : VtEngine}
    (hr : e.resyncFromHistory history = .ok (bytes, f)) : Fits f := by
  unfold VtEngine.resyncFromHistory at hr
  cases hn : e.reset with
  | error err =>
    rw [hn] at hr
    cases hr
  | ok fresh =>
    rw [hn] at hr
    obtain ⟨-, rfl⟩ := Prod.mk.inj (Except.ok.inj hr)
    refine Fits.setDiscardReplies ?_ false
    have hfresh := (fits_new hn).setDiscardReplies true
    split
    · exact hfresh
    · exact hfresh.feed history

/-- An imported checkpoint is the exporter's screen, with the importer's host. -/
theorem Fits.importCheckpoint (h : Fits e) (hm : Fits m)
    (hblob : e.exportCheckpoint offset = .ok blob)
    (hi : m.importCheckpoint blob = .ok (ending, f)) : Fits f := by
  obtain ⟨⟨cols, rows, hs⟩, -⟩ := h
  obtain ⟨⟨_, _, hms⟩, -⟩ := hm
  unfold exportCheckpoint at hblob
  split at hblob
  case isFalse => cases hblob
  case isTrue =>
    obtain rfl := Except.ok.inj hblob
    rw [importCheckpoint_exported hs.sound] at hi
    obtain ⟨-, rfl⟩ := Prod.mk.inj (Except.ok.inj hi)
    exact ⟨⟨cols, rows, hs.kept { hs.sound with panicked := hms.sound.panicked } rfl rfl⟩,
      Parser.bounded_new⟩

theorem Hosted.fits (h : Hosted e) : Fits e := by
  induction h with
  | new hn => exact fits_new hn
  | feed _ bytes ih => exact ih.feed bytes
  | resize _ hr ih => exact ih.resize hr
  | reset _ hr ih => exact fits_new hr
  | setPalette _ _ ih | snapshot _ ih | takeReplies _ ih | takeScrolledOff _ ih =>
    obtain ⟨_, _, hs⟩ := ih.1
    exact ih.withScreen (hs.kept { hs.sound with } rfl rfl)
  | resyncFromHistory _ hr ih => exact .resyncFromHistory hr
  | importCheckpoint _ _ hblob hi ih ihm => exact ih.importCheckpoint ihm hblob hi

/-- No engine a host can have indexes out of range. -/
theorem hosted_inBounds (h : Hosted e) : InBounds e := h.fits.inBounds

/-- A new 2 by 1 engine after a regional indicator and a truncating resize. -/
theorem hosted_inBounds_resized :
    let e := (VtEngine.new 2 1).toOption.get rfl
    let f := ((e.feed [0xf0, 0x9f, 0x87, 0xba]).resize 1 1).toOption.get rfl
    InBounds f :=
  hosted_inBounds (.resize (.feed (.new (show VtEngine.new 2 1 = _ from rfl)) _)
    (show VtEngine.resize _ 1 1 = _ from rfl))

end VtEngine

end Rill.Vt
