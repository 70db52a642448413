import Rill.Vt.Damage

/-!
# The alternate screen

While the alternate screen is on, the primary one is the saved grid and the saved
cursor, and only resizes reach it. What the mode 1049 saves on the way in is what
it restores on the way out, whatever has been fed in between, resets of the modes
1047 and 1049 excepted.
-/

namespace Rill.Vt

-- ---------------------------------------------------------------------------
-- Input with resizes
-- ---------------------------------------------------------------------------

inductive Input
  | byte (b : UInt8)
  | resize (cols rows : UInt16)
  deriving DecidableEq, Repr

namespace Input

def byte? : Input → Option UInt8
  | byte b => some b
  | resize _ _ => none

def bytes (script : List Input) : List UInt8 := script.filterMap byte?

theorem bytes_byte (b : UInt8) (script : List Input) : bytes (byte b :: script) = b :: bytes script := rfl

/-- The slot of ESC 7 as a resize leaves it. -/
def slot (saved : Option SavedCursor) : Input → Option SavedCursor
  | byte _ => saved
  | resize cols rows =>
    if cols = 0 || rows = 0 then saved else saved.map (Screen.clampCursor cols rows)

end Input

/-- The cells and the cursor that a screen has, or is to come back to. -/
structure Primary where
  cols : UInt16
  rows : UInt16
  cells : List Cell
  cursorCol : UInt16
  cursorRow : UInt16

namespace Primary

/-- The resizes of the source on cells and cursor; an empty size is refused. -/
def input (p : Primary) : Input → Primary
  | .byte _ => p
  | .resize cols rows =>
    if cols = 0 || rows = 0 then p
    else {
      cols, rows
      cells := resizeCells p.cells p.cols p.rows cols rows
      cursorCol := min p.cursorCol (satSub16 cols 1)
      cursorRow := min p.cursorRow (satSub16 rows 1) }

def carry (p : Primary) (script : List Input) : Primary := script.foldl input p

theorem carry_append (p : Primary) (a b : List Input) : p.carry (a ++ b) = (p.carry a).carry b :=
  List.foldl_append

theorem min_last {a c : UInt16} (h : a < c) : min a (satSub16 c 1) = a := by
  have hlt := UInt16.lt_iff_toNat_lt.mp h
  rw [← UInt16.toNat_inj, toNat_min16, toNat_satSub16, UInt16.toNat_one]
  omega

theorem min_last_lt (a : UInt16) {c : UInt16} (h : ¬ c = 0) : min a (satSub16 c 1) < c := by
  rw [← UInt16.toNat_inj, UInt16.toNat_zero] at h
  rw [UInt16.lt_iff_toNat_lt, toNat_min16, toNat_satSub16, UInt16.toNat_one]
  omega

theorem col_lt_carry {p : Primary} (h : p.cursorCol < p.cols) (script : List Input) :
    (p.carry script).cursorCol < (p.carry script).cols := by
  induction script generalizing p with
  | nil => exact h
  | cons x script ih =>
    refine ih ?_
    cases x with
    | byte b => exact h
    | resize cols rows =>
      by_cases hempty : (cols = 0 || rows = 0) = true
      · rwa [input, if_pos hempty]
      · rw [input, if_neg hempty]
        exact min_last_lt _ fun hzero => hempty (by simp [hzero])

theorem row_lt_carry {p : Primary} (h : p.cursorRow < p.rows) (script : List Input) :
    (p.carry script).cursorRow < (p.carry script).rows := by
  induction script generalizing p with
  | nil => exact h
  | cons x script ih =>
    refine ih ?_
    cases x with
    | byte b => exact h
    | resize cols rows =>
      by_cases hempty : (cols = 0 || rows = 0) = true
      · rwa [input, if_pos hempty]
      · rw [input, if_neg hempty]
        exact min_last_lt _ fun hzero => hempty (by simp [hzero])

end Primary

def Screen.primary (s : Screen) : Primary := ⟨s.cols, s.rows, s.cells, s.cursorCol, s.cursorRow⟩

/-- A reset of one of the modes of the alternate screen. -/
def Action.leavesAlt : Action → Bool
  | .csi params intermediates ignore action =>
    intermediates = [0x3f] && !ignore && action = 'l' && params.any Screen.isAltMode
  | _ => false

-- ---------------------------------------------------------------------------
-- Sequences
-- ---------------------------------------------------------------------------

namespace Parser

/-- After ESC and an opening bracket every parser reads a new control sequence; at most the
character it was in the middle of has come to nothing. -/
theorem feed_escape {p : Parser} (hput : p.putback = none) (hutf8 : p.utf8Needed = 0 → p.utf8 = []) :
    ∃ acts, p.feed [0x1b, 0x5b] = ({ new with state := .csiEntry }, acts) ∧
      ∀ a ∈ acts, a = .print replacement := by
  obtain ⟨state, params, paramAcc, intermediates, ignore, osc, utf8, utf8Needed, putback⟩ := p
  dsimp only at hput hutf8
  subst hput
  cases utf8Needed with
  | zero =>
    obtain rfl := hutf8 rfl
    cases state <;> exact ⟨[], rfl, nofun⟩
  | succ n =>
    cases state <;> exact ⟨[.print replacement], rfl, fun a ha => List.mem_singleton.mp ha⟩

/-- ESC, bracket and the private mode 1049, up to its final byte. -/
def mode1049 : List UInt8 := [0x1b, 0x5b, 0x3f, 0x31, 0x30, 0x34, 0x39]

def in1049 : Parser :=
  { new with state := .csiParam, paramAcc := 1049, intermediates := [0x3f] }

theorem feed_mode1049 {p : Parser} (hput : p.putback = none) (hutf8 : p.utf8Needed = 0 → p.utf8 = []) :
    ∃ acts, p.feed mode1049 = (in1049, acts) ∧ ∀ a ∈ acts, a = .print replacement := by
  obtain ⟨acts, hfeed, hacts⟩ := feed_escape hput hutf8
  have hsplit : mode1049 = [0x1b, 0x5b] ++ [0x3f, 0x31, 0x30, 0x34, 0x39] := rfl
  have hrest : { new with state := .csiEntry }.feed [0x3f, 0x31, 0x30, 0x34, 0x39] = (in1049, []) := rfl
  refine ⟨acts, ?_, hacts⟩
  rw [hsplit, feed_append, hfeed]
  dsimp only
  rw [hrest, List.append_nil]

/-- Between sequences nothing is cut off. -/
theorem acts_mode1049 {p : Parser} (hidle : p.isIdle) (hutf8 : p.Utf8Ok) : (p.feed mode1049).2 = [] :=
  ((alike_new hidle hutf8).feed mode1049).1

end Parser

namespace VtEngine

def input (e : VtEngine) : Input → VtEngine
  | .byte b => e.feed [b]
  | .resize cols rows => e.after (e.resize cols rows)

def inputs (e : VtEngine) (script : List Input) : VtEngine := script.foldl input e

theorem inputs_append (e : VtEngine) (a b : List Input) : e.inputs (a ++ b) = (e.inputs a).inputs b :=
  List.foldl_append

theorem inputs_cons (e : VtEngine) (x : Input) (script : List Input) :
    e.inputs (x :: script) = (e.input x).inputs script := rfl

theorem resize_refused {s : Screen} {err : Error} (h : s.resize cols rows = .error err) :
    (cols = 0 || rows = 0) = true := by
  unfold Screen.resize at h
  split at h
  case isTrue hempty => exact hempty
  case isFalse => cases h

theorem parser_after_resize (e : VtEngine) (cols rows : UInt16) :
    (e.after (e.resize cols rows)).parser = e.parser := by
  unfold VtEngine.resize
  cases e.screen.resize cols rows with
  | error err => rfl
  | ok s => rfl

/-- What the actions in `G` keep, and a resize carries on, holds after a script that dispatches
none but these. -/
theorem inputs_keep {π : Type} {carry : π → Input → π} {I : π → Screen → Prop} {G : Action → Prop}
    (hbyte : ∀ p b, carry p (.byte b) = p)
    (hrefused : ∀ p cols rows, (cols = 0 || rows = 0) = true → carry p (.resize cols rows) = p)
    (hact : ∀ p s a, G a → I p s → I p (s.act a))
    (hresize : ∀ p s t cols rows, I p s → s.resize cols rows = .ok t → I (carry p (.resize cols rows)) t)
    {e : VtEngine} {p : π} (script : List Input) (hput : e.parser.putback = none)
    (hok : ∀ a ∈ (e.parser.feed (Input.bytes script)).2, G a) (h : I p e.screen) :
    I (script.foldl carry p) (e.inputs script).screen := by
  have hacts : ∀ (l : List Action) (p : π) (s : Screen), (∀ a ∈ l, G a) → I p s →
      I p (l.foldl Screen.act s) := by
    intro l
    induction l with
    | nil => exact fun _ _ _ h => h
    | cons a l ih =>
      exact fun p s hl h => ih p _ (fun b hb => hl b (List.mem_cons_of_mem a hb))
        (hact p s a (hl a List.mem_cons_self) h)
  induction script generalizing e p with
  | nil => exact h
  | cons x script ih =>
    cases x with
    | byte b =>
      have hfeed : e.parser.feed (Input.bytes (.byte b :: script)) =
          (((e.parser.feed [b]).1.feed (Input.bytes script)).1,
            (e.parser.feed [b]).2 ++ ((e.parser.feed [b]).1.feed (Input.bytes script)).2) :=
        Parser.feed_append e.parser [b] (Input.bytes script)
      rw [hfeed] at hok
      have hput' : (e.feed [b]).parser.putback = none := Parser.putback_feed e.parser [b]
      rw [List.foldl_cons, hbyte]
      refine ih hput' (fun a ha => hok a (List.mem_append_right _ ha)) ?_
      exact hacts _ _ _ (fun a ha => hok a (List.mem_append_left _ ha)) h
    | resize cols rows =>
      have hparser := parser_after_resize e cols rows
      refine ih (e := e.after (e.resize cols rows)) (hparser ▸ hput) (by rwa [hparser]) ?_
      unfold VtEngine.resize
      cases hr : e.screen.resize cols rows with
      | error err =>
        rw [hrefused p cols rows (resize_refused hr)]
        exact h
      | ok s => exact hresize p e.screen s cols rows h hr

theorem parser_inputs (e : VtEngine) (script : List Input) (hput : e.parser.putback = none) :
    (e.inputs script).parser = (e.parser.feed (Input.bytes script)).1 := by
  induction script generalizing e with
  | nil => exact (congrArg VtEngine.parser (feed_nil hput)).symm
  | cons x script ih =>
    cases x with
    | byte b =>
      rw [Input.bytes_byte, show b :: Input.bytes script = [b] ++ Input.bytes script from rfl,
        Parser.feed_append]
      exact ih (e.feed [b]) (Parser.putback_feed e.parser [b])
    | resize cols rows =>
      have hparser := parser_after_resize e cols rows
      have hrest := ih (e.after (e.resize cols rows)) (hparser ▸ hput)
      rw [hparser] at hrest
      exact hrest

end VtEngine

-- ---------------------------------------------------------------------------
-- Before
-- ---------------------------------------------------------------------------

namespace Screen

/-- On the primary screen, with the pen and the history of `s₀`. -/
structure Shown (s₀ : Screen) (p : Primary) (s : Screen) : Prop where
  framed : s.Framed
  inAlt : s.inAlt = false
  primary : s.primary = p
  penFg : s.penFg = s₀.penFg
  penBg : s.penBg = s₀.penBg
  penAttrs : s.penAttrs = s₀.penAttrs
  scrolledOff : s.scrolledOff = s₀.scrolledOff

/-- On the alternate screen, with `p` and the pen of `s₀` to come back to. -/
structure Held (s₀ : Screen) (p : Primary) (s : Screen) : Prop where
  framed : s.Framed
  inAlt : s.inAlt = true
  cols : s.cols = p.cols
  rows : s.rows = p.rows
  grid : s.savedGrid = some p.cells
  cursor : ∃ wrap, s.altCursor =
    some ⟨p.cursorCol, p.cursorRow, wrap, s₀.penFg, s₀.penBg, s₀.penAttrs⟩
  scrolledOff : s.scrolledOff = s₀.scrolledOff

variable {cols rows : UInt16} {s₀ s t : Screen} {p : Primary}

theorem framed_resize (hr : s.resize cols rows = .ok t) : t.Framed :=
  (VtEngine.covers_resize hr).framed

theorem Shown.resize (h : Shown s₀ p s)
    (hr : s.resize cols rows = .ok t) : Shown s₀ (p.input (.resize cols rows)) t := by
  have hframed := framed_resize hr
  unfold Screen.resize at hr
  split at hr
  case isTrue => cases hr
  case isFalse hpos =>
    obtain rfl := Except.ok.inj hr
    refine { h with framed := hframed, primary := ?_ }
    rw [← h.primary]
    exact (if_neg hpos).symm

theorem Held.resize (h : Held s₀ p s)
    (hr : s.resize cols rows = .ok t) : Held s₀ (p.input (.resize cols rows)) t := by
  have hframed := framed_resize hr
  unfold Screen.resize at hr
  split at hr
  case isTrue => cases hr
  case isFalse hpos =>
    obtain rfl := Except.ok.inj hr
    obtain ⟨wrap, hcursor⟩ := h.cursor
    rw [Primary.input, if_neg hpos]
    refine { h with framed := hframed, cols := rfl, rows := rfl, grid := ?_, cursor := ⟨wrap, ?_⟩ }
    · rw [h.grid, h.cols, h.rows]
      rfl
    · rw [hcursor]
      rfl

theorem Shown.enter (h : Shown s₀ p s) :
    Held s₀ p (s.act (.csi [1049] [0x3f] false 'h')) := by
  have hframed : (s.act (.csi [1049] [0x3f] false 'h')).Framed := (Marks.act h.framed _).framed
  have hact : s.act (.csi [1049] [0x3f] false 'h') = s.enterAlt true true := rfl
  rw [hact] at hframed ⊢
  have hin : (!s.inAlt) = true := by rw [h.inAlt]; rfl
  obtain rfl := h.primary
  unfold Screen.enterAlt at hframed ⊢
  dsimp only at hframed ⊢
  rw [if_pos hin] at hframed ⊢
  refine { framed := hframed, inAlt := rfl, cols := rfl, rows := rfl, grid := rfl, cursor := ?_,
           scrolledOff := h.scrolledOff }
  refine ⟨s.pendingWrap, ?_⟩
  rw [← h.penFg, ← h.penBg, ← h.penAttrs]
  rfl

-- ---------------------------------------------------------------------------
-- In between
-- ---------------------------------------------------------------------------

/-- Drawing, erasing and scrolling see the alternate grid alone. -/
theorem Held.changes (h : Held s₀ p s) (hc : Changes (fun _ => False) s t) : Held s₀ p t where
  framed := hc.framed
  inAlt := (hc.draws.congr Screen.inAlt fun _ _ => rfl).trans h.inAlt
  cols := hc.cols.trans h.cols
  rows := hc.rows.trans h.rows
  grid := (hc.draws.congr Screen.savedGrid fun _ _ => rfl).trans h.grid
  cursor := by
    rw [hc.draws.altCursor]
    exact h.cursor
  scrolledOff := (hc.scrolledOff h.inAlt).trans h.scrolledOff

theorem Held.sets (h : Held s₀ p s) (hs : Sets s t) (ht : t.Framed) : Held s₀ p t := by
  unfold Sets at hs
  rw [← hs] at ht ⊢
  exact { h with framed := ht }

/-- A second way in saves nothing: it clears the alternate grid. -/
theorem Held.enterAlt (h : Held s₀ p s) (saves : Bool) : Held s₀ p (s.enterAlt saves true) := by
  have hframed := h.framed.enterAlt saves true
  have hin : ¬ (!s.inAlt) = true := by
    rw [h.inAlt]
    exact Bool.false_ne_true
  unfold Screen.enterAlt at hframed ⊢
  dsimp only at hframed ⊢
  rw [if_neg hin] at hframed ⊢
  exact { h with framed := hframed, inAlt := rfl }

theorem Held.privateModeOne (h : Held s₀ p s) {set : Bool} {q : UInt16}
    (hq : set = true ∨ isAltMode q = false) : Held s₀ p (s.privateModeOne set q) := by
  obtain ⟨-, hsets, hcol⟩ | ⟨saves, halt, heq⟩ := modeStep_privateModeOne s set q
  · exact h.sets hsets (hsets.framed h.framed (hcol ▸ h.framed.cursorCol_lt))
  · obtain rfl := hq.resolve_right fun hno => by
      rw [halt] at hno
      cases hno
    rw [heq]
    exact h.enterAlt saves

theorem Held.act (h : Held s₀ p s) {a : Action} (ha : a.leavesAlt = false) : Held s₀ p (s.act a) := by
  obtain (hc | ⟨hs, ht⟩) | ⟨params, set, rfl, heq⟩ := act_cases h.framed a
  · exact h.changes hc
  · exact h.sets hs ht
  · rw [heq]
    have hparams : ∀ q ∈ params, set = true ∨ isAltMode q = false := by
      intro q hq
      cases set with
      | true => exact .inl rfl
      | false =>
        have hany : params.any isAltMode = false := by simpa [Action.leavesAlt] using ha
        exact .inr (by simpa using List.any_eq_false.mp hany q hq)
    unfold Screen.privateMode
    clear heq ha
    induction params generalizing s with
    | nil => exact h
    | cons q params ih =>
      exact ih (h.privateModeOne (hparams q List.mem_cons_self))
        fun r hr => hparams r (List.mem_cons_of_mem q hr)

-- ---------------------------------------------------------------------------
-- Afterwards
-- ---------------------------------------------------------------------------

theorem leaveAlt_eq {grid : List Cell} {c : SavedCursor} (hin : s.inAlt = true)
    (hgrid : s.savedGrid = some grid) (hcursor : s.altCursor = some c) :
    s.leaveAlt true = { s with
      cells := grid
      savedGrid := none
      altCursor := none
      cursorCol := min c.col s.lastCol
      cursorRow := min c.row s.lastRow
      pendingWrap := c.pendingWrap
      penFg := c.fg
      penBg := c.bg
      penAttrs := c.attrs
      inAlt := false
      fullDamage := true } := by
  have hno : ¬ (!s.inAlt) = true := by
    rw [hin]
    exact Bool.false_ne_true
  have hrestore : s.restoreGrid = { s with cells := grid, savedGrid := none } := by
    rw [Screen.restoreGrid, hgrid]
  have htake : ({ s with cells := grid, savedGrid := none } : Screen).takeAltCursor true =
      { s with cells := grid, savedGrid := none, altCursor := none }.restoreCursor c := by
    rw [Screen.takeAltCursor]
    dsimp only
    rw [hcursor]
  rw [Screen.leaveAlt, if_neg hno, hrestore, htake]
  rfl

/-- Back on the primary screen, `p` clamped to the grid, with the pen and the history of `s₀`. -/
structure Returned (s₀ : Screen) (p : Primary) (t : Screen) : Prop where
  inAlt : t.inAlt = false
  cols : t.cols = p.cols
  rows : t.rows = p.rows
  cells : t.cells = p.cells
  cursorCol : t.cursorCol = min p.cursorCol (satSub16 p.cols 1)
  cursorRow : t.cursorRow = min p.cursorRow (satSub16 p.rows 1)
  penFg : t.penFg = s₀.penFg
  penBg : t.penBg = s₀.penBg
  penAttrs : t.penAttrs = s₀.penAttrs
  scrolledOff : t.scrolledOff = s₀.scrolledOff

/-- The way out brings the saved grid, cursor and pen back, and leaves the slot of ESC 7 alone. -/
theorem Held.leave (h : Held s₀ p s) :
    Returned s₀ p (s.act (.csi [1049] [0x3f] false 'l')) ∧
      (s.act (.csi [1049] [0x3f] false 'l')).savedCursor = s.savedCursor := by
  obtain ⟨wrap, hcursor⟩ := h.cursor
  have hact : s.act (.csi [1049] [0x3f] false 'l') = s.leaveAlt true := rfl
  rw [hact, leaveAlt_eq h.inAlt h.grid hcursor]
  refine ⟨?_, rfl⟩
  exact {
    inAlt := rfl
    cols := h.cols
    rows := h.rows
    cells := rfl
    cursorCol := by rw [Screen.lastCol, h.cols]
    cursorRow := by rw [Screen.lastRow, h.rows]
    penFg := rfl
    penBg := rfl
    penAttrs := rfl
    scrolledOff := h.scrolledOff }

end Screen

-- ---------------------------------------------------------------------------
-- Engines
-- ---------------------------------------------------------------------------

namespace VtEngine

variable {e : VtEngine}

theorem slot_resize {s t : Screen} {saved : Option SavedCursor} (h : s.savedCursor = saved)
    (hr : s.resize cols rows = .ok t) : t.savedCursor = Input.slot saved (.resize cols rows) := by
  unfold Screen.resize at hr
  split at hr
  case isTrue => cases hr
  case isFalse hpos =>
    obtain rfl := Except.ok.inj hr
    rw [← h]
    exact (if_neg hpos).symm

structure Parsed (p : Parser) : Prop where
  bounded : p.Bounded
  utf8Ok : p.Utf8Ok
  putback : p.putback = none

theorem Parsed.new : Parsed .new := ⟨Parser.bounded_new, fun _ => rfl, rfl⟩

theorem Parsed.feed {p : Parser} (h : Parsed p) (bytes : List UInt8) : Parsed (p.feed bytes).1 :=
  ⟨h.bounded.feed bytes, Parser.utf8Ok_feed h.utf8Ok bytes, Parser.putback_feed p bytes⟩

theorem Parsed.utf8_nil {p : Parser} (h : Parsed p) (hneeded : p.utf8Needed = 0) : p.utf8 = [] := by
  obtain ⟨hnil, -⟩ | ⟨hlt, -⟩ := h.bounded.utf8_lt
  · exact hnil
  · omega

theorem parsed_resync {e f : VtEngine} (h : e.resyncFromHistory history = .ok (bytes, f)) :
    Parsed f.parser := by
  unfold VtEngine.resyncFromHistory at h
  cases hn : e.reset with
  | error err =>
    rw [hn] at h
    cases h
  | ok fresh =>
    rw [hn] at h
    obtain ⟨-, rfl⟩ := Prod.mk.inj (Except.ok.inj h)
    have hfresh : Parsed fresh.parser := parser_new hn ▸ .new
    dsimp only
    split
    case isTrue => exact hfresh
    case isFalse => exact hfresh.feed history

theorem parsed_after {o : Except Error VtEngine} (h : Parsed e.parser)
    (ho : ∀ f, o = .ok f → Parsed f.parser) : Parsed (e.after o).parser := by
  cases o with
  | error err => exact h
  | ok f => exact ho f rfl

theorem Reachable.parsed (h : Reachable e) : Parsed e.parser := by
  induction h with
  | new hn => exact parser_new hn ▸ .new
  | snapshot _ ih => exact ih
  | @update e _ u ih =>
    cases u with
    | feed bytes => exact ih.feed bytes
    | resize cols rows => exact (parser_after_resize e cols rows).symm ▸ ih
    | setPalette palette => exact ih
    | reset => exact parsed_after ih fun f hf => parser_new hf ▸ .new
    | importCheckpoint bytes =>
      refine parsed_after ih fun f hf => ?_
      obtain ⟨offset, hi⟩ := map_snd_ok hf
      obtain ⟨x, -, rfl⟩ := importCheckpoint_ok hi
      exact .new
    | resyncFromHistory history =>
      refine parsed_after ih fun f hf => ?_
      obtain ⟨bytes, hr⟩ := map_snd_ok hf
      exact parsed_resync hr
    | takeReplies => exact ih
    | takeScrolledOff => exact ih

-- ---------------------------------------------------------------------------
-- Scripts
-- ---------------------------------------------------------------------------

theorem shown_inputs {s₀ : Screen} {p : Primary} (h : Screen.Shown s₀ p e.screen) (script : List Input)
    (hput : e.parser.putback = none) (hnone : (e.parser.feed (Input.bytes script)).2 = []) :
    Screen.Shown s₀ (p.carry script) (e.inputs script).screen := by
  refine inputs_keep (G := fun _ => False) (fun _ _ => rfl) (fun _ _ _ hempty => if_pos hempty)
    (fun _ _ _ hno => hno.elim) (fun _ _ _ _ _ h hr => h.resize hr) script hput ?_ h
  rw [hnone]
  exact fun _ => nofun

theorem held_inputs {s₀ : Screen} {p : Primary} (h : Screen.Held s₀ p e.screen) (script : List Input)
    (hput : e.parser.putback = none)
    (hstay : ∀ a ∈ (e.parser.feed (Input.bytes script)).2, a.leavesAlt = false) :
    Screen.Held s₀ (p.carry script) (e.inputs script).screen :=
  inputs_keep (I := Screen.Held s₀) (G := fun a => a.leavesAlt = false) (fun _ _ => rfl)
    (fun _ _ _ hempty => if_pos hempty) (fun _ _ _ ha h => h.act ha)
    (fun _ _ _ _ _ h hr => h.resize hr) script hput hstay h

theorem slot_inputs (script : List Input) (hput : e.parser.putback = none)
    (hprint : ∀ a ∈ (e.parser.feed (Input.bytes script)).2, a = .print replacement) :
    (e.inputs script).screen.savedCursor = script.foldl Input.slot e.screen.savedCursor := by
  refine inputs_keep (I := fun saved s => s.savedCursor = saved)
    (G := fun a => a = .print replacement) (fun _ _ => rfl) (fun _ _ _ hempty => if_pos hempty)
    ?_ (fun _ _ _ _ _ h hr => slot_resize h hr) script hput hprint rfl
  rintro _ s _ rfl h
  exact ((Screen.Draws.refl s).writeChar replacement).savedCursor.trans h

/-- The sequence that resets the mode, from wherever its bytes find the parser. -/
theorem returned_inputs {s₀ : Screen} {p : Primary} (h : Screen.Held s₀ p e.screen)
    (hparsed : Parsed e.parser) {leave : List Input} (hleave : Input.bytes leave = Parser.mode1049) :
    Screen.Returned s₀ (p.carry leave) (e.inputs (leave ++ [.byte 0x6c])).screen ∧
      (e.inputs (leave ++ [.byte 0x6c])).screen.savedCursor =
        leave.foldl Input.slot e.screen.savedCursor := by
  obtain ⟨acts, hfeed, hacts⟩ := Parser.feed_mode1049 hparsed.putback hparsed.utf8_nil
  have hparser := parser_inputs e leave hparsed.putback
  rw [← hleave] at hfeed
  rw [hfeed] at hparser
  have hprint : ∀ a ∈ (e.parser.feed (Input.bytes leave)).2, a = .print replacement := by
    rw [hfeed]
    exact hacts
  have hheld := held_inputs h leave hparsed.putback fun a ha => hprint a ha ▸ rfl
  have hslot := slot_inputs leave hparsed.putback hprint
  have hlast : e.inputs (leave ++ [.byte 0x6c]) =
      ⟨.new, (e.inputs leave).screen.act (.csi [1049] [0x3f] false 'l')⟩ := by
    rw [inputs_append, inputs_cons, input, feed, hparser]
    rfl
  rw [hlast]
  obtain ⟨hreturned, hsaved⟩ := hheld.leave
  exact ⟨hreturned, hsaved.trans hslot⟩

/-- The alternate screen never touches the primary. Whatever is fed between setting and resetting
the mode 1049, with resizes anywhere, the cells, the cursor and the pen come back as they were,
carried through the resizes, and nothing has been added to the history. A cursor below the grid,
as an import can leave one, comes back on its last row. -/
theorem alternate_untouched (he : Reachable e) (hidle : e.parser.isIdle)
    (hin : e.screen.inAlt = false) {enter w leave : List Input}
    (henter : Input.bytes enter = Parser.mode1049) (hleave : Input.bytes leave = Parser.mode1049)
    (hw : ∀ a ∈ (Parser.new.feed (Input.bytes w)).2, a.leavesAlt = false) :
    let before := e.inputs (enter ++ .byte 0x68 :: w)
    let after := before.inputs (leave ++ [.byte 0x6c])
    let p := e.screen.primary.carry (enter ++ .byte 0x68 :: w ++ leave)
    Screen.Returned e.screen p after.screen ∧ after.screen.cursorCol = p.cursorCol ∧
      (e.screen.cursorRow < e.screen.rows → after.screen.cursorRow = p.cursorRow) ∧
      after.screen.savedCursor = leave.foldl Input.slot before.screen.savedCursor := by
  have hparsed := he.parsed
  have hshown : Screen.Shown e.screen (e.screen.primary.carry enter) (e.inputs enter).screen := by
    refine shown_inputs ⟨he.framed, hin, rfl, rfl, rfl, rfl, rfl⟩ enter hparsed.putback ?_
    rw [henter, Parser.acts_mode1049 hidle hparsed.utf8Ok]
  have hparser : (e.inputs enter).parser = Parser.in1049 := by
    obtain ⟨acts, hfeed, -⟩ := Parser.feed_mode1049 hparsed.putback hparsed.utf8_nil
    rw [parser_inputs e enter hparsed.putback, henter, hfeed]
  have hentered : (e.inputs enter).input (.byte 0x68) =
      ⟨.new, (e.inputs enter).screen.act (.csi [1049] [0x3f] false 'h')⟩ := by
    rw [input, feed, hparser]
    rfl
  have hheld : Screen.Held e.screen (e.screen.primary.carry (enter ++ .byte 0x68 :: w))
      (e.inputs (enter ++ .byte 0x68 :: w)).screen := by
    rw [inputs_append, Primary.carry_append, inputs_cons, hentered]
    exact held_inputs (e := ⟨.new, _⟩) hshown.enter w rfl hw
  have hparsed' : Parsed (e.inputs (enter ++ .byte 0x68 :: w)).parser := by
    rw [parser_inputs e _ hparsed.putback]
    exact hparsed.feed _
  obtain ⟨hreturned, hslot⟩ := returned_inputs hheld hparsed' hleave
  rw [← Primary.carry_append] at hreturned
  have hcol : e.screen.primary.cursorCol < e.screen.primary.cols :=
    UInt16.lt_iff_toNat_lt.mpr he.framed.cursorCol_lt
  refine ⟨hreturned, ?_, fun hrow => ?_, hslot⟩
  · exact hreturned.cursorCol.trans (Primary.min_last (Primary.col_lt_carry hcol _))
  · exact hreturned.cursorRow.trans (Primary.min_last (Primary.row_lt_carry hrow _))

/-- A letter on a new 2 by 2 engine, a resize just before the first sequence, and another letter, a
cursor saved and a resize in between. -/
theorem alternate_untouched_resized :
    let e := ((VtEngine.new 2 2).toOption.get rfl).feed [0x61]
    let enter := .resize 3 2 :: Parser.mode1049.map Input.byte
    let w := [Input.byte 0x62, .byte 0x1b, .byte 0x37, .resize 1 1]
    let before := e.inputs (enter ++ .byte 0x68 :: w)
    let after := before.inputs (Parser.mode1049.map Input.byte ++ [.byte 0x6c])
    let p := e.screen.primary.carry (enter ++ .byte 0x68 :: w ++ Parser.mode1049.map Input.byte)
    Screen.Returned e.screen p after.screen ∧ after.screen.cursorCol = p.cursorCol ∧
      (e.screen.cursorRow < e.screen.rows → after.screen.cursorRow = p.cursorRow) ∧
      after.screen.savedCursor =
        (Parser.mode1049.map Input.byte).foldl Input.slot before.screen.savedCursor :=
  alternate_untouched (.update (.new (show VtEngine.new 2 2 = .ok _ from rfl)) (.feed [0x61])) rfl rfl
    rfl rfl (by decide)

end VtEngine

end Rill.Vt
