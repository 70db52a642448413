import Rill.Vt.Pairs
import Rill.Vt.Written

/-!
# What a repaint shows

The repaint of a screen, fed to an engine at rest: its control sequences set the
pen, move the cursor and switch the two modes it knows, and the rest is printed
cell by cell.
-/

namespace Rill.Vt

open Screen

-- ---------------------------------------------------------------------------
-- Pens
-- ---------------------------------------------------------------------------

def Cell.pen (c : Cell) : Pen := ⟨c.fg, c.bg, c.attrs &&& sgrMask⟩

namespace Screen

def pen (s : Screen) : Pen := ⟨s.penFg, s.penBg, s.penAttrs⟩

def withPen (s : Screen) (p : Pen) : Screen :=
  { s with penFg := p.fg, penBg := p.bg, penAttrs := p.attrs }

end Screen

-- ---------------------------------------------------------------------------
-- Showing
-- ---------------------------------------------------------------------------

/-- These bytes, read by a parser at rest, turn `s` into `t`. -/
def Shows (bytes : List UInt8) (s t : Screen) : Prop :=
  ∃ acts, Makes bytes acts ∧ acts.foldl Screen.act s = t

namespace Shows

theorem nil (s : Screen) : Shows [] s s := ⟨[], .nil, rfl⟩

theorem append {bytes rest : List UInt8} {s t u : Screen} (h : Shows bytes s t)
    (k : Shows rest t u) : Shows (bytes ++ rest) s u := by
  obtain ⟨acts, hmakes, rfl⟩ := h
  obtain ⟨more, hmore, rfl⟩ := k
  exact ⟨acts ++ more, hmakes.append hmore, List.foldl_append⟩

theorem ite {c : Prop} [Decidable c] {bytes rest : List UInt8} {s t u : Screen}
    (h : c → Shows bytes s t) (k : ¬ c → Shows rest s u) :
    Shows (if c then bytes else rest) s (if c then t else u) := by
  split
  case isTrue hc => exact h hc
  case isFalse hc => exact k hc

theorem feed {bytes : List UInt8} {e : VtEngine} {t : Screen} (h : Shows bytes e.screen t)
    (he : e.parser = .new) : e.feed bytes = { parser := .new, screen := t } := by
  obtain ⟨acts, hmakes, rfl⟩ := h
  unfold VtEngine.feed
  rw [he, hmakes]

-- ---------------------------------------------------------------------------
-- SGR
-- ---------------------------------------------------------------------------

theorem sgrReset (s : Screen) : Shows sgrReset s (s.withPen .reset) := by
  refine ⟨_, .sgrReset, ?_⟩
  simp [Screen.act, Screen.csi, Screen.csiDispatch, Screen.applySgr, Screen.sgrLoop, Screen.sgrOne,
    Screen.withPen, Pen.reset]

end Shows

-- ---------------------------------------------------------------------------
-- Colours and attributes
-- ---------------------------------------------------------------------------

namespace Screen

theorem applySgr_one (s : Screen) {n : UInt16} (h38 : n ≠ 38) (h48 : n ≠ 48) :
    s.applySgr [n] = s.sgrOne n := by
  simp [applySgr, sgrLoop, h38, h48]

theorem applySgr_basic (s : Screen) (fg : Bool) : ∀ k < 8,
    s.applySgr [(if fg then 30 else 40) + UInt16.ofNat k] = s.setPen fg (.indexed (UInt8.ofNat k))
  | 0, _ | 1, _ | 2, _ | 3, _ | 4, _ | 5, _ | 6, _ | 7, _ => by
    cases fg
    all_goals
      rw [applySgr_one s (by decide) (by decide)]
      rfl
  | _ + 8, h => absurd h (by omega)

theorem applySgr_bright (s : Screen) (fg : Bool) : ∀ k < 8,
    s.applySgr [(if fg then 90 else 100) + UInt16.ofNat k] =
      s.setPen fg (.indexed (UInt8.ofNat (k + 8)))
  | 0, _ | 1, _ | 2, _ | 3, _ | 4, _ | 5, _ | 6, _ | 7, _ => by
    cases fg
    all_goals
      rw [applySgr_one s (by decide) (by decide)]
      rfl
  | _ + 8, h => absurd h (by omega)

theorem byte_toUInt16 (n : UInt8) : (min n.toUInt16 255).toUInt8 = n := by
  have hn := n.toNat_lt
  have hmax : (255 : UInt16).toNat = 255 := rfl
  apply UInt8.toNat_inj.mp
  rw [UInt16.toNat_toUInt8, toNat_min16, UInt8.toNat_toUInt16]
  omega

theorem applySgr_indexed (s : Screen) (fg : Bool) (n : UInt8) :
    s.applySgr [if fg then 38 else 48, 5, n.toUInt16] = s.setPen fg (.indexed n) := by
  cases fg <;> simp [applySgr, sgrLoop, paintIndexed, byte_toUInt16]

theorem applySgr_rgb (s : Screen) (fg : Bool) (r g b : UInt8) :
    s.applySgr [if fg then 38 else 48, 2, r.toUInt16, g.toUInt16, b.toUInt16] =
      s.setPen fg (.rgb r g b) := by
  cases fg <;> simp [applySgr, sgrLoop, clampByte, byte_toUInt16]

/-- Every colour but the default one is set by what is emitted for it. -/
theorem foldl_colorActs (s : Screen) (fg : Bool) {color : Color} (h : color ≠ .default) :
    (Makes.colorActs fg color).foldl act s = s.setPen fg color := by
  cases color with
  | default => exact absurd rfl h
  | rgb r g b => exact applySgr_rgb s fg r g b
  | indexed n =>
    have hn : UInt8.ofNat n.toNat = n := UInt8.ofNat_toNat
    have hword : UInt16.ofNat n.toNat = n.toUInt16 := by simp
    dsimp only [Makes.colorActs]
    split
    case isTrue h8 =>
      have hbasic := applySgr_basic s fg n.toNat (UInt8.lt_iff_toNat_lt.mp h8)
      rwa [hn, hword] at hbasic
    case isFalse h8 =>
      have h8 : 8 ≤ n.toNat := Nat.le_of_not_lt fun k => h8 (UInt8.lt_iff_toNat_lt.mpr k)
      split
      case isTrue h16 =>
        have h16 : n.toNat < 16 := UInt8.lt_iff_toNat_lt.mp h16
        have hsub : UInt16.ofNat (n.toNat - 8) = n.toUInt16 - 8 := by
          rw [UInt16.ofNat_sub h8, hword]
          rfl
        have hbright := applySgr_bright s fg (n.toNat - 8) (by omega)
        rwa [Nat.sub_add_cancel h8, hn, hsub] at hbright
      case isFalse => exact applySgr_indexed s fg n

/-- From the reset pen a default colour needs nothing. -/
theorem foldl_colorActs_of_default (s : Screen) (fg : Bool) (color : Color)
    (h : (if fg then s.penFg else s.penBg) = .default) :
    (Makes.colorActs fg color).foldl act s = s.setPen fg color := by
  by_cases hcolor : color = .default
  · subst hcolor
    cases fg
    all_goals
      simp only [Bool.false_eq_true, if_false, if_true] at h
      simp only [Makes.colorActs, List.foldl_nil, setPen, Bool.false_eq_true, if_false, if_true, ← h]
  · exact foldl_colorActs s fg hcolor

/-- The three bits of a word, taken one by one. -/
theorem sgr_bits (attrs : UInt16) :
    (if attrs &&& 1 ≠ 0 then 1 else 0) ||| (if attrs &&& 2 ≠ 0 then 2 else 0) |||
      (if attrs &&& 4 ≠ 0 then 4 else 0) = attrs &&& sgrMask := by
  have hbit : ∀ k : UInt16, sgrMask &&& k = k → attrs &&& k = (attrs &&& sgrMask) &&& k := fun k hk => by
    rw [UInt16.and_assoc, hk]
  have hlt : (attrs &&& sgrMask).toNat < 8 := by
    rw [UInt16.toNat_and]
    exact Nat.lt_of_le_of_lt Nat.and_le_right (by decide)
  have hcases : ∀ n < 8, ∀ a : UInt16, a = UInt16.ofNat n →
      (if a &&& 1 ≠ 0 then 1 else 0) ||| (if a &&& 2 ≠ 0 then 2 else 0) |||
        (if a &&& 4 ≠ 0 then 4 else 0) = a := by
    rintro n hn a rfl
    revert n
    decide
  rw [hbit 1 rfl, hbit 2 rfl, hbit 4 rfl]
  exact hcases _ hlt _ UInt16.ofNat_toNat.symm

theorem foldl_attrActs (s : Screen) (attrs : UInt16) (h : s.penAttrs = 0) :
    (Makes.attrActs attrs).foldl act s = { s with penAttrs := attrs &&& sgrMask } := by
  have hor : ∀ (c : Prop) [Decidable c] (t : Screen) (n bit : UInt16),
      (∀ t : Screen, t.applySgr [n] = { t with penAttrs := t.penAttrs ||| bit }) →
      (if c then [Action.csi [n] [] false 'm'] else []).foldl act t =
        { t with penAttrs := t.penAttrs ||| if c then bit else 0 } := by
    intro c _ t n bit hset
    split
    · exact hset t
    · simp
  have hbold := fun t : Screen => applySgr_one t (n := 1) (by decide) (by decide)
  have hunderline := fun t : Screen => applySgr_one t (n := 4) (by decide) (by decide)
  have hinverse := fun t : Screen => applySgr_one t (n := 7) (by decide) (by decide)
  unfold Makes.attrActs
  rw [List.foldl_append, List.foldl_append, hor _ _ 1 1 hbold, hor _ _ 4 2 hunderline,
    hor _ _ 7 4 hinverse, ← sgr_bits attrs]
  simp only [h, UInt16.zero_or]

end Screen

-- ---------------------------------------------------------------------------
-- Cells
-- ---------------------------------------------------------------------------

namespace Shows

theorem pen (s : Screen) (cell : Cell) :
    Shows (Vt.sgrReset ++ emitAttrs cell.attrs ++ emitColor true cell.fg ++ emitColor false cell.bg) s
      (s.withPen cell.pen) := by
  have hattrs : Shows (emitAttrs cell.attrs) (s.withPen .reset)
      (s.withPen ⟨.default, .default, cell.attrs &&& sgrMask⟩) :=
    ⟨_, .emitAttrs cell.attrs, foldl_attrActs _ _ rfl⟩
  have hfg : Shows (emitColor true cell.fg) (s.withPen ⟨.default, .default, cell.attrs &&& sgrMask⟩)
      (s.withPen ⟨cell.fg, .default, cell.attrs &&& sgrMask⟩) :=
    ⟨_, .emitColor true cell.fg, foldl_colorActs_of_default _ _ _ rfl⟩
  have hbg : Shows (emitColor false cell.bg) (s.withPen ⟨cell.fg, .default, cell.attrs &&& sgrMask⟩)
      (s.withPen cell.pen) :=
    ⟨_, .emitColor false cell.bg, foldl_colorActs_of_default _ _ _ rfl⟩
  exact (((sgrReset s).append hattrs).append hfg).append hbg

end Shows

def Cell.char (c : Cell) : Char := Char.ofNat c.codepoint.toNat

namespace Screen

/-- The cell's pen is taken up and its scalar printed; the second half of a wide
glyph prints nothing. -/
def typeCell (s : Screen) (cell : Cell) : Screen :=
  if cell.isTail then s.withPen cell.pen else (s.withPen cell.pen).print cell.char

def typeCells (s : Screen) (cells : List Cell) : Screen := cells.foldl typeCell s

theorem pen_print (s : Screen) (c : Char) : (s.print c).pen = s.pen :=
  (Draws.writeChar (Draws.refl s) c).congr Screen.pen fun _ _ => rfl

@[simp] theorem pen_typeCell (s : Screen) (cell : Cell) : (s.typeCell cell).pen = cell.pen := by
  unfold typeCell
  split
  · rfl
  · exact pen_print _ _

end Screen

namespace Shows

theorem glyph (s : Screen) {cell : Cell} (h : Printable cell.codepoint) :
    Shows (if cell.attrs &&& attrWideTail ≠ 0 then [] else pushCodepoint cell.codepoint)
      (s.withPen cell.pen) (s.typeCell cell) := by
  unfold Screen.typeCell
  rw [Cell.isTail]
  simp only [decide_eq_true_eq]
  exact ite (fun _ => nil _) fun _ => ⟨_, .codepoint h, rfl⟩

theorem cell {s : Screen} {cell : Cell} {p : Pen} (hp : s.pen = p) (h : Printable cell.codepoint) :
    Shows (emitCell p cell).1 s (s.typeCell cell) ∧ (emitCell p cell).2 = cell.pen := by
  have hglyph := glyph s h
  dsimp only [emitCell]
  split
  case isTrue => exact ⟨(pen s cell).append hglyph, rfl⟩
  case isFalse hsame =>
    have hsame : cell.pen = p := Decidable.not_not.mp hsame
    rw [hsame, ← hp] at hglyph
    exact ⟨hglyph, hsame.symm⟩

theorem cells {s : Screen} {cells : List Cell} {p : Pen} (hp : s.pen = p)
    (h : ∀ c ∈ cells, Printable c.codepoint) :
    Shows (emitCells p cells).1 s (s.typeCells cells) ∧
      (emitCells p cells).2 = (s.typeCells cells).pen := by
  induction cells generalizing s p with
  | nil => exact ⟨nil s, hp.symm⟩
  | cons c cells ih =>
    obtain ⟨hcell, hpen⟩ := cell hp (h c List.mem_cons_self)
    obtain ⟨hrest, hlast⟩ := ih (s := s.typeCell c) (p := (emitCell p c).2)
      ((pen_typeCell s c).trans hpen.symm) fun d hd => h d (List.mem_cons_of_mem c hd)
    exact ⟨hcell.append hrest, hlast⟩

end Shows

-- ---------------------------------------------------------------------------
-- Rows
-- ---------------------------------------------------------------------------

namespace Screen

def nextRow (s : Screen) : Screen := ((s.execute 0x0d).execute 0x0a).withPen .reset

/-- The rows of `e`, typed on `s`. -/
def typeRows (e s : Screen) : List Nat → Screen
  | [] => s
  | r :: rows =>
    let s := s.typeCells (e.inkOfRow r)
    if r + 1 < e.rows.toNat then e.typeRows s.nextRow rows else e.typeRows s rows

/-- The picture of `e`, typed on `s`. -/
def typeScreen (e s : Screen) : Screen :=
  let s := if e.inAlt then s.privateMode [1049] true else s
  let s := e.typeRows (s.withPen .reset) (List.range e.rows.toNat)
  let s := s.csiDispatch [satAdd16 e.cursorRow 1, satAdd16 e.cursorCol 1] 'H'
  if e.cursorVisible then s else s.privateMode [25] false

/-- What a resync does to the screen it is read on. -/
def resyncOn (e s : Screen) : Screen :=
  e.typeScreen ((s.csiDispatch [2] 'J').csiDispatch [] 'H')

theorem mem_inkOfRow {s : Screen} {r : Nat} {c : Cell} (h : c ∈ s.inkOfRow r) : c ∈ s.cells := by
  have h := (List.dropWhile_sublist _).subset (List.mem_reverse.mp h)
  exact List.mem_of_mem_drop (List.mem_of_mem_take (List.mem_reverse.mp h))

end Screen

namespace Shows

theorem rows {e s : Screen} {p : Pen} (hp : s.pen = p) (h : ∀ c ∈ e.cells, Printable c.codepoint)
    (rows : List Nat) : Shows (e.repaintRows p rows) s (e.typeRows s rows) := by
  induction rows generalizing s p with
  | nil => exact nil s
  | cons r rows ih =>
    have hink : ∀ c ∈ e.inkOfRow r, Printable c.codepoint := fun c hc => h c (mem_inkOfRow hc)
    obtain ⟨hcells, hpen⟩ := cells hp hink
    dsimp only [repaintRows, typeRows]
    refine ite (fun _ => ?_) fun _ => hcells.append (ih hpen.symm)
    have hcrlf : Shows [0x0d, 0x0a] (s.typeCells (e.inkOfRow r))
        (((s.typeCells (e.inkOfRow r)).execute 0x0d).execute 0x0a) :=
      ⟨[.execute 0x0d, .execute 0x0a], rfl, rfl⟩
    exact ((hcells.append hcrlf).append (sgrReset _)).append (ih rfl)

theorem screen {e : Screen} (h : ∀ c ∈ e.cells, Printable c.codepoint) (s : Screen) :
    Shows e.repaintBytes s (e.typeScreen s) := by
  have halt : Shows [0x1b, 0x5b, 0x3f, 0x31, 0x30, 0x34, 0x39, 0x68] s (s.privateMode [1049] true) :=
    ⟨[.csi [1049] [0x3f] false 'h'], rfl, rfl⟩
  have hhide : ∀ t : Screen, Shows [0x1b, 0x5b, 0x3f, 0x32, 0x35, 0x6c] t (t.privateMode [25] false) :=
    fun t => ⟨[.csi [25] [0x3f] false 'l'], rfl, rfl⟩
  have hrows := fun t : Screen => (sgrReset t).append
    (rows (s := t.withPen .reset) (p := .reset) rfl h (List.range e.rows.toNat))
  have hcup : ∀ t : Screen, Shows
      ([0x1b, 0x5b] ++ writeU16 (satAdd16 e.cursorRow 1) ++ [0x3b] ++
        writeU16 (satAdd16 e.cursorCol 1) ++ [0x48]) t
      (t.csiDispatch [satAdd16 e.cursorRow 1, satAdd16 e.cursorCol 1] 'H') :=
    fun t => ⟨_, .cup _ _, rfl⟩
  have hstart := ite (c := e.inAlt) (fun _ => halt) fun _ => nil s
  have h := ((hstart.append (hrows _)).append (hcup _)).append
    (ite (c := e.cursorVisible) (fun _ => nil _) fun _ => hhide _)
  simpa only [repaintBytes, typeScreen, List.append_assoc] using h

theorem resync {e : Screen} (h : ∀ c ∈ e.cells, Printable c.codepoint) (s : Screen) :
    Shows ([0x1b, 0x5b, 0x32, 0x4a, 0x1b, 0x5b, 0x48] ++ e.repaintBytes) s (e.resyncOn s) :=
  append ⟨[.csi [2] [] false 'J', .csi [] [] false 'H'], rfl, rfl⟩ (screen h _)

end Shows

-- ---------------------------------------------------------------------------
-- Resync
-- ---------------------------------------------------------------------------

namespace VtEngine

variable {cols rows : UInt16} {e r r' : VtEngine} {history bytes : List UInt8}

theorem repaintRows_setHost (s : Screen) (k : Host) (p : Pen) (rows : List Nat) :
    (s.setHost k).repaintRows p rows = s.repaintRows p rows := by
  induction rows generalizing p with
  | nil => rfl
  | cons r rows ih =>
    dsimp only [repaintRows]
    rw [ih, ih]
    rfl

theorem repaintBytes_agree {s t : Screen} (h : Screen.Agree s t) : t.repaintBytes = s.repaintBytes :=
  h.congr Screen.repaintBytes fun s k => by
    unfold Screen.repaintBytes
    rw [repaintRows_setHost]
    rfl

/-- A resync writes the screen that the history makes of a new engine of that size. -/
theorem resync_bytes (hnew : VtEngine.new cols rows = .ok e)
    (hsize : r.screen.cols = cols ∧ r.screen.rows = rows)
    (hres : r.resyncFromHistory history = .ok (bytes, r')) :
    bytes = [0x1b, 0x5b, 0x32, 0x4a, 0x1b, 0x5b, 0x48] ++ (e.feed history).screen.repaintBytes := by
  have hreset : r.reset = .ok e := by rw [VtEngine.reset, hsize.1, hsize.2, hnew]
  rw [VtEngine.resyncFromHistory, hreset] at hres
  obtain ⟨rfl, -⟩ := Prod.mk.inj (Except.ok.inj hres)
  refine congrArg ([0x1b, 0x5b, 0x32, 0x4a, 0x1b, 0x5b, 0x48] ++ ·) ?_
  have hagree : Screen.Agree e.screen (e.screen.setDiscardReplies true) := rfl
  split
  case isTrue hempty =>
    have hnone : (e.feed history).screen = e.screen := by
      rw [List.isEmpty_iff.mp hempty, VtEngine.feed, parser_new hnew]
      rfl
    rw [hnone]
    exact repaintBytes_agree (hagree.trans rfl)
  case isFalse =>
    have hfed := hagree.acts (e.parser.feed history).2
    exact repaintBytes_agree (hfed.trans rfl)

theorem feed_resync (hnew : VtEngine.new cols rows = .ok e)
    (hsize : r.screen.cols = cols ∧ r.screen.rows = rows)
    (hres : r.resyncFromHistory history = .ok (bytes, r')) :
    e.feed bytes = { parser := .new, screen := (e.feed history).screen.resyncOn e.screen } := by
  have hstored := VtEngine.stored_feed (stored_new (new_ok hnew)) history
  rw [resync_bytes hnew hsize hres]
  exact (Shows.resync (fun c hc => (hstored.cells c hc).printable) e.screen).feed (parser_new hnew)

end VtEngine

end Rill.Vt
