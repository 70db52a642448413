import Rill.Vt.Readback

/-!
# Lines

What typing the cells of a row from its first column makes of them, as long as
the row does not overflow: a list of cells and the cluster that the next scalar
may join. A row comes out as it went in just when it `Replays`.
-/

namespace Rill.Vt

/-- The left half of the glyph of `c`, and its right half. -/
def Cell.leadHalf (c : Cell) : Cell := { c with attrs := (c.attrs &&& sgrMask) ||| attrWideLead }

def Cell.tailHalf (c : Cell) : Cell := { c with attrs := (c.attrs &&& sgrMask) ||| attrWideTail }

def Pen.cell (p : Pen) (c : Char) : Cell := ⟨c.val, p.fg, p.bg, p.attrs &&& sgrMask⟩

def Pen.glyph (p : Pen) (c : Char) : List Cell :=
  if isWide c.val then [(p.cell c).leadHalf, (p.cell c).tailHalf] else [p.cell c]

/-- Whether `c`, printed right after `prev`, joins its cluster. -/
def joinsAfter (prev c : Char) : Bool :=
  isClusterContinuer c || prev = zeroWidthJoiner || (isRegionalIndicator prev && isRegionalIndicator c)

/-- The row typed so far, with the last scalar of the open cluster and whether
its glyph takes two columns. -/
structure Line where
  cells : List Cell
  cluster : Option (Char × Bool)

/-- The last glyph takes the column after it as well. -/
def widenLast (cells : List Cell) : List Cell :=
  match cells.getLast? with
  | none => []
  | some c => cells.dropLast ++ [c.leadHalf, c.tailHalf]

namespace Line

def empty : Line := ⟨[], none⟩

def place (l : Line) (p : Pen) (c : Char) : Line where
  cells := l.cells ++ p.glyph c
  cluster := some (c, isWide c.val)

/-- A regional indicator that joins makes its glyph a wide one. -/
def join (l : Line) (wide : Bool) (c : Char) : Line :=
  if isRegionalIndicator c && !wide then ⟨widenLast l.cells, some (c, true)⟩
  else ⟨l.cells, some (c, wide)⟩

def type (l : Line) (p : Pen) (c : Char) : Line :=
  match l.cluster with
  | none => l.place p c
  | some (prev, wide) => if joinsAfter prev c then l.join wide c else l.place p c

def typeCell (l : Line) (cell : Cell) : Line :=
  if cell.isTail then l else l.type cell.pen cell.char

def typeCells (l : Line) (cells : List Cell) : Line := cells.foldl typeCell l

end Line

/-- Nothing printed before in the row is joined. -/
def Starts (prev : Option Char) (c : Char) : Prop := ∀ p, prev = some p → joinsAfter p c = false

/-- Cells that come out of typing as they are: narrow ones, and the pairs of wide
scalars, none of which joins the glyph before it. -/
inductive Replays : Option Char → List Cell → Prop
  | nil : Replays prev []
  | narrow : Starts prev cell.char → cell.isLead = false → cell.isTail = false →
      Replays (some cell.char) cells → Replays prev (cell :: cells)
  | wide : Starts prev lead.char → lead.isLead = true → isWide lead.codepoint = true →
      Replays (some lead.char) cells → Replays prev (lead :: lead.tailHalf :: cells)

theorem Replays.starts {prev : Option Char} {cell : Cell} {cells : List Cell}
    (h : Replays prev (cell :: cells)) : Starts prev cell.char := by
  cases h with
  | narrow h => exact h
  | wide h => exact h

/-- Cells in which no half of a wide glyph is alone. -/
inductive Units : List Cell → Prop
  | nil : Units []
  | narrow {cell : Cell} {cells : List Cell} : cell.isLead = false → cell.isTail = false →
      Units cells → Units (cell :: cells)
  | wide {lead tail : Cell} {cells : List Cell} : lead.isLead = true → lead.isTail = false →
      tail.isTail = true → Units cells → Units (lead :: tail :: cells)

-- ---------------------------------------------------------------------------
-- Cells
-- ---------------------------------------------------------------------------

theorem Cell.bits {c : Cell} {a bit : UInt16} (h : c.attrs = (a &&& sgrMask) ||| bit) :
    c.isLead = decide (bit &&& attrWideLead ≠ 0) ∧ c.isTail = decide (bit &&& attrWideTail ≠ 0) := by
  rw [Cell.isLead, Cell.isTail, h, sgr_or_and a bit attrWideLead (by decide),
    sgr_or_and a bit attrWideTail (by decide)]
  exact ⟨rfl, rfl⟩

theorem Cell.isLead_leadHalf (c : Cell) : c.leadHalf.isLead = true := by
  have h : c.leadHalf.attrs = (c.attrs &&& sgrMask) ||| attrWideLead := rfl
  exact (Cell.bits h).1

theorem Pen.glyph_ne_nil (p : Pen) (c : Char) : p.glyph c ≠ [] := by
  unfold Pen.glyph
  split <;> exact List.cons_ne_nil _ _

theorem Pen.isLead_cell (p : Pen) (c : Char) : (p.cell c).isLead = false := by
  have h : (p.cell c).attrs = (p.attrs &&& sgrMask) ||| 0 := UInt16.or_zero.symm
  exact (Cell.bits h).1

namespace Written

variable {c : Cell}

theorem char_val (h : Written c) : c.char.val = c.codepoint := by
  have hchar : c.char = ⟨c.codepoint, h.printable.1⟩ := Char.ofNat_toNat ⟨c.codepoint, h.printable.1⟩
  rw [hchar]

theorem narrow (h : Written c) (hlead : c.isLead = false) (htail : c.isTail = false) :
    c = c.pen.cell c.char ∧ isWide c.char.val = false := by
  obtain ⟨hattrs, hnarrow⟩ | hattrs | hattrs := h.attrs
  · refine ⟨?_, by rw [h.char_val, hnarrow]⟩
    unfold Pen.cell Cell.pen
    rw [h.char_val, sgr_and_sgr, ← hattrs]
  · rw [(Cell.bits hattrs).1] at hlead
    exact absurd hlead (by decide)
  · rw [(Cell.bits hattrs).2] at htail
    exact absurd htail (by decide)

theorem lead (h : Written c) (hlead : c.isLead = true) : c = (c.pen.cell c.char).leadHalf := by
  unfold Cell.leadHalf Pen.cell Cell.pen
  dsimp only
  rw [h.char_val, sgr_and_sgr, sgr_and_sgr]
  obtain ⟨hattrs, -⟩ | hattrs | hattrs := h.attrs
  · have hzero : c.attrs = (c.attrs &&& sgrMask) ||| 0 := hattrs.trans UInt16.or_zero.symm
    rw [(Cell.bits hzero).1] at hlead
    exact absurd hlead (by decide)
  · rw [← hattrs]
  · rw [(Cell.bits hattrs).1] at hlead
    exact absurd hlead (by decide)

theorem tailHalf_eq (h : Written c) : (c.pen.cell c.char).tailHalf = c.tailHalf := by
  unfold Cell.tailHalf Pen.cell Cell.pen
  dsimp only
  rw [h.char_val, sgr_and_sgr, sgr_and_sgr]

end Written

-- ---------------------------------------------------------------------------
-- Typing
-- ---------------------------------------------------------------------------

namespace Line

variable {l : Line}

/-- The glyph of a narrow cluster is the last cell, and no half. -/
def Tidy (l : Line) : Prop :=
  ∀ prev, l.cluster = some (prev, false) → ∃ c, l.cells.getLast? = some c ∧ c.isLead = false

theorem tidy_place (l : Line) (p : Pen) (c : Char) : (l.place p c).Tidy := by
  intro prev h
  have hwide : isWide c.val = false := (Prod.mk.inj (Option.some.inj h)).2
  refine ⟨p.cell c, ?_, Pen.isLead_cell p c⟩
  simp [place, Pen.glyph, hwide]

theorem length_widenLast {cells : List Cell} (h : cells ≠ []) :
    (widenLast cells).length = cells.length + 1 := by
  unfold widenLast
  rw [List.getLast?_eq_some_getLast h]
  have hpos := List.length_pos_iff.mpr h
  simp only [List.length_append, List.length_dropLast, List.length_cons, List.length_nil]
  omega

/-- A scalar that joins takes one column at most, and that only by widening. -/
theorem length_join (l : Line) (hl : l.Tidy) {prev : Char} {wide : Bool}
    (hcluster : l.cluster = some (prev, wide)) (c : Char) :
    (l.join wide c).cells = l.cells ∨
      wide = false ∧ l.join wide c = ⟨widenLast l.cells, some (c, true)⟩ ∧
        (l.join wide c).cells.length = l.cells.length + 1 := by
  unfold join
  split
  case isTrue h =>
    have hwide : wide = false := by
      cases wide with
      | false => rfl
      | true => simp at h
    subst hwide
    obtain ⟨last, hlast, -⟩ := hl prev hcluster
    have hne : l.cells ≠ [] := fun k => by simp [k] at hlast
    exact .inr ⟨rfl, rfl, length_widenLast hne⟩
  case isFalse => exact .inl rfl

/-- What is typed does not reach back past the last glyph, and not to it when it
takes two columns. -/
theorem typeCells_prefix {base m : List Cell} (ink : List Cell) {l : Line}
    (hcells : l.cells = base ++ m) (hm : ∀ prev, l.cluster = some (prev, false) → m ≠ []) :
    ∃ more, (l.typeCells ink).cells = base ++ more := by
  induction ink generalizing l m with
  | nil => exact ⟨m, hcells⟩
  | cons cell ink ih =>
    have hplace : ∃ m', (l.place cell.pen cell.char).cells = base ++ m' ∧ m' ≠ [] := by
      refine ⟨m ++ cell.pen.glyph cell.char, ?_, ?_⟩
      · rw [place, hcells, List.append_assoc]
      · exact List.append_ne_nil_of_right_ne_nil m (Pen.glyph_ne_nil _ _)
    have hjoin : ∀ prev wide, l.cluster = some (prev, wide) →
        ∃ m', (l.join wide cell.char).cells = base ++ m' ∧
          ∀ q, (l.join wide cell.char).cluster = some (q, false) → m' ≠ [] := by
      intro prev wide hcluster
      unfold join
      split
      case isTrue h =>
        have hne : m ≠ [] := hm prev (by cases wide with
          | false => exact hcluster
          | true => simp at h)
        refine ⟨widenLast m, ?_, fun q hq => absurd (Prod.mk.inj (Option.some.inj hq)).2 nofun⟩
        dsimp only
        rw [hcells, widenLast, widenLast, List.getLast?_append, List.getLast?_eq_some_getLast hne,
          Option.some_or, List.dropLast_append_of_ne_nil hne]
        dsimp only
        rw [List.append_assoc]
      case isFalse =>
        refine ⟨m, hcells, fun q hq => hm prev ?_⟩
        rw [hcluster, (Prod.mk.inj (Option.some.inj hq)).2]
    unfold typeCells at ih ⊢
    rw [List.foldl_cons]
    unfold typeCell
    split
    case isTrue => exact ih hcells hm
    case isFalse =>
      obtain ⟨m', hplaced, hne⟩ := hplace
      unfold type
      split
      case h_1 => exact ih hplaced fun _ _ => hne
      case h_2 prev wide hcluster =>
        split
        case isTrue =>
          obtain ⟨m'', hjoined, hnarrow⟩ := hjoin prev wide hcluster
          exact ih hjoined hnarrow
        case isFalse => exact ih hplaced fun _ _ => hne

theorem tidy_join (l : Line) (wide : Bool) (c : Char) (hl : l.Tidy) {prev : Char}
    (hcluster : l.cluster = some (prev, wide)) : (l.join wide c).Tidy := by
  unfold join
  split
  case isTrue => exact fun q hq => absurd (Prod.mk.inj (Option.some.inj hq)).2 nofun
  case isFalse =>
    intro q hq
    have hwide : wide = false := (Prod.mk.inj (Option.some.inj hq)).2
    exact hl prev (by rw [hcluster, hwide])

theorem tidy_typeCell {l : Line} (hl : l.Tidy) (cell : Cell) : (l.typeCell cell).Tidy := by
  unfold typeCell type
  split
  case isTrue => exact hl
  case isFalse =>
    split
    case h_1 => exact tidy_place l _ _
    case h_2 prev wide hcluster =>
      split
      case isTrue => exact tidy_join l wide _ hl hcluster
      case isFalse => exact tidy_place l _ _

theorem tidy_empty : empty.Tidy := nofun

/-- What the glyph before it lets a scalar do: it is placed, or it joins. -/
theorem type_cases (l : Line) (p : Pen) (c : Char) :
    (Starts (l.cluster.map Prod.fst) c ∧ l.type p c = l.place p c) ∨
      ∃ prev wide, l.cluster = some (prev, wide) ∧ joinsAfter prev c = true ∧
        l.type p c = l.join wide c := by
  unfold type
  cases hcluster : l.cluster with
  | none => exact .inl ⟨nofun, rfl⟩
  | some cl =>
    obtain ⟨prev, wide⟩ := cl
    dsimp only
    cases hjoins : joinsAfter prev c with
    | false =>
      refine .inl ⟨?_, rfl⟩
      rintro _ ⟨⟩
      exact hjoins
    | true => exact .inr ⟨prev, wide, rfl, hjoins, rfl⟩

theorem typeCells_cons {cell : Cell} (h : cell.isTail = false) (l : Line) (ink : List Cell) :
    l.typeCells (cell :: ink) = (l.type cell.pen cell.char).typeCells ink := by
  unfold typeCells
  rw [List.foldl_cons, typeCell, if_neg (by simp [h])]

theorem typeCells_wide {lead tail : Cell} (hlead : lead.isTail = false) (htail : tail.isTail = true)
    (l : Line) (ink : List Cell) :
    l.typeCells (lead :: tail :: ink) = (l.type lead.pen lead.char).typeCells ink := by
  rw [typeCells_cons hlead]
  unfold typeCells
  rw [List.foldl_cons, typeCell, if_pos htail]

theorem le_ite {c : Prop} [Decidable c] {n : Nat} {a b : Line} (ha : n ≤ a.cells.length)
    (hb : n ≤ b.cells.length) : n ≤ (if c then a else b).cells.length := by
  split
  · exact ha
  · exact hb

theorem length_le_typeCell (l : Line) (cell : Cell) :
    l.cells.length ≤ (l.typeCell cell).cells.length := by
  have hplace : l.cells.length ≤ (l.place cell.pen cell.char).cells.length := by
    rw [place, List.length_append]
    exact Nat.le_add_right _ _
  unfold typeCell type
  split
  case isTrue => exact Nat.le_refl _
  case isFalse =>
    split
    case h_1 => exact hplace
    case h_2 prev wide hcluster =>
      refine le_ite ?_ hplace
      unfold join
      refine le_ite ?_ (Nat.le_refl _)
      by_cases hne : l.cells = []
      · rw [hne]
        exact Nat.zero_le _
      · rw [length_widenLast hne]
        exact Nat.le_succ _

theorem length_le_typeCells (l : Line) (ink : List Cell) :
    l.cells.length ≤ (l.typeCells ink).cells.length := by
  unfold typeCells
  induction ink generalizing l with
  | nil => exact Nat.le_refl _
  | cons cell ink ih => exact Nat.le_trans (l.length_le_typeCell cell) (ih _)

theorem length_join_le (l : Line) (hl : l.Tidy) {prev : Char} {wide : Bool}
    (hcluster : l.cluster = some (prev, wide)) (c : Char) :
    (l.join wide c).cells.length ≤ l.cells.length + 1 := by
  obtain hsame | ⟨-, -, hlen⟩ := length_join l hl hcluster c
  · rw [hsame]
    omega
  · omega

/-- A scalar that joins leaves the line short of its cell, or the glyph before it
widened for good. -/
theorem join_ne {l : Line} (hl : l.Tidy) {prev : Char} {wide : Bool}
    (hcluster : l.cluster = some (prev, wide)) (c : Char) {ink rest : List Cell}
    (hlen : ((l.join wide c).typeCells ink).cells.length ≤ (l.join wide c).cells.length + ink.length)
    (hink : ink.length < rest.length) :
    ((l.join wide c).typeCells ink).cells ≠ l.cells ++ rest := by
  intro heq
  obtain hsame | ⟨rfl, hwiden, -⟩ := length_join l hl hcluster c
  · rw [hsame, heq, List.length_append] at hlen
    omega
  · obtain ⟨last, hlast, hnarrow⟩ := hl prev hcluster
    have hne : l.cells ≠ [] := fun k => by simp [k] at hlast
    have hlast : l.cells.getLast hne = last := by
      rwa [List.getLast?_eq_some_getLast hne, Option.some_inj] at hlast
    obtain ⟨more, hmore⟩ := typeCells_prefix ink (List.append_nil (widenLast l.cells)).symm
      (l := ⟨widenLast l.cells, some (c, true)⟩)
      fun q hq => absurd (Prod.mk.inj (Option.some.inj hq)).2 nofun
    rw [hwiden, hmore, widenLast, List.getLast?_eq_some_getLast hne, hlast] at heq
    have hsplit := List.dropLast_concat_getLast hne
    rw [hlast] at hsplit
    rw [← hsplit, List.dropLast_concat] at heq
    simp only [List.append_assoc, List.cons_append, List.nil_append, List.append_cancel_left_eq,
      List.cons.injEq] at heq
    rw [← heq.1, Cell.isLead_leadHalf] at hnarrow
    exact absurd hnarrow (by decide)

/-- Typing never runs ahead of the cells it is given, and keeps them just when they
replay. -/
theorem typeCells_iff {ink : List Cell} (hu : Units ink) (hw : ∀ c ∈ ink, Written c) {l : Line}
    (hl : l.Tidy) :
    (l.typeCells ink).cells.length ≤ l.cells.length + ink.length ∧
      ((l.typeCells ink).cells = l.cells ++ ink ↔ Replays (l.cluster.map Prod.fst) ink) := by
  induction hu generalizing l with
  | nil => exact ⟨Nat.le_refl _, fun _ => .nil, fun _ => (List.append_nil _).symm⟩
  | @narrow cell cells hlead htail hu ih =>
    have hrest : ∀ c ∈ cells, Written c := fun c hc => hw c (List.mem_cons_of_mem cell hc)
    obtain ⟨hcell, hnarrow⟩ := (hw cell List.mem_cons_self).narrow hlead htail
    rw [typeCells_cons htail]
    obtain ⟨hstarts, htype⟩ | ⟨prev, wide, hcluster, hjoins, htype⟩ := type_cases l cell.pen cell.char
    · obtain ⟨hlen, hiff⟩ := ih hrest (tidy_place l cell.pen cell.char)
      have hplaced : (l.place cell.pen cell.char).cells = l.cells ++ [cell] := by
        rw [place, Pen.glyph, hnarrow, ← hcell]
        rfl
      rw [hplaced, List.append_assoc] at hiff
      rw [hplaced, List.length_append] at hlen
      rw [htype]
      refine ⟨by simpa [Nat.add_assoc, Nat.add_comm 1] using hlen, hiff.trans ⟨fun h => ?_, fun h => ?_⟩⟩
      · exact .narrow hstarts hlead htail h
      · cases h with
        | narrow _ _ _ h => exact h
        | wide _ hl => simp [hlead] at hl
    · have htidy := tidy_join l wide cell.char hl hcluster
      obtain ⟨hlen, -⟩ := ih hrest htidy
      have hone := length_join_le l hl hcluster cell.char
      rw [htype]
      refine ⟨?_, fun heq => ?_, fun h => ?_⟩
      · rw [List.length_cons]
        omega
      · exact absurd heq (join_ne hl hcluster cell.char hlen (Nat.lt_succ_self _))
      · exact absurd (h.starts prev (by rw [hcluster]; rfl)) (by simp [hjoins])
  | @wide lead tail cells hlead hnot htail hu ih =>
    have hrest : ∀ c ∈ cells, Written c := fun c hc =>
      hw c (List.mem_cons_of_mem lead (List.mem_cons_of_mem tail hc))
    have hwritten := hw lead List.mem_cons_self
    have hcell := hwritten.lead hlead
    rw [typeCells_wide hnot htail]
    obtain ⟨hstarts, htype⟩ | ⟨prev, wide, hcluster, hjoins, htype⟩ := type_cases l lead.pen lead.char
    · obtain ⟨hlen, hiff⟩ := ih hrest (tidy_place l lead.pen lead.char)
      rw [htype]
      cases hwide : isWide lead.char.val with
      | false =>
        -- a widened glyph of a narrow scalar comes out narrow, and the line short
        have hplaced : (l.place lead.pen lead.char).cells.length = l.cells.length + 1 := by
          simp [place, Pen.glyph, hwide]
        rw [hplaced] at hlen
        refine ⟨by simp only [List.length_cons]; omega, fun heq => ?_, fun h => ?_⟩
        · rw [heq] at hlen
          simp only [List.length_append, List.length_cons] at hlen
          omega
        · cases h with
          | narrow _ hl => simp [hlead] at hl
          | wide _ _ hl => rw [← hwritten.char_val, hwide] at hl; exact absurd hl (by decide)
      | true =>
        have hplaced : (l.place lead.pen lead.char).cells = l.cells ++ [lead, lead.tailHalf] := by
          rw [place, Pen.glyph, hwide, hwritten.tailHalf_eq, ← hcell]
          rfl
        rw [hplaced, List.append_assoc] at hiff
        rw [hplaced, List.length_append] at hlen
        refine ⟨by simpa [Nat.add_assoc, Nat.add_comm 2] using hlen, ?_⟩
        by_cases hsame : tail = lead.tailHalf
        · subst hsame
          refine hiff.trans ⟨fun h => ?_, fun h => ?_⟩
          · exact .wide hstarts hlead (by rw [← hwritten.char_val, hwide]) h
          · cases h with
            | narrow _ hl => simp [hlead] at hl
            | wide _ _ _ h => exact h
        · refine ⟨fun heq => ?_, fun h => ?_⟩
          · have hfinal : ∀ q, (l.place lead.pen lead.char).cluster ≠ some (q, false) := by
              rw [place, hwide]
              exact fun q hq => absurd (Prod.mk.inj (Option.some.inj hq)).2 nofun
            obtain ⟨more, hmore⟩ := typeCells_prefix cells
              (hplaced.trans (List.append_nil _).symm) fun q hq => absurd hq (hfinal q)
            rw [hmore] at heq
            simp only [List.append_assoc, List.cons_append, List.nil_append,
              List.append_cancel_left_eq, List.cons.injEq, true_and] at heq
            exact absurd heq.1.symm hsame
          · cases h with
            | narrow _ hl => simp [hlead] at hl
            | wide => exact absurd rfl hsame
    · have htidy := tidy_join l wide lead.char hl hcluster
      obtain ⟨hlen, -⟩ := ih hrest htidy
      have hone := length_join_le l hl hcluster lead.char
      rw [htype]
      refine ⟨?_, fun heq => ?_, fun h => ?_⟩
      · simp only [List.length_cons]
        omega
      · exact absurd heq (join_ne hl hcluster lead.char hlen (by simp only [List.length_cons]; omega))
      · exact absurd (h.starts prev (by rw [hcluster]; rfl)) (by simp [hjoins])

end Line

-- ---------------------------------------------------------------------------
-- Rows
-- ---------------------------------------------------------------------------

/-- A row of `cols` cells that begins with these. -/
def padded (cols : Nat) (cells : List Cell) : List Cell :=
  cells ++ List.replicate (cols - cells.length) (Cell.blank .default)

theorem length_padded {cols : Nat} {cells : List Cell} (h : cells.length ≤ cols) :
    (padded cols cells).length = cols := by
  rw [padded, List.length_append, List.length_replicate]
  omega

/-- A row's ink is told from anything shorter by its last cell. -/
theorem padded_inj {cols : Nat} {cells ink : List Cell} (hlen : cells.length ≤ ink.length)
    (hcols : ink.length ≤ cols) (hlast : ∀ c, ink.getLast? = some c → cellIsBlank c = false) :
    padded cols cells = padded cols ink ↔ cells = ink := by
  refine ⟨fun h => ?_, fun h => by rw [h]⟩
  obtain hlt | heq := Nat.lt_or_eq_of_le hlen
  · obtain ⟨last, hsome⟩ : ∃ last, ink[ink.length - 1]? = some last :=
      ⟨_, List.getElem?_eq_getElem (by omega)⟩
    have hink := congrArg (·[ink.length - 1]?) h
    dsimp only [padded] at hink
    rw [List.getElem?_append_right (by omega), List.getElem?_append_left (by omega), hsome,
      List.getElem?_replicate, if_pos (by omega)] at hink
    have hblank := hlast last (by rw [List.getLast?_eq_getElem?, hsome])
    rw [← Option.some.inj hink] at hblank
    exact absurd hblank (by decide)
  · exact (List.append_inj h heq).1

namespace Screen

def rowCells (s : Screen) (r : Nat) : List Cell := (s.cells.drop (r * s.cols.toNat)).take s.cols.toNat

theorem last_inkOfRow {s : Screen} {r : Nat} {c : Cell} (h : (s.inkOfRow r).getLast? = some c) :
    cellIsBlank c = false := by
  unfold inkOfRow at h
  rw [List.getLast?_reverse] at h
  have hhead := List.head?_dropWhile_not cellIsBlank (s.rowCells r).reverse
  unfold rowCells at hhead
  rwa [h] at hhead

theorem eq_blank_of_cellIsBlank {c : Cell} (h : cellIsBlank c = true) : c = Cell.blank .default := by
  simp only [cellIsBlank, Bool.and_eq_true, decide_eq_true_eq] at h
  obtain ⟨⟨⟨hcp, hattrs⟩, hfg⟩, hbg⟩ := h
  cases c
  simp_all [Cell.blank]

theorem rowCells_eq (s : Screen) {r : Nat} (h : (s.rowCells r).length = s.cols.toNat) :
    s.rowCells r = padded s.cols.toNat (s.inkOfRow r) ∧ (s.inkOfRow r).length ≤ s.cols.toNat := by
  have hsplit : s.inkOfRow r ++ ((s.rowCells r).reverse.takeWhile cellIsBlank).reverse = s.rowCells r := by
    unfold inkOfRow
    rw [← List.reverse_append, ← rowCells, List.takeWhile_append_dropWhile, List.reverse_reverse]
  have hlen := congrArg List.length hsplit
  rw [List.length_append, h] at hlen
  refine ⟨?_, by omega⟩
  refine hsplit.symm.trans (congrArg (s.inkOfRow r ++ ·) (List.eq_replicate_iff.mpr ⟨by omega, ?_⟩))
  intro c hc
  have hall := List.all_takeWhile (p := cellIsBlank) (l := (s.rowCells r).reverse)
  exact eq_blank_of_cellIsBlank (List.all_eq_true.mp hall c (List.mem_reverse.mp hc))

end Screen

-- ---------------------------------------------------------------------------
-- Units
-- ---------------------------------------------------------------------------

/-- What is cut off after a row's last glyph is no glyph. -/
theorem Units.of_append {l : List Cell} (h : Units l) {ink rest : List Cell} (hl : l = ink ++ rest)
    (hrest : ∀ c ∈ rest, c.isTail = false) : Units ink := by
  induction h generalizing ink with
  | nil => rw [(List.append_eq_nil_iff.mp hl.symm).1]; exact .nil
  | @narrow cell cells hlead htail h ih =>
    cases ink with
    | nil => exact .nil
    | cons c ink =>
      obtain ⟨rfl, hcells⟩ := List.cons.inj hl
      exact .narrow hlead htail (ih hcells)
  | @wide lead tail cells hlead hnot htail h ih =>
    match ink with
    | [] => exact .nil
    | [c] =>
      have hcells : tail :: cells = rest := (List.cons.inj hl).2
      rw [hrest tail (hcells ▸ List.mem_cons_self)] at htail
      exact absurd htail (by decide)
    | c :: d :: ink =>
      have hl : lead :: tail :: cells = c :: d :: (ink ++ rest) := hl
      obtain ⟨rfl, htailcells⟩ := List.cons.inj hl
      obtain ⟨rfl, hcells⟩ := List.cons.inj htailcells
      exact .wide hlead hnot htail (ih hcells)

theorem Written.isTail_of_lead {c : Cell} (h : Written c) (hlead : c.isLead = true) :
    c.isTail = false := by
  have hattrs : c.attrs = ((c.pen.cell c.char).attrs &&& sgrMask) ||| attrWideLead :=
    congrArg Cell.attrs (h.lead hlead)
  exact (Cell.bits hattrs).2

theorem Cell.isTail_tailHalf (c : Cell) : c.tailHalf.isTail = true := by
  have h : c.tailHalf.attrs = (c.attrs &&& sgrMask) ||| attrWideTail := rfl
  exact (Cell.bits h).2

theorem Replays.units {prev : Option Char} {ink : List Cell} (h : Replays prev ink)
    (hw : ∀ c ∈ ink, Written c) : Units ink := by
  induction h with
  | nil => exact .nil
  | narrow _ hlead htail _ ih =>
    exact .narrow hlead htail (ih fun c hc => hw c (List.mem_cons_of_mem _ hc))
  | wide _ hlead _ _ ih =>
    refine .wide hlead ((hw _ List.mem_cons_self).isTail_of_lead hlead) (Cell.isTail_tailHalf _) ?_
    exact ih fun c hc => hw c (List.mem_cons_of_mem _ (List.mem_cons_of_mem _ hc))

/-- The rows of a grid without lone halves have none either. -/
theorem units_of_paired {cells : List Cell} {cols rows r : Nat}
    (h : wideHalves.Paired cols (gridCell cells)) (hlen : cells.length = cols * rows) (hr : r < rows) :
    Units ((cells.drop (r * cols)).take cols) := by
  have hcons : ∀ {k}, k < cols → cells.drop (r * cols + k) =
      gridCell cells (r * cols + k) :: cells.drop (r * cols + k + 1) := by
    intro k hk
    have hlt : r * cols + k < cells.length := by
      have hspan := row_span_le cols hr
      omega
    rw [List.drop_eq_getElem_cons hlt, gridCell, List.getD_eq_getElem?_getD,
      List.getElem?_eq_getElem hlt, Option.getD_some]
  have hfrom : ∀ n k, n + k = cols →
      (n ≠ 0 → (gridCell cells (r * cols + k)).isTail = false) →
      Units ((cells.drop (r * cols + k)).take n) := by
    intro n
    induction n using Nat.strongRecOn with
    | ind n ih =>
      intro k hk hstart
      cases n with
      | zero => exact .nil
      | succ n =>
        have htail := hstart (Nat.succ_ne_zero n)
        have hnext := (h.seam (r * cols + k)).lead_eq
        rw [hcons (by omega), List.take_succ_cons]
        cases hlead : (gridCell cells (r * cols + k)).isLead with
        | false =>
          exact .narrow hlead htail
            (ih n (Nat.lt_succ_self n) (k + 1) (by omega) fun _ => hnext.symm.trans hlead)
        | true =>
          have hpos : n ≠ 0 := by
            rintro rfl
            have hend : (r * cols + k + 1) % cols = 0 := by
              have hrow : r * cols + k + 1 = (r + 1) * cols := by
                rw [Nat.succ_mul]
                omega
              rw [hrow, Nat.mul_mod_left]
            have hapart := ((h.seam (r * cols + k)).apart hend).left
            exact Bool.false_ne_true (hapart.symm.trans hlead)
          obtain ⟨m, rfl⟩ := Nat.exists_eq_succ_of_ne_zero hpos
          have hhalf : (gridCell cells (r * cols + k + 1)).isTail = true := hnext.symm.trans hlead
          have hnot : (gridCell cells (r * cols + k + 1)).isLead = false := by
            cases hl : (gridCell cells (r * cols + k + 1)).isLead with
            | false => rfl
            | true => exact absurd ((h.one _ hl).symm.trans hhalf) (by decide)
          have hafter := (h.seam (r * cols + k + 1)).lead_eq
          rw [Nat.add_assoc (r * cols), hcons (by omega), List.take_succ_cons]
          exact .wide hlead htail hhalf
            (ih m (by omega) (k + 2) (by omega) fun _ => hafter.symm.trans hnot)
  exact hfrom cols 0 rfl fun _ => h.row_start (Nat.mul_mod_left r cols)

end Rill.Vt
