/-!
# Shared VT types

The cell, grid, colour and mode records the engine and its callers exchange.
Machine words keep their width; usize quantities are naturals.
-/

namespace Rill.Vt

/-- Colour identity kept until `snapshot` materialises it against a palette. -/
inductive Color
  | default
  | indexed (n : UInt8)
  | rgb (r g b : UInt8)
  deriving DecidableEq, Repr, Inhabited

structure Rgb where
  r : UInt8
  g : UInt8
  b : UInt8
  deriving DecidableEq, Repr, Inhabited

structure Palette where
  ansi : Fin 16 → Rgb
  foreground : Rgb
  background : Rgb
  cursor : Rgb

/-- The VT default palette, not a theme. -/
def Palette.vtDefault : Palette where
  ansi := fun i => [
    ⟨0x1d, 0x1f, 0x21⟩, ⟨0xcc, 0x66, 0x66⟩, ⟨0xb5, 0xbd, 0x68⟩, ⟨0xf0, 0xc6, 0x74⟩,
    ⟨0x81, 0xa2, 0xbe⟩, ⟨0xb2, 0x94, 0xbb⟩, ⟨0x8a, 0xbe, 0xb7⟩, ⟨0xc5, 0xc8, 0xc6⟩,
    ⟨0x66, 0x66, 0x66⟩, ⟨0xd5, 0x4e, 0x53⟩, ⟨0xb9, 0xca, 0x4a⟩, ⟨0xe7, 0xc5, 0x47⟩,
    ⟨0x7a, 0xa6, 0xda⟩, ⟨0xc3, 0x97, 0xd8⟩, ⟨0x70, 0xc0, 0xb1⟩, ⟨0xea, 0xea, 0xea⟩].getD i default
  foreground := ⟨0xcc, 0xcc, 0xcc⟩
  background := ⟨0x12, 0x12, 0x12⟩
  cursor := ⟨0xcc, 0xcc, 0xcc⟩

structure PodCell where
  codepoint : UInt32
  fg : UInt32
  bg : UInt32
  attrs : UInt16
  pad : UInt16
  deriving DecidableEq, Repr

def attrWideLead : UInt16 := 8
def attrWideTail : UInt16 := 16

/-- The SGR bits of an attribute word: bold, underline, inverse. -/
def sgrMask : UInt16 := 0b111

structure PodGrid where
  cols : UInt16
  rows : UInt16
  cursorCol : UInt16
  cursorRow : UInt16
  cursorVisible : Bool
  fullDamage : Bool
  damageRow0 : UInt16
  damageRow1 : UInt16
  defaultFg : UInt32
  defaultBg : UInt32
  graphemeTruncated : UInt32
  repliesDropped : UInt32
  cells : List PodCell
  deriving DecidableEq, Repr

def PodGrid.cell (g : PodGrid) (col row : UInt16) : Option PodCell :=
  g.cells[row.toNat * g.cols.toNat + col.toNat]?

/-- Host encoder flags polled after `feed`. -/
structure TerminalModeState where
  applicationCursorKeys : Bool
  applicationKeypad : Bool
  bracketedPaste : Bool
  mouseX10 : Bool
  mouseButton : Bool
  mouseAny : Bool
  mouseSgr : Bool
  focusEvents : Bool
  alternateScreen : Bool
  cursorVisible : Bool
  deriving DecidableEq, Repr

/-- `Vt` carries the message the source puts in it. -/
inductive Error
  | vt (message : String)
  deriving DecidableEq, Repr

-- ---------------------------------------------------------------------------
-- Materialisation
-- ---------------------------------------------------------------------------

/-- The colour cube levels 0, 95, 135, 175, 215, 255. -/
def cube (level : UInt8) : UInt8 := if level = 0 then 0 else 55 + 40 * level

def indexed (n : UInt8) (palette : Palette) : Rgb :=
  if h : n.toNat < 16 then palette.ansi ⟨n.toNat, h⟩
  else if n ≤ 231 then
    let i := n - 16
    ⟨cube (i / 36), cube (i % 36 / 6), cube (i % 6)⟩
  else
    let v := 8 + 10 * (n - 232)
    ⟨v, v, v⟩

def pack (c : Rgb) : UInt32 :=
  (c.r.toUInt32 <<< 24) ||| (c.g.toUInt32 <<< 16) ||| (c.b.toUInt32 <<< 8) ||| 0xff

-- ---------------------------------------------------------------------------
-- Saturating words
-- ---------------------------------------------------------------------------

def satAdd16 (a b : UInt16) : UInt16 :=
  if a.toNat + b.toNat < 65536 then a + b else 65535

def satSub16 (a b : UInt16) : UInt16 := if b ≤ a then a - b else 0

def satAdd32 (a b : UInt32) : UInt32 :=
  if a.toNat + b.toNat < 4294967296 then a + b else 4294967295

theorem toNat_satSub16 (a b : UInt16) : (satSub16 a b).toNat = a.toNat - b.toNat := by
  unfold satSub16
  split
  case isTrue h => rw [UInt16.toNat_sub_of_le _ _ h]
  case isFalse h =>
    have h : a.toNat < b.toNat := by simpa [UInt16.le_iff_toNat_le] using h
    simp only [UInt16.toNat_zero]
    omega

theorem toNat_le_satAdd16 (a b : UInt16) : a.toNat ≤ (satAdd16 a b).toNat := by
  have ha := a.toNat_lt
  unfold satAdd16
  split
  case isTrue h =>
    rw [UInt16.toNat_add]
    omega
  case isFalse =>
    have hmax : (65535 : UInt16).toNat = 65535 := rfl
    omega

/-- A sum that stays below a word is no saturated one. -/
theorem toNat_satAdd16_one {a b : UInt16} (h : a.toNat < b.toNat) :
    (satAdd16 a 1).toNat = a.toNat + 1 := by
  have hb := b.toNat_lt
  unfold satAdd16
  rw [UInt16.toNat_one, if_pos (by omega), UInt16.toNat_add, UInt16.toNat_one]
  omega

theorem toNat_satAdd32_one (n : UInt32) : (satAdd32 n 1).toNat = min (n.toNat + 1) 4294967295 := by
  have hn := n.toNat_lt
  unfold satAdd32
  rw [UInt32.toNat_one]
  split
  case isTrue h =>
    rw [UInt32.toNat_add, UInt32.toNat_one]
    omega
  case isFalse h =>
    change 4294967295 = _
    omega

theorem satAdd16_one_of_lt {a b : UInt16} (h : satAdd16 a 1 < b) : satAdd16 a 1 = a + 1 := by
  have hb := b.toNat_lt
  have h := UInt16.lt_iff_toNat_lt.mp h
  unfold satAdd16 at h ⊢
  split
  case isTrue => rfl
  case isFalse hmax =>
    have hmax' : (65535 : UInt16).toNat = 65535 := rfl
    rw [if_neg hmax] at h
    omega

theorem toNat_min16 (a b : UInt16) : (min a b).toNat = min a.toNat b.toNat := by
  change (if a ≤ b then a else b).toNat = _
  split
  case isTrue h =>
    have h : a.toNat ≤ b.toNat := UInt16.le_iff_toNat_le.mp h
    omega
  case isFalse h =>
    have h : ¬ a.toNat ≤ b.toNat := fun k => h (UInt16.le_iff_toNat_le.mpr k)
    omega

theorem toNat_succ16 {a b : UInt16} (h : a.toNat < b.toNat) : (a + 1).toNat = a.toNat + 1 := by
  have hb := b.toNat_lt
  rw [UInt16.toNat_add, UInt16.toNat_one]
  omega

theorem toNat_pred16 {a b : UInt16} (h : b.toNat < a.toNat) : (a - 1).toNat = a.toNat - 1 := by
  have hle : 1 ≤ a := by
    rw [UInt16.le_iff_toNat_le, UInt16.toNat_one]
    omega
  rw [UInt16.toNat_sub_of_le _ _ hle, UInt16.toNat_one]

theorem or_and16 (a b c : UInt16) : (a ||| b) &&& c = (a &&& c) ||| (b &&& c) :=
  UInt16.toBitVec_inj.mp (by simp [BitVec.and_or_distrib_right])

theorem sgr_or_and (a bit mask : UInt16) (h : sgrMask &&& mask = 0) :
    ((a &&& sgrMask) ||| bit) &&& mask = bit &&& mask := by
  rw [or_and16, UInt16.and_assoc, h, UInt16.and_zero, UInt16.zero_or]

end Rill.Vt
