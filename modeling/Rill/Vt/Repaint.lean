import Rill.Vt.Screen

/-!
# Repaint

The visible grid written back as VT bytes, row by row, with the pen emitted
where it changes.
-/

namespace Rill.Vt

def cellIsBlank (cell : Cell) : Bool :=
  cell.codepoint = 32 && cell.attrs = 0 && cell.fg = .default && cell.bg = .default

/-- The UTF-8 bytes of a scalar; nothing for a number that is not one. -/
def pushCodepoint (cp : UInt32) : List UInt8 :=
  if h : cp.isValidChar then String.utf8EncodeChar ⟨cp, h⟩ else []

/-- `ESC [ 0 m`. -/
def sgrReset : List UInt8 := [0x1b, 0x5b, 0x30, 0x6d]

def emitAttrs (attrs : UInt16) : List UInt8 :=
  (if attrs &&& 1 ≠ 0 then [0x1b, 0x5b, 0x31, 0x6d] else []) ++
  (if attrs &&& 2 ≠ 0 then [0x1b, 0x5b, 0x34, 0x6d] else []) ++
  (if attrs &&& 4 ≠ 0 then [0x1b, 0x5b, 0x37, 0x6d] else [])

def emitColor (fg : Bool) : Color → List UInt8
  | .default => []
  | .indexed n =>
    if n < 8 then [0x1b, 0x5b] ++ writeU16 ((if fg then 30 else 40) + n.toUInt16) ++ [0x6d]
    else if n < 16 then
      [0x1b, 0x5b] ++ writeU16 ((if fg then 90 else 100) + (n.toUInt16 - 8)) ++ [0x6d]
    else
      [0x1b, 0x5b, if fg then 0x33 else 0x34, 0x38, 0x3b, 0x35, 0x3b] ++
        writeU16 n.toUInt16 ++ [0x6d]
  | .rgb r g b =>
    [0x1b, 0x5b, if fg then 0x33 else 0x34, 0x38, 0x3b, 0x32, 0x3b] ++
      writeU16 r.toUInt16 ++ [0x3b] ++ writeU16 g.toUInt16 ++ [0x3b] ++ writeU16 b.toUInt16 ++ [0x6d]

structure Pen where
  fg : Color
  bg : Color
  attrs : UInt16
  deriving DecidableEq, Repr

def Pen.reset : Pen := ⟨.default, .default, 0⟩

def emitCell (pen : Pen) (cell : Cell) : List UInt8 × Pen :=
  let glyph := if cell.attrs &&& attrWideTail ≠ 0 then [] else pushCodepoint cell.codepoint
  let next : Pen := ⟨cell.fg, cell.bg, cell.attrs &&& sgrMask⟩
  if next ≠ pen then
    (sgrReset ++ emitAttrs cell.attrs ++ emitColor true cell.fg ++ emitColor false cell.bg ++ glyph,
      next)
  else (glyph, pen)

def emitCells (pen : Pen) : List Cell → List UInt8 × Pen
  | [] => ([], pen)
  | cell :: cells =>
    let (bytes, pen) := emitCell pen cell
    let (rest, pen) := emitCells pen cells
    (bytes ++ rest, pen)

namespace Screen

/-- The cells of row `r` up to the last one that is not blank. -/
def inkOfRow (s : Screen) (r : Nat) : List Cell :=
  (((s.cells.drop (r * s.cols.toNat)).take s.cols.toNat).reverse.dropWhile cellIsBlank).reverse

def repaintRows (s : Screen) (pen : Pen) : List Nat → List UInt8
  | [] => []
  | r :: rows =>
    let (bytes, pen) := emitCells pen (s.inkOfRow r)
    if r + 1 < s.rows.toNat then
      bytes ++ [0x0d, 0x0a] ++ sgrReset ++ s.repaintRows .reset rows
    else bytes ++ s.repaintRows pen rows

def repaintBytes (s : Screen) : List UInt8 :=
  (if s.inAlt then [0x1b, 0x5b, 0x3f, 0x31, 0x30, 0x34, 0x39, 0x68] else []) ++
  sgrReset ++ s.repaintRows .reset (List.range s.rows.toNat) ++
  [0x1b, 0x5b] ++ writeU16 (satAdd16 s.cursorRow 1) ++ [0x3b] ++
  writeU16 (satAdd16 s.cursorCol 1) ++ [0x48] ++
  (if s.cursorVisible then [] else [0x1b, 0x5b, 0x3f, 0x32, 0x35, 0x6c])

end Screen

end Rill.Vt
