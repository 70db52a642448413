import Rill.Vt.Parser
import Rill.Vt.Width

/-!
# The screen

Visible grid, cursor, pens, modes and damage, as the parser's calls change
them. The cells are one row-major list. Where the source would panic on an
index or a slice, the model keeps going and sets `panicked`; nothing reads it.
-/

namespace Rill.Vt

structure Cell where
  codepoint : UInt32
  fg : Color
  bg : Color
  attrs : UInt16
  deriving DecidableEq, Repr

def Cell.blank (bg : Color) : Cell := ⟨32, .default, bg, 0⟩

structure SavedCursor where
  col : UInt16
  row : UInt16
  pendingWrap : Bool
  fg : Color
  bg : Color
  attrs : UInt16
  deriving DecidableEq, Repr

structure OpenCluster where
  row : UInt16
  col : UInt16
  len : UInt8
  afterZwj : Bool
  lastWasRi : Bool
  width : UInt8
  deriving DecidableEq, Repr

structure Screen where
  cols : UInt16
  rows : UInt16
  cells : List Cell
  cursorCol : UInt16
  cursorRow : UInt16
  cursorVisible : Bool
  pendingWrap : Bool
  autowrap : Bool
  fullDamage : Bool
  damageRow0 : UInt16
  damageRow1 : UInt16
  scrollTop : UInt16
  scrollBottom : UInt16
  palette : Palette
  penFg : Color
  penBg : Color
  penAttrs : UInt16
  savedCursor : Option SavedCursor
  altCursor : Option SavedCursor
  savedGrid : Option (List Cell)
  inAlt : Bool
  replies : List UInt8
  repliesDropped : UInt32
  discardReplies : Bool
  openCluster : Option OpenCluster
  graphemeTruncated : UInt32
  applicationCursorKeys : Bool
  applicationKeypad : Bool
  bracketedPaste : Bool
  mouseX10 : Bool
  mouseButton : Bool
  mouseAny : Bool
  mouseSgr : Bool
  focusEvents : Bool
  scrolledOff : List (List Cell)
  panicked : Bool

def rillGraphemeMax : UInt8 := 32

/-- The grid at its new size: what fits is copied row by row, the rest is blank. -/
def resizeCells (old : List Cell) (oldCols oldRows cols rows : UInt16) : List Cell :=
  let copy (next : List Cell) (r c : Nat) : List Cell :=
    match old[r * oldCols.toNat + c]? with
    | some cell => next.set (r * cols.toNat + c) cell
    | none => next
  (List.range (min oldRows rows).toNat).foldl
    (fun next r => (List.range (min oldCols cols).toNat).foldl (fun next c => copy next r c) next)
    (List.replicate (cols.toNat * rows.toNat) (Cell.blank .default))

def isRegionalIndicator (c : Char) : Bool := 0x1f1e6 ≤ c.val && c.val ≤ 0x1f1ff

def zeroWidthJoiner : Char := '\u200d'

def isClusterContinuer (c : Char) : Bool :=
  isMark c.val || c = zeroWidthJoiner || (0xfe00 ≤ c.val && c.val ≤ 0xfe0f) ||
    (0xe0100 ≤ c.val && c.val ≤ 0xe01ef)

def csiN (params : List UInt16) (i : Nat) (default : UInt16) : UInt16 :=
  match params[i]? with
  | none => default
  | some n => if n = 0 then default else n

/-- Decimal digits of a word, most significant first: `write_u16`. -/
def writeU16 (n : UInt16) : List UInt8 :=
  go 5 n.toNat
where
  go : Nat → Nat → List UInt8
    | 0, _ => []
    | fuel + 1, x =>
      let digit := [UInt8.ofNat (0x30 + x % 10)]
      if x / 10 = 0 then digit else go fuel (x / 10) ++ digit

namespace Screen

def new (cols rows : UInt16) : Except Error Screen :=
  if cols = 0 || rows = 0 then .error (.vt "empty grid")
  else .ok {
    cols, rows
    cells := List.replicate (cols.toNat * rows.toNat) (Cell.blank .default)
    cursorCol := 0
    cursorRow := 0
    cursorVisible := true
    pendingWrap := false
    autowrap := true
    fullDamage := true
    damageRow0 := 0
    damageRow1 := 0
    scrollTop := 0
    scrollBottom := satSub16 rows 1
    palette := .vtDefault
    penFg := .default
    penBg := .default
    penAttrs := 0
    savedCursor := none
    altCursor := none
    savedGrid := none
    inAlt := false
    replies := []
    repliesDropped := 0
    discardReplies := false
    openCluster := none
    graphemeTruncated := 0
    applicationCursorKeys := false
    applicationKeypad := false
    bracketedPaste := false
    mouseX10 := false
    mouseButton := false
    mouseAny := false
    mouseSgr := false
    focusEvents := false
    scrolledOff := []
    panicked := false }

-- ---------------------------------------------------------------------------
-- Cells
-- ---------------------------------------------------------------------------

def idx (s : Screen) (col row : UInt16) : Nat := row.toNat * s.cols.toNat + col.toNat

def check (s : Screen) (inRange : Bool) : Screen := { s with panicked := s.panicked || !inRange }

def touch (s : Screen) (i : Nat) : Screen := s.check (i < s.cells.length)

def cellAt (s : Screen) (i : Nat) : Cell := s.cells.getD i (Cell.blank .default)

def setCell (s : Screen) (i : Nat) (c : Cell) : Screen :=
  { s.touch i with cells := s.cells.set i c }

/-- Every cell of the slice `lo..hi` becomes `c`. -/
def fillCells (s : Screen) (lo hi : Nat) (c : Cell) : Screen :=
  { s.check (lo ≤ hi && hi ≤ s.cells.length) with
    cells := s.cells.mapIdx fun i cell => if lo ≤ i ∧ i < hi then c else cell }

/-- `copy_within(lo..hi, dst)`. -/
def copyWithin (s : Screen) (lo hi dst : Nat) : Screen :=
  { s.check (lo ≤ hi && hi ≤ s.cells.length && dst + (hi - lo) ≤ s.cells.length) with
    cells := s.cells.mapIdx fun i cell =>
      if dst ≤ i ∧ i < dst + (hi - lo) then s.cellAt (lo + (i - dst)) else cell }

def blankGrid (s : Screen) : List Cell :=
  List.replicate (s.cols.toNat * s.rows.toNat) (Cell.blank s.penBg)

def lastCol (s : Screen) : UInt16 := satSub16 s.cols 1

def lastRow (s : Screen) : UInt16 := satSub16 s.rows 1

def damageAll (s : Screen) : Screen := { s with fullDamage := true }

def dirty (s : Screen) (row : UInt16) : Screen :=
  if s.fullDamage then s
  else if s.damageRow0 > s.damageRow1 then { s with damageRow0 := row, damageRow1 := row }
  else { s with damageRow0 := min row s.damageRow0, damageRow1 := max row s.damageRow1 }

/-- `dirty` on every row of `first..=last`. -/
def dirtyRows (s : Screen) (first last : Nat) : Screen :=
  (List.range' first (last + 1 - first)).foldl (fun s r => s.dirty (UInt16.ofNat r)) s

-- ---------------------------------------------------------------------------
-- Scrolling and cursor
-- ---------------------------------------------------------------------------

def clearPendingWrap (s : Screen) : Screen := { s with pendingWrap := false }

def setCursorCol (s : Screen) (col : UInt16) : Screen := { s with cursorCol := col }

def setOpenCluster (s : Screen) (cluster : Option OpenCluster) : Screen :=
  { s with openCluster := cluster }

/-- Row `r` takes the cells of row `src`. -/
def copyRow (s : Screen) (src r : Nat) : Screen :=
  s.copyWithin (src * s.cols.toNat) (src * s.cols.toNat + s.cols.toNat) (r * s.cols.toNat)

/-- `copyRow` for each pair of a source and a destination, in order. -/
def copyRows (s : Screen) (moves : List (Nat × Nat)) : Screen :=
  moves.foldl (fun s move => s.copyRow move.1 move.2) s

def blankCells (s : Screen) (lo hi : Nat) : Screen := s.fillCells lo hi (Cell.blank s.penBg)

def blankRow (s : Screen) (r : Nat) : Screen :=
  s.blankCells (r * s.cols.toNat) (r * s.cols.toNat + s.cols.toNat)

def blankRows (s : Screen) (first n : Nat) : Screen :=
  (List.range' first n).foldl (fun s r => s.blankRow r) s

/-- The row about to leave the primary grid is kept for the host. -/
def retireRow (s : Screen) (row : Nat) : Screen :=
  let cols := s.cols.toNat
  if !s.inAlt && row = 0 && cols > 0 then
    { s.check (row * cols + cols ≤ s.cells.length) with
      scrolledOff := s.scrolledOff ++ [(s.cells.drop (row * cols)).take cols] }
  else s

def scrollUp (s : Screen) : Screen :=
  let top := s.scrollTop.toNat
  let bot := s.scrollBottom.toNat
  let moves := (List.range' top (bot - top)).map fun r => (r + 1, r)
  (((s.retireRow top).copyRows moves).blankRow bot).damageAll

def scrollDown (s : Screen) : Screen :=
  let top := s.scrollTop.toNat
  let bot := s.scrollBottom.toNat
  let moves := (List.range' (top + 1) (bot - top)).reverse.map fun r => (r - 1, r)
  ((s.copyRows moves).blankRow top).damageAll

def index (s : Screen) : Screen :=
  if s.cursorRow < s.scrollBottom then { s with cursorRow := s.cursorRow + 1 } else s.scrollUp

def reverseIndex (s : Screen) : Screen :=
  if s.cursorRow > s.scrollTop then { s with cursorRow := s.cursorRow - 1 } else s.scrollDown

def captureCursor (s : Screen) : SavedCursor where
  col := s.cursorCol
  row := s.cursorRow
  pendingWrap := s.pendingWrap
  fg := s.penFg
  bg := s.penBg
  attrs := s.penAttrs

def restoreCursor (s : Screen) (saved : SavedCursor) : Screen :=
  { s.clearPendingWrap with
    cursorCol := min saved.col s.lastCol
    cursorRow := min saved.row s.lastRow
    pendingWrap := saved.pendingWrap
    penFg := saved.fg
    penBg := saved.bg
    penAttrs := saved.attrs }

def setCursor (s : Screen) (row col : UInt16) : Screen :=
  { s.clearPendingWrap with
    openCluster := none
    cursorRow := min row s.lastRow
    cursorCol := min col s.lastCol }

-- ---------------------------------------------------------------------------
-- Modes
-- ---------------------------------------------------------------------------

def setInAlt (s : Screen) (inAlt : Bool) : Screen := { s with inAlt }

def saveGrid (s : Screen) (saveCursor : Bool) : Screen :=
  { s with
    savedGrid := some s.cells
    altCursor := if saveCursor then some s.captureCursor else none }

def clearGrid (s : Screen) : Screen := { s with cells := s.blankGrid }.setCursor 0 0

def enterAlt (s : Screen) (saveCursor clear : Bool) : Screen :=
  let s := if !s.inAlt then s.saveGrid saveCursor else s
  let s := if clear then s.clearGrid else s
  (s.setInAlt true).damageAll

def restoreGrid (s : Screen) : Screen :=
  match s.savedGrid with
  | some grid => { s with cells := grid, savedGrid := none }
  | none => s

/-- The alternate cursor is dropped whether or not it is restored. -/
def takeAltCursor (s : Screen) (restoreCursor : Bool) : Screen :=
  match restoreCursor, s.altCursor with
  | true, some c => { s with altCursor := none }.restoreCursor c
  | _, _ => { s with altCursor := none }

def leaveAlt (s : Screen) (restoreCursor : Bool) : Screen :=
  if !s.inAlt then s
  else ((s.restoreGrid.takeAltCursor restoreCursor).setInAlt false).damageAll

def setScrollRegion (s : Screen) (params : List UInt16) : Screen :=
  let top := csiN params 0 1
  let bot := csiN params 1 s.rows
  if top < 1 || bot > s.rows || top ≥ bot then s
  else { s with scrollTop := top - 1, scrollBottom := bot - 1 }.setCursor 0 0

def privateModeOne (s : Screen) (set : Bool) (p : UInt16) : Screen :=
  if p = 1 then { s with applicationCursorKeys := set }
  else if p = 7 then { s with autowrap := set }
  else if p = 25 then { s with cursorVisible := set }
  else if p = 2004 then { s with bracketedPaste := set }
  else if p = 1000 then { s with mouseX10 := set }
  else if p = 1002 then { s with mouseButton := set }
  else if p = 1003 then { s with mouseAny := set }
  else if p = 1004 then { s with focusEvents := set }
  else if p = 1006 then { s with mouseSgr := set }
  else if p = 1047 then (if set then s.enterAlt false true else s.leaveAlt false)
  else if p = 1049 then (if set then s.enterAlt true true else s.leaveAlt true)
  else s

def privateMode (s : Screen) (params : List UInt16) (set : Bool) : Screen :=
  params.foldl (fun s p => s.privateModeOne set p) s

-- ---------------------------------------------------------------------------
-- Printing
-- ---------------------------------------------------------------------------

def clusterWidth (c : Char) : UInt16 := if isWide c.val then 2 else 1

def remainingCols (s : Screen) : UInt16 := satSub16 s.cols s.cursorCol

def shouldAppend (s : Screen) (c : Char) : Bool :=
  match s.openCluster with
  | none => false
  | some cl => isClusterContinuer c || cl.afterZwj || (cl.lastWasRi && isRegionalIndicator c)

def wrapIfNeededWidth (s : Screen) (width : UInt16) : Screen :=
  if !(s.pendingWrap || s.remainingCols < width) then s
  else if !s.autowrap then s.clearPendingWrap
  else (s.clearPendingWrap.setCursorCol 0).index

/-- Where half of a wide glyph was found, blanks the cell at `other` if it
carries the bit `attr` of the other half. -/
def smashHalf (s : Screen) (found : Bool) (other : Nat) (attr : UInt16) : Screen :=
  if found then
    if (s.cellAt other).attrs &&& attr ≠ 0 then (s.touch other).setCell other (Cell.blank s.penBg)
    else s.touch other
  else s

/-- Blanks the other half of a wide glyph at `(col, row)`. -/
def smashWideAt (s : Screen) (col row : UInt16) : Screen :=
  if col ≥ s.cols || row ≥ s.rows then s
  else
    let attrs := (s.cellAt (s.idx col row)).attrs
    let lead := attrs &&& attrWideLead ≠ 0 && col + 1 < s.cols
    let tail := attrs &&& attrWideTail ≠ 0 && col > 0
    let s := s.touch (s.idx col row)
    let s := s.smashHalf lead (s.idx (col + 1) row) attrWideTail
    s.smashHalf tail (s.idx (col - 1) row) attrWideLead

def advanceAfterWidth (s : Screen) (width : UInt16) : Screen :=
  let next := satAdd16 s.cursorCol width
  if next < s.cols then { s with cursorCol := next, pendingWrap := false }
  else { s with cursorCol := s.lastCol, pendingWrap := s.autowrap }

/-- The glyph of the cluster takes the cell after it as well. -/
def widenCluster (s : Screen) (cl : OpenCluster) (tailCol : UInt16) : Screen :=
  let s := s.smashWideAt tailCol cl.row
  let lead := s.cellAt (s.idx cl.col cl.row)
  let s := s.setCell (s.idx cl.col cl.row)
    { lead with attrs := (lead.attrs &&& sgrMask) ||| attrWideLead }
  let s := s.setCell (s.idx tailCol cl.row)
    { lead with attrs := (lead.attrs &&& sgrMask) ||| attrWideTail }
  (s.setOpenCluster (some { cl with width := 2 })).dirty cl.row

def maybeExpandRiPair (s : Screen) : Screen :=
  match s.openCluster with
  | none => s
  | some cl =>
    let tailCol := satAdd16 cl.col 1
    if cl.width ≥ 2 then s
    else if tailCol ≥ s.cols || cl.row ≠ s.cursorRow then s
    else
      let s := s.widenCluster cl tailCol
      if s.cursorCol ≤ tailCol && s.cursorRow = cl.row then
        (s.setCursorCol tailCol).advanceAfterWidth 1
      else s

/-- A scalar past the limit is not kept, only counted. -/
def countTruncated (s : Screen) (len : UInt8) : Screen :=
  if len ≥ rillGraphemeMax then
    { s with graphemeTruncated := satAdd32 s.graphemeTruncated 1 }
  else s

/-- `none` when there is no cluster to append to. -/
def appendToCluster (s : Screen) (c : Char) : Option Screen :=
  s.openCluster.map fun cl =>
    let cluster := { cl with
      len := if cl.len ≥ rillGraphemeMax then cl.len else cl.len + 1
      afterZwj := c = zeroWidthJoiner
      lastWasRi := isRegionalIndicator c }
    ((s.countTruncated cl.len).dirty cl.row).setOpenCluster (some cluster)

/-- The glyph's own cells, with the pen, at `(col, row)`. -/
def paintGlyph (s : Screen) (c : Char) (col row width : UInt16) : Screen :=
  let sgr := s.penAttrs &&& sgrMask
  let s := s.smashWideAt col row
  let s := if width = 2 then s.smashWideAt (col + 1) row else s
  let s := s.setCell (s.idx col row)
    ⟨c.val, s.penFg, s.penBg, sgr ||| (if width = 2 then attrWideLead else 0)⟩
  if width = 2 then
    s.setCell (s.idx (col + 1) row) ⟨c.val, s.penFg, s.penBg, sgr ||| attrWideTail⟩
  else s

def placeGlyph (s : Screen) (c : Char) (width : UInt16) : Screen :=
  let row := s.cursorRow
  let col := s.cursorCol
  let cluster : OpenCluster := {
    row, col
    len := 1
    afterZwj := c = zeroWidthJoiner
    lastWasRi := isRegionalIndicator c
    width := width.toUInt8 }
  let s := (s.paintGlyph c col row width).setOpenCluster (some cluster)
  (s.dirty row).advanceAfterWidth width

def printBase (s : Screen) (c : Char) : Screen :=
  let width := clusterWidth c
  let s := s.wrapIfNeededWidth width
  if s.cols < width || s.remainingCols < width then s else s.placeGlyph c width

def writeChar (s : Screen) (c : Char) : Screen :=
  match (if s.shouldAppend c then s.appendToCluster c else none) with
  | some s => if isRegionalIndicator c then s.maybeExpandRiPair else s
  | none => s.printBase c

-- ---------------------------------------------------------------------------
-- Erasing and editing
-- ---------------------------------------------------------------------------

/-- `smashWideAt` on every cell of `lo..hi`, counted row by row. -/
def smashSpan (s : Screen) (lo hi : Nat) : Screen :=
  let cols := max s.cols.toNat 1
  (List.range' lo (hi - lo)).foldl
    (fun s i => s.smashWideAt (UInt16.ofNat (i % cols)) (UInt16.ofNat (i / cols))) s

def eraseSpan (s : Screen) (start stop : Nat) : Screen :=
  let hi := min stop s.cells.length
  let lo := min start hi
  let cols := max s.cols.toNat 1
  let s := (s.smashSpan lo hi).blankCells lo hi
  if lo < hi then s.dirtyRows (lo / cols) ((hi - 1) / cols) else s

def eraseDisplay (s : Screen) (mode : UInt16) : Screen :=
  let cur := s.idx s.cursorCol s.cursorRow
  if mode = 0 then s.eraseSpan cur s.cells.length
  else if mode = 1 then s.eraseSpan 0 (cur + 1)
  else (s.eraseSpan 0 s.cells.length).damageAll

def eraseLine (s : Screen) (mode : UInt16) : Screen :=
  let rowStart := s.idx 0 s.cursorRow
  let rowEnd := rowStart + s.cols.toNat
  let cur := s.idx s.cursorCol s.cursorRow
  if mode = 0 then s.eraseSpan cur rowEnd
  else if mode = 1 then s.eraseSpan rowStart (cur + 1)
  else s.eraseSpan rowStart rowEnd

def eraseChars (s : Screen) (n : UInt16) : Screen :=
  let n := min n (satSub16 s.cols s.cursorCol)
  let start := s.idx s.cursorCol s.cursorRow
  s.eraseSpan start (start + n.toNat)

/-- The rows IL and DL may move, `none` outside the scroll region. -/
def lineCount (s : Screen) (n : UInt16) : Option Nat :=
  if s.cursorRow < s.scrollTop || s.cursorRow > s.scrollBottom then none
  else
    let n := min n (satSub16 s.scrollBottom s.cursorRow + 1)
    if n = 0 then none else some n.toNat

def insertLines (s : Screen) (n : UInt16) : Screen :=
  match s.lineCount n with
  | none => s
  | some n =>
    let first := s.cursorRow.toNat
    let last := s.scrollBottom.toNat
    let rows := if last ≥ first + n then List.range' first (last - n + 1 - first) else []
    let moves := rows.reverse.map fun r => (r, r + n)
    ((s.copyRows moves).blankRows first n).dirtyRows first last

def deleteLines (s : Screen) (n : UInt16) : Screen :=
  match s.lineCount n with
  | none => s
  | some n =>
    let first := s.cursorRow.toNat
    let last := s.scrollBottom.toNat
    let rows := if last ≥ first + n then List.range' first (last - n + 1 - first) else []
    let moves := rows.map fun r => (r + n, r)
    ((s.copyRows moves).blankRows (last + 1 - n) n).dirtyRows first last

/-- ICH moves cells without looking for the halves of wide glyphs. -/
def insertCells (s : Screen) (n : UInt16) : Screen :=
  let n := (min n (satSub16 s.cols s.cursorCol)).toNat
  if n = 0 then s
  else
    let cols := s.cols.toNat
    let col := s.cursorCol.toNat
    let row := s.cursorRow
    let rowStart := s.idx 0 row
    let s := if col + n < cols then
        s.copyWithin (rowStart + col) (rowStart + cols - n) (rowStart + col + n)
      else s
    (s.blankCells (rowStart + col) (rowStart + col + n)).dirty row

def smashCols (s : Screen) (row : UInt16) (col n : Nat) : Screen :=
  (List.range' col n).foldl (fun s c => s.smashWideAt (UInt16.ofNat c) row) s

def deleteCells (s : Screen) (n : UInt16) : Screen :=
  let n := (min n (satSub16 s.cols s.cursorCol)).toNat
  if n = 0 then s
  else
    let cols := s.cols.toNat
    let col := s.cursorCol.toNat
    let row := s.cursorRow
    let rowStart := s.idx 0 row
    let s := s.smashCols row col n
    let s := if col + n < cols then
        s.copyWithin (rowStart + col + n) (rowStart + cols) (rowStart + col)
      else s
    (s.blankCells (rowStart + cols - n) (rowStart + cols)).dirty row

-- ---------------------------------------------------------------------------
-- Replies
-- ---------------------------------------------------------------------------

def replyCap : Nat := 1024

def enqueueReply (s : Screen) (bytes : List UInt8) : Screen :=
  if s.discardReplies then { s with repliesDropped := satAdd32 s.repliesDropped 1 }
  else if s.replies.length + bytes.length > replyCap then
    { s with repliesDropped := satAdd32 s.repliesDropped 1 }
  else { s with replies := s.replies ++ bytes }

def replyPrimaryDa (s : Screen) : Screen := s.enqueueReply [0x1b, 0x5b, 0x3f, 0x36, 0x63]

def replySecondaryDa (s : Screen) : Screen :=
  s.enqueueReply [0x1b, 0x5b, 0x3e, 0x30, 0x3b, 0x30, 0x3b, 0x30, 0x63]

def replyDsrStatus (s : Screen) : Screen := s.enqueueReply [0x1b, 0x5b, 0x30, 0x6e]

def replyDsrCursor (s : Screen) : Screen :=
  s.enqueueReply ([0x1b, 0x5b] ++ writeU16 (satAdd16 s.cursorRow 1) ++ [0x3b] ++
    writeU16 (satAdd16 s.cursorCol 1) ++ [0x52])

-- ---------------------------------------------------------------------------
-- SGR
-- ---------------------------------------------------------------------------

def paintIndexed (n : UInt16) : Color := .indexed (min n 255).toUInt8

def setPen (s : Screen) (fg : Bool) (c : Color) : Screen :=
  if fg then { s with penFg := c } else { s with penBg := c }

/-- One SGR parameter other than 38 and 48. -/
def sgrOne (s : Screen) (n : UInt16) : Screen :=
  if n = 0 then { s with penAttrs := 0, penFg := .default, penBg := .default }
  else if n = 1 then { s with penAttrs := s.penAttrs ||| 1 }
  else if n = 4 then { s with penAttrs := s.penAttrs ||| 2 }
  else if n = 7 then { s with penAttrs := s.penAttrs ||| 4 }
  else if n = 22 then { s with penAttrs := s.penAttrs &&& ~~~1 }
  else if n = 24 then { s with penAttrs := s.penAttrs &&& ~~~2 }
  else if n = 27 then { s with penAttrs := s.penAttrs &&& ~~~4 }
  else if 30 ≤ n && n ≤ 37 then { s with penFg := paintIndexed (n - 30) }
  else if 90 ≤ n && n ≤ 97 then { s with penFg := paintIndexed (n - 90 + 8) }
  else if 40 ≤ n && n ≤ 47 then { s with penBg := paintIndexed (n - 40) }
  else if 100 ≤ n && n ≤ 107 then { s with penBg := paintIndexed (n - 100 + 8) }
  else if n = 39 then { s with penFg := .default }
  else if n = 49 then { s with penBg := .default }
  else s

def clampByte (n : UInt16) : UInt8 := (min n 255).toUInt8

/-- The parameter loop. After 38 or 48 a colour takes its own parameters; a
truncated colour still consumes the selector. -/
def sgrLoop (s : Screen) : List UInt16 → Screen
  | [] => s
  | n :: rest =>
    if n = 38 || n = 48 then
      match rest with
      | [] => s
      | [kind] => if kind = 5 || kind = 2 then s else s.sgrLoop [kind]
      | kind :: r :: tail =>
        if kind = 5 then (s.setPen (n = 38) (paintIndexed r)).sgrLoop tail
        else if kind = 2 then
          match tail with
          | g :: b :: rest =>
            (s.setPen (n = 38) (.rgb (clampByte r) (clampByte g) (clampByte b))).sgrLoop rest
          | short => s.sgrLoop (r :: short)
        else s.sgrLoop (kind :: r :: tail)
    else (s.sgrOne n).sgrLoop rest
  termination_by params => params.length

def applySgr (s : Screen) (params : List UInt16) : Screen :=
  s.sgrLoop (if params.isEmpty then [0] else params)

-- ---------------------------------------------------------------------------
-- Actions
-- ---------------------------------------------------------------------------

def csiDispatch (s : Screen) (params : List UInt16) (action : Char) : Screen :=
  let n := csiN params 0 1
  match action with
  | 'A' => s.setCursor (satSub16 s.cursorRow n) s.cursorCol
  | 'B' => s.setCursor (satAdd16 s.cursorRow n) s.cursorCol
  | 'C' => s.setCursor s.cursorRow (satAdd16 s.cursorCol n)
  | 'D' => s.setCursor s.cursorRow (satSub16 s.cursorCol n)
  | 'E' => s.setCursor (satAdd16 s.cursorRow n) 0
  | 'F' => s.setCursor (satSub16 s.cursorRow n) 0
  | 'G' => s.setCursor s.cursorRow (satSub16 n 1)
  | 'H' | 'f' => s.setCursor (satSub16 n 1) (satSub16 (csiN params 1 1) 1)
  | 'd' => s.setCursor (satSub16 n 1) s.cursorCol
  | 'J' => s.eraseDisplay (csiN params 0 0)
  | 'K' => s.eraseLine (csiN params 0 0)
  | 'X' => s.eraseChars n
  | 'L' => s.insertLines n
  | 'M' => s.deleteLines n
  | '@' => s.insertCells n
  | 'P' => s.deleteCells n
  | 'r' => s.setScrollRegion params
  | 'S' => n.toNat.repeat scrollUp s
  | 'T' => n.toNat.repeat scrollDown s
  | 'm' => s.applySgr params
  | 'c' => if params.head?.getD 0 = 0 then s.replyPrimaryDa else s
  | 'n' =>
    if params.head? = some 6 then s.replyDsrCursor
    else if params.head? = some 5 then s.replyDsrStatus
    else s
  | _ => s

def print (s : Screen) (c : Char) : Screen := s.writeChar c

def execute (s : Screen) (byte : UInt8) : Screen :=
  if byte = 0x08 then
    let s := s.clearPendingWrap.setOpenCluster none
    if s.cursorCol > 0 then s.setCursorCol (s.cursorCol - 1) else s
  else if byte = 0x09 then
    let s := s.clearPendingWrap.setOpenCluster none
    -- The product is a u16: it wraps on the last tab stop of a 65535-column grid.
    let next := (s.cursorCol / 8 + 1) * 8
    s.setCursorCol (min next (satSub16 s.cols 1))
  else if between 0x0a 0x0c byte then (s.clearPendingWrap.setOpenCluster none).index
  else if byte = 0x0d then (s.clearPendingWrap.setOpenCluster none).setCursorCol 0
  else s

def csi (s : Screen) (params : List UInt16) (intermediates : List UInt8) (ignore : Bool)
    (action : Char) : Screen :=
  if ignore then s
  else if intermediates = [0x3f] && (action = 'h' || action = 'l') then
    s.privateMode params (action = 'h')
  else if intermediates = [0x3e] && action = 'c' then s.replySecondaryDa
  else if !intermediates.isEmpty then s
  else s.csiDispatch params action

/-- Intermediates are looked at for the keypad modes alone. -/
def esc (s : Screen) (intermediates : List UInt8) (byte : UInt8) : Screen :=
  if byte = 0x37 then { s with savedCursor := some s.captureCursor }
  else if byte = 0x38 then
    match s.savedCursor with
    | some c => s.restoreCursor c
    | none => s
  else if byte = 0x44 then s.clearPendingWrap.index
  else if byte = 0x45 then (s.clearPendingWrap.setCursorCol 0).index
  else if byte = 0x4d then s.clearPendingWrap.reverseIndex
  else if byte = 0x3d && intermediates.isEmpty then { s with applicationKeypad := true }
  else if byte = 0x3e && intermediates.isEmpty then { s with applicationKeypad := false }
  else s

/-- What one call on `Actions` does to the screen; `osc` is ignored. -/
def act (s : Screen) : Action → Screen
  | .print c => s.print c
  | .execute b => s.execute b
  | .csi params intermediates ignore action => s.csi params intermediates ignore action
  | .esc intermediates b => s.esc intermediates b
  | .osc _ => s

-- ---------------------------------------------------------------------------
-- Host side
-- ---------------------------------------------------------------------------

def clampCursor (cols rows : UInt16) (c : SavedCursor) : SavedCursor :=
  { c with col := min c.col (satSub16 cols 1), row := min c.row (satSub16 rows 1) }

def resize (s : Screen) (cols rows : UInt16) : Except Error Screen :=
  if cols = 0 || rows = 0 then .error (.vt "empty grid")
  else .ok { s with
    cols, rows
    cells := resizeCells s.cells s.cols s.rows cols rows
    savedGrid := s.savedGrid.map fun saved => resizeCells saved s.cols s.rows cols rows
    cursorCol := min s.cursorCol (satSub16 cols 1)
    cursorRow := min s.cursorRow (satSub16 rows 1)
    scrollTop := 0
    scrollBottom := satSub16 rows 1
    pendingWrap := false
    fullDamage := true
    savedCursor := s.savedCursor.map (clampCursor cols rows)
    altCursor := s.altCursor.map (clampCursor cols rows)
    openCluster := none }

def modeState (s : Screen) : TerminalModeState where
  applicationCursorKeys := s.applicationCursorKeys
  applicationKeypad := s.applicationKeypad
  bracketedPaste := s.bracketedPaste
  mouseX10 := s.mouseX10
  mouseButton := s.mouseButton
  mouseAny := s.mouseAny
  mouseSgr := s.mouseSgr
  focusEvents := s.focusEvents
  alternateScreen := s.inAlt
  cursorVisible := s.cursorVisible

def resolve (s : Screen) (color : Color) (fg : Bool) : Rgb :=
  match color with
  | .default => if fg then s.palette.foreground else s.palette.background
  | .indexed n => indexed n s.palette
  | .rgb r g b => ⟨r, g, b⟩

def podCell (s : Screen) (c : Cell) : PodCell where
  codepoint := c.codepoint
  fg := pack (s.resolve c.fg true)
  bg := pack (s.resolve c.bg false)
  attrs := c.attrs
  pad := 0

/-- The grid, and the screen with its damage taken. -/
def snapshot (s : Screen) : PodGrid × Screen :=
  ({ cols := s.cols
     rows := s.rows
     cursorCol := s.cursorCol
     cursorRow := s.cursorRow
     cursorVisible := s.cursorVisible
     fullDamage := s.fullDamage
     damageRow0 := s.damageRow0
     damageRow1 := s.damageRow1
     defaultFg := pack s.palette.foreground
     defaultBg := pack s.palette.background
     graphemeTruncated := s.graphemeTruncated
     repliesDropped := s.repliesDropped
     cells := s.cells.map s.podCell },
   { s with fullDamage := false, damageRow0 := 1, damageRow1 := 0 })

def setPalette (s : Screen) (palette : Palette) : Screen := { s with palette, fullDamage := true }

def takeReplies (s : Screen) : List UInt8 × Screen := (s.replies, { s with replies := [] })

def takeScrolledOff (s : Screen) : List (List PodCell) × Screen :=
  (s.scrolledOff.map fun row => row.map s.podCell, { s with scrolledOff := [] })

def setDiscardReplies (s : Screen) (discard : Bool) : Screen := { s with discardReplies := discard }

end Screen

end Rill.Vt
