import Rill.Lib.Gated
import Rill.Vt.Bounds

/-!
# Checked words

The screen as a build with overflow checks runs it: nothing is given back where
a sum, difference, product or cast is not the exact number. The sums that
saturate to keep a coordinate (the cell after a glyph, the cursor of a report)
are held to the same; the counts of cursor motion may saturate. What has no such
operation is the screen's own.
-/

namespace Rill.Vt

open Lib
open Screen (paintIndexed clampByte)

namespace Checked

-- ---------------------------------------------------------------------------
-- Words
-- ---------------------------------------------------------------------------

def cast16 (n : Nat) : Option UInt16 := if n < 65536 then some (UInt16.ofNat n) else none

def add16 (a b : UInt16) : Option UInt16 := cast16 (a.toNat + b.toNat)

def sub16 (a b : UInt16) : Option UInt16 := if b ≤ a then some (a - b) else none

def mul16 (a b : UInt16) : Option UInt16 := cast16 (a.toNat * b.toNat)

-- ---------------------------------------------------------------------------
-- Scrolling and printing
-- ---------------------------------------------------------------------------

def index (s : Screen) : Option Screen :=
  if s.cursorRow < s.scrollBottom then do pure { s with cursorRow := ← add16 s.cursorRow 1 }
  else some s.scrollUp

def reverseIndex (s : Screen) : Option Screen :=
  if s.cursorRow > s.scrollTop then do pure { s with cursorRow := ← sub16 s.cursorRow 1 }
  else some s.scrollDown

def setScrollRegion (s : Screen) (params : List UInt16) : Option Screen :=
  let top := csiN params 0 1
  let bot := csiN params 1 s.rows
  if top < 1 || bot > s.rows || top ≥ bot then some s
  else do
    let scrollTop ← sub16 top 1
    let scrollBottom ← sub16 bot 1
    pure ({ s with scrollTop, scrollBottom }.setCursor 0 0)

def wrapIfNeededWidth (s : Screen) (width : UInt16) : Option Screen :=
  if !(s.pendingWrap || s.remainingCols < width) then some s
  else if !s.autowrap then some s.clearPendingWrap
  else index (s.clearPendingWrap.setCursorCol 0)

/-- The column after a lead is worked out where there is a lead, and only there. -/
def smashNext (s : Screen) (lead : Bool) (col row : UInt16) : Option Screen :=
  if lead then do
    let next ← add16 col 1
    pure (s.smashHalf (next < s.cols) (s.idx next row) attrWideTail)
  else some s

def smashPrev (s : Screen) (tail : Bool) (col row : UInt16) : Option Screen :=
  if tail then do pure (s.smashHalf true (s.idx (← sub16 col 1) row) attrWideLead) else some s

def smashWideAt (s : Screen) (col row : UInt16) : Option Screen :=
  if col ≥ s.cols || row ≥ s.rows then some s
  else do
    let attrs := (s.cellAt (s.idx col row)).attrs
    let s ← smashNext (s.touch (s.idx col row)) (attrs &&& attrWideLead ≠ 0) col row
    smashPrev s (attrs &&& attrWideTail ≠ 0 && col > 0) col row

def advanceAfterWidth (s : Screen) (width : UInt16) : Option Screen := do
  let next ← add16 s.cursorCol width
  pure (if next < s.cols then { s with cursorCol := next, pendingWrap := false }
    else { s with cursorCol := s.lastCol, pendingWrap := s.autowrap })

def widenCluster (s : Screen) (cl : OpenCluster) (tailCol : UInt16) : Option Screen := do
  let s ← smashWideAt s tailCol cl.row
  let lead := s.cellAt (s.idx cl.col cl.row)
  let s := s.setCell (s.idx cl.col cl.row)
    { lead with attrs := (lead.attrs &&& sgrMask) ||| attrWideLead }
  let s := s.setCell (s.idx tailCol cl.row)
    { lead with attrs := (lead.attrs &&& sgrMask) ||| attrWideTail }
  pure ((s.setOpenCluster (some { cl with width := 2 })).dirty cl.row)

def maybeExpandRiPair (s : Screen) : Option Screen :=
  match s.openCluster with
  | none => some s
  | some cl =>
    if cl.width ≥ 2 then some s
    else do
      let tailCol ← add16 cl.col 1
      if tailCol ≥ s.cols || cl.row ≠ s.cursorRow then pure s
      else do
        let s ← widenCluster s cl tailCol
        if s.cursorCol ≤ tailCol && s.cursorRow = cl.row then
          advanceAfterWidth (s.setCursorCol tailCol) 1
        else pure s

def paintGlyph (s : Screen) (c : Char) (col row width : UInt16) : Option Screen := do
  let sgr := s.penAttrs &&& sgrMask
  let s ← smashWideAt s col row
  let s ← if width = 2 then do smashWideAt s (← add16 col 1) row else pure s
  let s := s.setCell (s.idx col row)
    ⟨c.val, s.penFg, s.penBg, sgr ||| (if width = 2 then attrWideLead else 0)⟩
  if width = 2 then do
    let next ← add16 col 1
    pure (s.setCell (s.idx next row) ⟨c.val, s.penFg, s.penBg, sgr ||| attrWideTail⟩)
  else pure s

def placeGlyph (s : Screen) (c : Char) (width : UInt16) : Option Screen := do
  let row := s.cursorRow
  let col := s.cursorCol
  let cluster : OpenCluster := {
    row, col
    len := 1
    afterZwj := c = zeroWidthJoiner
    lastWasRi := isRegionalIndicator c
    width := width.toUInt8 }
  let s := (← paintGlyph s c col row width).setOpenCluster (some cluster)
  advanceAfterWidth (s.dirty row) width

def printBase (s : Screen) (c : Char) : Option Screen := do
  let width := Screen.clusterWidth c
  let s ← wrapIfNeededWidth s width
  if s.cols < width || s.remainingCols < width then pure s else placeGlyph s c width

def writeChar (s : Screen) (c : Char) : Option Screen :=
  match (if s.shouldAppend c then s.appendToCluster c else none) with
  | some s => if isRegionalIndicator c then maybeExpandRiPair s else some s
  | none => printBase s c

-- ---------------------------------------------------------------------------
-- Erasing and editing
-- ---------------------------------------------------------------------------

def smashSpan (s : Screen) (lo hi : Nat) : Option Screen :=
  let cols := max s.cols.toNat 1
  (List.range' lo (hi - lo)).foldlM
    (fun s i => do smashWideAt s (← cast16 (i % cols)) (← cast16 (i / cols))) s

def eraseSpan (s : Screen) (start stop : Nat) : Option Screen := do
  let hi := min stop s.cells.length
  let lo := min start hi
  let cols := max s.cols.toNat 1
  let s := (← smashSpan s lo hi).blankCells lo hi
  if lo < hi then do
    let first ← cast16 (lo / cols)
    let last ← cast16 ((hi - 1) / cols)
    pure (s.dirtyRows first.toNat last.toNat)
  else pure s

def eraseDisplay (s : Screen) (mode : UInt16) : Option Screen :=
  let cur := s.idx s.cursorCol s.cursorRow
  if mode = 0 then eraseSpan s cur s.cells.length
  else if mode = 1 then eraseSpan s 0 (cur + 1)
  else do pure (← eraseSpan s 0 s.cells.length).damageAll

def eraseLine (s : Screen) (mode : UInt16) : Option Screen :=
  let rowStart := s.idx 0 s.cursorRow
  let rowEnd := rowStart + s.cols.toNat
  let cur := s.idx s.cursorCol s.cursorRow
  if mode = 0 then eraseSpan s cur rowEnd
  else if mode = 1 then eraseSpan s rowStart (cur + 1)
  else eraseSpan s rowStart rowEnd

def eraseChars (s : Screen) (n : UInt16) : Option Screen :=
  let n := min n (satSub16 s.cols s.cursorCol)
  let start := s.idx s.cursorCol s.cursorRow
  eraseSpan s start (start + n.toNat)

/-- The room IL and DL count their lines by; what they move is indexed by `usize`. -/
def lineRoom (s : Screen) : Option UInt16 :=
  if s.cursorRow < s.scrollTop || s.cursorRow > s.scrollBottom then some 0
  else add16 (satSub16 s.scrollBottom s.cursorRow) 1

def insertLines (s : Screen) (n : UInt16) : Option Screen := do
  let _ ← lineRoom s
  pure (s.insertLines n)

def deleteLines (s : Screen) (n : UInt16) : Option Screen := do
  let _ ← lineRoom s
  pure (s.deleteLines n)

def deleteCells (s : Screen) (n : UInt16) : Option Screen :=
  let n := min n (satSub16 s.cols s.cursorCol)
  if n.toNat = 0 then some s
  else do
    let cols := s.cols.toNat
    let col := s.cursorCol.toNat
    let row := s.cursorRow
    let rowStart := s.idx 0 row
    let stop ← add16 s.cursorCol n
    let s ← (List.range' col (stop.toNat - col)).foldlM
      (fun s c => do smashWideAt s (← cast16 c) row) s
    let s := if col + n.toNat < cols then
        s.copyWithin (rowStart + col + n.toNat) (rowStart + cols) (rowStart + col)
      else s
    pure ((s.blankCells (rowStart + cols - n.toNat) (rowStart + cols)).dirty row)

-- ---------------------------------------------------------------------------
-- Replies and SGR
-- ---------------------------------------------------------------------------

def replyDsrCursor (s : Screen) : Option Screen := do
  let row ← add16 s.cursorRow 1
  let col ← add16 s.cursorCol 1
  pure (s.enqueueReply ([0x1b, 0x5b] ++ writeU16 row ++ [0x3b] ++ writeU16 col ++ [0x52]))

def sgrOne (s : Screen) (n : UInt16) : Option Screen :=
  if 30 ≤ n && n ≤ 37 then do pure { s with penFg := paintIndexed (← sub16 n 30) }
  else if 90 ≤ n && n ≤ 97 then do
    pure { s with penFg := paintIndexed (← add16 (← sub16 n 90) 8) }
  else if 40 ≤ n && n ≤ 47 then do pure { s with penBg := paintIndexed (← sub16 n 40) }
  else if 100 ≤ n && n ≤ 107 then do
    pure { s with penBg := paintIndexed (← add16 (← sub16 n 100) 8) }
  else some (s.sgrOne n)

def sgrLoop (s : Screen) : List UInt16 → Option Screen
  | [] => some s
  | n :: rest =>
    if n = 38 || n = 48 then
      match rest with
      | [] => some s
      | [kind] => if kind = 5 || kind = 2 then some s else sgrLoop s [kind]
      | kind :: r :: tail =>
        if kind = 5 then sgrLoop (s.setPen (n = 38) (paintIndexed r)) tail
        else if kind = 2 then
          match tail with
          | g :: b :: rest =>
            sgrLoop (s.setPen (n = 38) (.rgb (clampByte r) (clampByte g) (clampByte b))) rest
          | short => sgrLoop s (r :: short)
        else sgrLoop s (kind :: r :: tail)
    else do sgrLoop (← sgrOne s n) rest
  termination_by params => params.length

def applySgr (s : Screen) (params : List UInt16) : Option Screen :=
  sgrLoop s (if params.isEmpty then [0] else params)

-- ---------------------------------------------------------------------------
-- Actions
-- ---------------------------------------------------------------------------

def csiDispatch (s : Screen) (params : List UInt16) (action : Char) : Option Screen :=
  let n := csiN params 0 1
  match action with
  | 'J' => eraseDisplay s (csiN params 0 0)
  | 'K' => eraseLine s (csiN params 0 0)
  | 'X' => eraseChars s n
  | 'L' => insertLines s n
  | 'M' => deleteLines s n
  | 'P' => deleteCells s n
  | 'r' => setScrollRegion s params
  | 'm' => applySgr s params
  | 'n' => if params.head? = some 6 then replyDsrCursor s else some (s.csiDispatch params 'n')
  | action => some (s.csiDispatch params action)

def execute (s : Screen) (byte : UInt8) : Option Screen :=
  if byte = 0x08 then
    let s := s.clearPendingWrap.setOpenCluster none
    if s.cursorCol > 0 then do pure (s.setCursorCol (← sub16 s.cursorCol 1)) else some s
  else if byte = 0x09 then do
    let s := s.clearPendingWrap.setOpenCluster none
    let next ← mul16 (← add16 (s.cursorCol / 8) 1) 8
    pure (s.setCursorCol (min next (satSub16 s.cols 1)))
  else if between 0x0a 0x0c byte then index (s.clearPendingWrap.setOpenCluster none)
  else some (s.execute byte)

def csi (s : Screen) (params : List UInt16) (intermediates : List UInt8) (ignore : Bool)
    (action : Char) : Option Screen :=
  if ignore || !intermediates.isEmpty then some (s.csi params intermediates ignore action)
  else csiDispatch s params action

def esc (s : Screen) (intermediates : List UInt8) (byte : UInt8) : Option Screen :=
  if byte = 0x44 then index s.clearPendingWrap
  else if byte = 0x45 then index (s.clearPendingWrap.setCursorCol 0)
  else if byte = 0x4d then reverseIndex s.clearPendingWrap
  else some (s.esc intermediates byte)

def act (s : Screen) : Action → Option Screen
  | .print c => writeChar s c
  | .execute b => execute s b
  | .csi params intermediates ignore action => csi s params intermediates ignore action
  | .esc intermediates b => esc s intermediates b
  | .osc _ => some s

def feed (e : VtEngine) (bytes : List UInt8) : Option VtEngine :=
  let (parser, acts) := e.parser.feed bytes
  do pure { parser, screen := ← acts.foldlM act e.screen }

-- ---------------------------------------------------------------------------
-- Repaint
-- ---------------------------------------------------------------------------

def emitColor (fg : Bool) (color : Color) : Option (List UInt8) :=
  match color with
  | .indexed n =>
    if n < 8 then do
      let code ← add16 (if fg then 30 else 40) n.toUInt16
      pure ([0x1b, 0x5b] ++ writeU16 code ++ [0x6d])
    else if n < 16 then do
      let code ← add16 (if fg then 90 else 100) (← sub16 n.toUInt16 8)
      pure ([0x1b, 0x5b] ++ writeU16 code ++ [0x6d])
    else some (Vt.emitColor fg color)
  | color => some (Vt.emitColor fg color)

def emitCell (pen : Pen) (cell : Cell) : Option (List UInt8 × Pen) :=
  let glyph := if cell.attrs &&& attrWideTail ≠ 0 then [] else pushCodepoint cell.codepoint
  let next : Pen := ⟨cell.fg, cell.bg, cell.attrs &&& sgrMask⟩
  if next ≠ pen then do
    let fg ← emitColor true cell.fg
    let bg ← emitColor false cell.bg
    pure (sgrReset ++ emitAttrs cell.attrs ++ fg ++ bg ++ glyph, next)
  else some (glyph, pen)

def emitCells (pen : Pen) : List Cell → Option (List UInt8 × Pen)
  | [] => some ([], pen)
  | cell :: cells => do
    let (bytes, pen) ← emitCell pen cell
    let (rest, pen) ← emitCells pen cells
    pure (bytes ++ rest, pen)

/-- One past the last cell of row `r` that is not blank. -/
def inkEnd (s : Screen) (r : Nat) : Option UInt16 :=
  (List.range s.cols.toNat).foldlM
    (fun last c =>
      if cellIsBlank (s.cellAt (r * s.cols.toNat + c)) then some last else do add16 (← cast16 c) 1)
    0

def repaintRows (s : Screen) (pen : Pen) : List Nat → Option (List UInt8)
  | [] => some []
  | r :: rows => do
    let last ← inkEnd s r
    let (bytes, pen) ← emitCells pen ((s.cells.drop (r * s.cols.toNat)).take last.toNat)
    if (← add16 (← cast16 r) 1) < s.rows then do
      pure (bytes ++ [0x0d, 0x0a] ++ sgrReset ++ (← repaintRows s .reset rows))
    else do pure (bytes ++ (← repaintRows s pen rows))

def repaintBytes (s : Screen) : Option (List UInt8) := do
  let rows ← repaintRows s .reset (List.range s.rows.toNat)
  let row ← add16 s.cursorRow 1
  let col ← add16 s.cursorCol 1
  pure ((if s.inAlt then [0x1b, 0x5b, 0x3f, 0x31, 0x30, 0x34, 0x39, 0x68] else []) ++
    sgrReset ++ rows ++ [0x1b, 0x5b] ++ writeU16 row ++ [0x3b] ++ writeU16 col ++ [0x48] ++
    (if s.cursorVisible then [] else [0x1b, 0x5b, 0x3f, 0x32, 0x35, 0x6c]))

end Checked

end Rill.Vt
