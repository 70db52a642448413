import Rill.Lib.Bytes
import Rill.Vt.Screen

/-!
# Checkpoint format

A header of magic, version, stream offset and hash, then the screen. Damage,
replies and the rows that scrolled off are not in the format.
-/

namespace Rill.Vt

open Lib.Bytes

def magic : List UInt8 := [0x52, 0x31, 0x43, 0x4b]

def version : UInt16 := 1

def hashOff : Nat := 14

-- ---------------------------------------------------------------------------
-- Hash
-- ---------------------------------------------------------------------------

/-- The blob with the bytes of its hash field read as zero. -/
def zeroHash (blob : List UInt8) : List UInt8 :=
  blob.mapIdx fun i b => if hashOff ≤ i ∧ i < hashOff + 8 then 0 else b

def fnv1a64 (bytes : List UInt8) : UInt64 :=
  bytes.foldl (fun h b => (h ^^^ b.toUInt64) * 0x100000001b3) 0xcbf29ce484222325

def fnv1a64WithZeroHash (blob : List UInt8) : UInt64 := fnv1a64 (zeroHash blob)

/-- `out[HASH_OFF..HASH_OFF + 8]` becomes `hash`. -/
def copyHash (out : List UInt8) (hash : UInt64) : List UInt8 :=
  out.take hashOff ++ toLe 8 hash.toNat ++ out.drop (hashOff + 8)

-- ---------------------------------------------------------------------------
-- Writers
-- ---------------------------------------------------------------------------

def putU16 (v : UInt16) : List UInt8 := toLe 2 v.toNat

def putU32 (v : UInt32) : List UInt8 := toLe 4 v.toNat

def putU64 (v : UInt64) : List UInt8 := toLe 8 v.toNat

def putBool (b : Bool) : List UInt8 := [if b then 1 else 0]

def putColor : Color → List UInt8
  | .default => [0]
  | .indexed i => [1, i]
  | .rgb r g b => [2, r, g, b]

def putRgb (rgb : Rgb) : List UInt8 := [rgb.r, rgb.g, rgb.b]

def putPalette (p : Palette) : List UInt8 :=
  (List.ofFn p.ansi).flatMap putRgb ++ putRgb p.foreground ++ putRgb p.background ++
    putRgb p.cursor

def putCell (c : Cell) : List UInt8 :=
  putU32 c.codepoint ++ putU16 c.attrs ++ putColor c.fg ++ putColor c.bg

/-- A tag byte, then the value if there is one. -/
def putOption (put : α → List UInt8) : Option α → List UInt8
  | none => [0]
  | some a => [1] ++ put a

def putSavedCursor (c : SavedCursor) : List UInt8 :=
  putU16 c.col ++ putU16 c.row ++ putBool c.pendingWrap ++ putColor c.fg ++ putColor c.bg ++
    putU16 c.attrs

def putSaved : Option SavedCursor → List UInt8 := putOption putSavedCursor

def putCluster (c : OpenCluster) : List UInt8 :=
  putU16 c.row ++ putU16 c.col ++ [c.len] ++ putBool c.afterZwj ++ putBool c.lastWasRi ++ [c.width]

def putOpenCluster : Option OpenCluster → List UInt8 := putOption putCluster

-- ---------------------------------------------------------------------------
-- Readers
-- ---------------------------------------------------------------------------

def truncated : Error := .vt "truncated checkpoint"

def takeU8 : Take Error UInt8 := Take.byte truncated

def takeU16 : Take Error UInt16 := UInt16.ofNat <$> Take.le truncated 2

def takeU32 : Take Error UInt32 := UInt32.ofNat <$> Take.le truncated 4

def takeBool : Take Error Bool := (· ≠ 0) <$> takeU8

def takeColor : Take Error Color := do
  let tag ← takeU8
  if tag = 0 then pure .default
  else if tag = 1 then .indexed <$> takeU8
  else if tag = 2 then
    let r ← takeU8
    let g ← takeU8
    let b ← takeU8
    pure (.rgb r g b)
  else throw (.vt "bad colour tag")

def takeRgb : Take Error Rgb := do
  let r ← takeU8
  let g ← takeU8
  let b ← takeU8
  pure ⟨r, g, b⟩

def takePalette : Take Error Palette := do
  let ansi ← Take.many takeRgb 16
  let foreground ← takeRgb
  let background ← takeRgb
  let cursor ← takeRgb
  pure { ansi := fun i => ansi.getD i default, foreground, background, cursor }

def takeCell : Take Error Cell := do
  let codepoint ← takeU32
  let attrs ← takeU16
  let fg ← takeColor
  let bg ← takeColor
  pure { codepoint, fg, bg, attrs }

def takeOption (badTag : Error) (take : Take Error α) : Take Error (Option α) := do
  let tag ← takeU8
  if tag = 0 then pure none
  else if tag = 1 then some <$> take
  else throw badTag

def takeSavedCursor : Take Error SavedCursor := do
  let col ← takeU16
  let row ← takeU16
  let pendingWrap ← takeBool
  let fg ← takeColor
  let bg ← takeColor
  let attrs ← takeU16
  pure { col, row, pendingWrap, fg, bg, attrs }

def takeSaved : Take Error (Option SavedCursor) :=
  takeOption (.vt "bad saved cursor tag") takeSavedCursor

def takeCluster : Take Error OpenCluster := do
  let row ← takeU16
  let col ← takeU16
  let len ← takeU8
  let afterZwj ← takeBool
  let lastWasRi ← takeBool
  let width ← takeU8
  pure { row, col, len, afterZwj, lastWasRi, width }

def takeOpenCluster : Take Error (Option OpenCluster) :=
  takeOption (.vt "bad open cluster tag") takeCluster

/-- The number of cells of a grid, which must not be empty. -/
def takeSize (cols rows : UInt16) : Take Error Nat :=
  if cols = 0 || rows = 0 then throw (.vt "empty grid") else pure (cols.toNat * rows.toNat)

-- ---------------------------------------------------------------------------
-- Flags
-- ---------------------------------------------------------------------------

/-- The word with these bits, bit 0 first. -/
def packBits (bits : List Bool) : UInt32 :=
  bits.foldr (fun bit f => (f <<< 1) ||| if bit then 1 else 0) 0

def testBit (f : UInt32) (i : Nat) : Bool := f &&& (1 <<< UInt32.ofNat i) ≠ 0

namespace Screen

/-- The flags of the format, bit 0 first. -/
def flagBits (s : Screen) : List Bool :=
  [s.pendingWrap, s.autowrap, s.cursorVisible, s.inAlt, s.applicationCursorKeys,
    s.applicationKeypad, s.bracketedPaste, s.mouseX10, s.mouseButton, s.mouseAny, s.mouseSgr,
    s.focusEvents]

def checkpointFlags (s : Screen) : UInt32 := packBits s.flagBits

def applyCheckpointFlags (s : Screen) (f : UInt32) : Screen :=
  { s with
    pendingWrap := testBit f 0
    autowrap := testBit f 1
    cursorVisible := testBit f 2
    inAlt := testBit f 3
    applicationCursorKeys := testBit f 4
    applicationKeypad := testBit f 5
    bracketedPaste := testBit f 6
    mouseX10 := testBit f 7
    mouseButton := testBit f 8
    mouseAny := testBit f 9
    mouseSgr := testBit f 10
    focusEvents := testBit f 11 }

-- ---------------------------------------------------------------------------
-- Export and import
-- ---------------------------------------------------------------------------

def payload (s : Screen) : List UInt8 :=
  putU16 s.cols ++ (putU16 s.rows ++ (putU16 s.cursorCol ++ (putU16 s.cursorRow ++
  (putU16 s.scrollTop ++ (putU16 s.scrollBottom ++ (putU16 s.penAttrs ++
  (putU32 s.checkpointFlags ++ (putColor s.penFg ++ (putColor s.penBg ++
  (putPalette s.palette ++ (putU32 s.graphemeTruncated ++ (s.cells.flatMap putCell ++
  (putOption (List.flatMap putCell) s.savedGrid ++ (putSaved s.savedCursor ++
  (putSaved s.altCursor ++ putOpenCluster s.openCluster)))))))))))))))

def exportCheckpoint (s : Screen) (endingOffset : UInt64) : List UInt8 :=
  let out := magic ++ putU16 version ++ putU64 endingOffset ++ putU64 0 ++ s.payload
  copyHash out (fnv1a64WithZeroHash out)

/-- The screen a payload describes, in place of `s`. -/
def takePayload (s : Screen) : Take Error Screen := do
  let cols ← takeU16
  let rows ← takeU16
  let n ← takeSize cols rows
  let cursorCol ← takeU16
  let cursorRow ← takeU16
  let scrollTop ← takeU16
  let scrollBottom ← takeU16
  let penAttrs ← takeU16
  let flags ← takeU32
  let penFg ← takeColor
  let penBg ← takeColor
  let palette ← takePalette
  let graphemeTruncated ← takeU32
  let cells ← Take.many takeCell n
  let savedGrid ← takeOption (.vt "bad saved grid tag") (Take.many takeCell n)
  let savedCursor ← takeSaved
  let altCursor ← takeSaved
  let openCluster ← takeOpenCluster
  pure { s.applyCheckpointFlags flags with
    cols, rows, cells
    cursorCol := min cursorCol (satSub16 cols 1)
    cursorRow := min cursorRow (satSub16 rows 1)
    scrollTop, scrollBottom, penAttrs, penFg, penBg, palette, graphemeTruncated, savedGrid
    savedCursor, altCursor, openCluster
    fullDamage := true
    damageRow0 := 0
    damageRow1 := 0
    replies := []
    discardReplies := false }

def importCheckpoint (s : Screen) (bytes : List UInt8) : Except Error (UInt64 × Screen) := do
  if bytes.length < 22 then throw (.vt "truncated checkpoint")
  if bytes.take 4 ≠ magic then throw (.vt "bad checkpoint magic")
  if ofLe ((bytes.drop 4).take 2) ≠ version.toNat then
    throw (.vt "unsupported checkpoint version")
  let endingOffset := UInt64.ofNat (ofLe ((bytes.drop 6).take 8))
  let stored := UInt64.ofNat (ofLe ((bytes.drop hashOff).take 8))
  if stored ≠ fnv1a64WithZeroHash bytes then throw (.vt "checkpoint hash mismatch")
  let (next, rest) ← s.takePayload.run (bytes.drop 22)
  if !rest.isEmpty then throw (.vt "trailing checkpoint bytes")
  pure (endingOffset, next)

end Screen

end Rill.Vt
