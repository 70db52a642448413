import Rill.Attach.Wire
import Rill.Daemon.Client
import Rill.Host.Viewport

/-!
# The host's client

The attach client of the GUI: what its socket brings is fed to an engine of its
own, and what the presenter asks of the engine goes through a cache.
-/

namespace Rill.Host

open Lib Attach Vt
open Daemon (Stream Read)
open Kernel (u64Max)

inductive Error
  | io
  | attach (e : Attach.Error)
  | chip (e : Vt.Error)
  | dead
  | refused
  deriving DecidableEq, Repr

structure ThemeColors where
  background : UInt32
  foreground : UInt32
  cursor : UInt32
  ansi : Option (Fin 16 → UInt32)

structure HostSurface where
  cols : UInt16
  rows : UInt16
  colors : Option ThemeColors

def u32ToRgb (v : UInt32) : Rgb where
  r := ((v >>> 24) &&& 0xff).toUInt8
  g := ((v >>> 16) &&& 0xff).toUInt8
  b := ((v >>> 8) &&& 0xff).toUInt8

def paletteFromTheme (colors : ThemeColors) : Palette where
  ansi :=
    match colors.ansi with
    | some ansi => fun i => u32ToRgb (ansi i)
    | none => Palette.vtDefault.ansi
  foreground := u32ToRgb colors.foreground
  background := u32ToRgb colors.background
  cursor := u32ToRgb colors.cursor

def creditWindow : UInt32 := 256 * 1024

/-- The buffer of a pump, and so the most that one read brings. -/
def bufLen : Nat := 65536

structure Client where
  stream : Stream
  decoder : Decoder
  chip : VtEngine
  surface : HostSurface
  alive : Bool
  exitStatus : Option Int32
  outbox : List UInt8
  outstandingCredit : Nat
  warmPathViolations : UInt32
  auditing : Bool
  cached : Option PodGrid
  liveCached : Option PodGrid
  historyRows : List (List PodCell)
  scrollOffset : UInt32
  viewportJumped : Bool
  modes : TerminalModeState
  bytesSent : Nat

namespace Client

-- ---------------------------------------------------------------------------
-- Sending
-- ---------------------------------------------------------------------------

def flushOutbox : Op Client Error Unit := do
  let c ← get
  let (ok, writes, outbox, sent) := Daemon.Client.writeLoop c.stream.writes c.outbox c.stream.sent
  modify fun c => { c with stream := { c.stream with writes, sent }, outbox }
  if !ok then throw .io

def violate (c : Client) : Client :=
  if c.auditing then { c with warmPathViolations := c.warmPathViolations + 1 } else c

def send (frame : Frame) : Op Client Error Unit := do
  modify fun c => if frame.isWarmPath then c else c.violate
  let bytes ← Op.mapError .attach (Op.lift frame.encode)
  modify fun c => { c with outbox := c.outbox ++ bytes }
  flushOutbox

def grantCredit (n : UInt32) : Op Client Error Unit := do
  modify fun c => { c with outstandingCredit := min (c.outstandingCredit + n.toNat) u64Max }
  send (.credit n)

-- ---------------------------------------------------------------------------
-- The viewport
-- ---------------------------------------------------------------------------

def dropViews (c : Client) : Client := { c with cached := none, liveCached := none }

def jump (c : Client) (offset : UInt32) : Client :=
  { c.dropViews with scrollOffset := offset, viewportJumped := true }

def followLive (c : Client) : Client := c.jump (followLiveAfterInput c.scrollOffset)

def scrollLines (c : Client) (delta : Int32) : Client :=
  let next := max 0 (min (c.scrollOffset.toNat + delta.toInt) c.historyRows.length)
  c.jump (UInt32.ofNat next.toNat)

def sendInput (bytes : List UInt8) : Op Client Error Unit := do
  let c ← get
  if !c.alive then throw .dead
  modify followLive
  modify fun c => { c with bytesSent := min (c.bytesSent + bytes.length) u64Max }
  send (.data bytes)

def resize (cols rows pxW pxH : UInt16) : Op Client Error Unit := do
  modify fun c => c.jump c.scrollOffset
  let c ← get
  let chip ← Op.mapError .chip (Op.lift (c.chip.resize cols rows))
  modify fun c => { c with chip }
  send (.resize cols rows pxW pxH)

-- ---------------------------------------------------------------------------
-- Receiving
-- ---------------------------------------------------------------------------

def ingest (c : Client) : Client :=
  let (rows, chip) := c.chip.takeScrolledOff
  { c with chip, historyRows := ingestScrolled c.historyRows rows }

def feed (c : Client) (bytes : List UInt8) : Client :=
  let c := { c with chip := c.chip.feed bytes }.ingest
  { c with scrollOffset := clampOffset c.historyRows.length c.surface.rows c.scrollOffset }

/-- What the engine owes the program goes back to it. -/
def reply : Op Client Error Unit := do
  let replies ← Op.of fun c =>
    let (replies, chip) := c.chip.takeReplies
    (.ok replies, { c with chip })
  if replies.isEmpty then pure () else send (.data replies)

/-- One frame of a pump that has fed `fed` bytes. -/
def receive (fed : Nat) : Frame → Op Client Error Nat
  | .data bytes => do
    modify fun c => c.feed bytes
    reply
    modify fun c => { c with modes := c.chip.modeState }.dropViews
    pure (fed + bytes.length)
  | .exit status => do
    modify fun c => { c with alive := false, exitStatus := some status }.violate
    pure fed
  | .refused _ => do
    modify violate
    throw .refused
  | _ => do
    modify violate
    pure fed

def receiveAll : Nat → List Frame → Op Client Error Nat
  | fed, [] => pure fed
  | fed, frame :: frames => do
    let fed ← receive fed frame
    receiveAll fed frames

def decode (bytes : List UInt8) : Op Client Error (List Frame) :=
  Op.of fun c =>
    let (r, decoder) := c.decoder.pushKeeping bytes
    (r.mapError .attach, { c with decoder })

/-- The reads of a pump, each leaving those after it. -/
def readLoop : Nat → List Read → Op Client Error Nat
  | fed, [] => pure fed
  | fed, read :: reads => do
    modify fun c => { c with stream := { c.stream with reads } }
    match read with
    | .data bytes =>
      if (bytes.take bufLen).isEmpty then pure fed
      else do
        let frames ← decode (bytes.take bufLen)
        let fed ← receiveAll fed frames
        readLoop fed reads
    | .eof => pure fed
    | .wouldBlock => pure fed
    | .failed => throw .io

def replenish (fed : Nat) : Op Client Error Unit :=
  if fed > 0 then grantCredit (UInt32.ofNat (min fed 4294967295)) else pure ()

def pump : Op Client Error Nat := do
  flushOutbox
  let c ← get
  let fed ← readLoop 0 c.stream.reads
  replenish fed
  pure fed

-- ---------------------------------------------------------------------------
-- What the presenter asks
-- ---------------------------------------------------------------------------

def ensureSnapshots (c : Client) : Client :=
  if c.cached.isSome && c.liveCached.isSome then c
  else
    let c := c.ingest
    let (live, chip) := c.chip.snapshot
    let view := composeViewport c.historyRows live c.scrollOffset
    let view := markFullIfViewportJumped view c.viewportJumped
    { c with chip, viewportJumped := false, liveCached := some live, cached := some view }

def snapshot (c : Client) : Except Vt.Error PodGrid × Client :=
  let c := c.ensureSnapshots
  (match c.cached with
    | some grid => .ok grid
    | none => .error (.vt "snapshot cache"), c)

def cellCodepoint (c : Client) (col row : UInt16) : UInt32 × Client :=
  let (grid, c) := c.snapshot
  ((grid.toOption.bind fun g => (g.cell col row).map PodCell.codepoint).getD 0, c)

def cursorCell (c : Client) : Except Vt.Error (UInt16 × UInt16) × Client :=
  let (grid, c) := c.snapshot
  (grid.map fun g => (g.cursorCol, g.cursorRow), c)

def liveCodepoint (c : Client) (col row : UInt16) : UInt32 × Client :=
  let c := c.ensureSnapshots
  ((c.liveCached.bind fun g => (g.cell col row).map PodCell.codepoint).getD 0, c)

-- ---------------------------------------------------------------------------
-- Connecting
-- ---------------------------------------------------------------------------

def new (stream : Stream) (surface : HostSurface) (chip : VtEngine) : Client where
  stream := stream
  decoder := .new
  chip := chip
  surface := surface
  alive := true
  exitStatus := none
  outbox := []
  outstandingCredit := 0
  warmPathViolations := 0
  auditing := false
  cached := none
  liveCached := none
  historyRows := []
  scrollOffset := 0
  viewportJumped := true
  modes := ⟨false, false, false, false, false, false, false, false, false, false⟩
  bytesSent := 0

def themed (chip : VtEngine) : Option ThemeColors → VtEngine
  | some colors => chip.setPalette (paletteFromTheme colors)
  | none => chip

def greet (sessionId : Option UInt64) : Op Client Error Unit := do
  send (Frame.attachWriter 1 sessionId)
  grantCredit creditWindow

/-- A client on a socket that is connected. -/
def connectSession (stream : Stream) (surface : HostSurface) (sessionId : Option UInt64) :
    Except Error Client := do
  let chip ← (VtEngine.new surface.cols surface.rows).mapError .chip
  match (greet sessionId).exec (new stream surface (themed chip surface.colors)) with
  | (.ok _, c) => pure c
  | (.error e, _) => throw e

end Client

end Rill.Host
