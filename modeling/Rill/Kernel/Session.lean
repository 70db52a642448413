import Rill.Attach.Frame
import Rill.Kernel.Pty
import Rill.Kernel.Ring

/-!
# Sessions

One leaf: its PTY, byte history, credit, attach claim and input lease. Queued
frames remember where they came from, and the PTY what was read from it; the
session itself looks at neither.
-/

namespace Rill.Kernel

open Lib Attach

inductive IoEvent
  | ptyWrite (n : Nat)
  | ptyRead (n : Nat)
  | winsize (size : Winsize)
  | childExit (status : Int32)
  deriving DecidableEq, Repr

inductive InputDelivery
  | pending
  | dispatched
  | unknown
  deriving DecidableEq, Repr

/-- Where a frame comes from: output of the child from stream offset `start` on,
the repaint of the history up to `upTo`, or the session's own control frames. -/
inductive Origin
  | live (start : Nat)
  | repaint (upTo : Nat)
  | control
  deriving DecidableEq, Repr

structure Queued where
  frame : Frame
  origin : Origin
  deriving DecidableEq, Repr

/-- One reading of the clock, and how long an input lease lasts. -/
structure Moment where
  now : Nat
  leaseGrace : Nat
  deriving DecidableEq, Repr

def ringCap : Nat := 4 * 1024 * 1024

def readBuf : Nat := 64 * 1024

def journalCap : Nat := 4096

def u32Max : Nat := 4294967295

/-- An opaque checkpoint of the screen, and the stream offset it was taken at. -/
structure StoredCheckpoint where
  formatVersion : UInt16
  endingOffset : UInt64
  hash : UInt64
  blob : List UInt8
  deriving DecidableEq, Repr

structure Session where
  pty : Pty
  ephemeral : Bool
  ring : ByteRing
  attachGeneration : Option UInt64
  credit : Nat
  outbound : List Queued
  pendingInput : List (List UInt8)
  childExit : Option Int32
  exitDelivered : Bool
  resyncPending : Bool
  resyncCount : Nat
  stalledReads : Nat
  bytesDelivered : Nat
  journal : List (Nat × IoEvent)
  seq : Nat
  size : Winsize
  lastDelivery : InputDelivery
  observers : Nat
  terminated : Bool
  checkpoint : Option StoredCheckpoint
  leaseGeneration : Nat
  leaseNonce : UInt64
  leaseUntil : Option Nat
  deriving DecidableEq, Repr

namespace Session

def spawn (pty : Pty) (ephemeral : Bool) (size : Winsize) : Session where
  pty := pty
  ephemeral := ephemeral
  ring := .new ringCap
  attachGeneration := none
  credit := 0
  outbound := []
  pendingInput := []
  childExit := none
  exitDelivered := false
  resyncPending := false
  resyncCount := 0
  stalledReads := 0
  bytesDelivered := 0
  journal := []
  seq := 0
  size := size
  lastDelivery := .unknown
  observers := 0
  terminated := false
  checkpoint := none
  leaseGeneration := 0
  leaseNonce := 0
  leaseUntil := none

def attached (s : Session) : Bool := s.attachGeneration.isSome

def childAlive (s : Session) : Bool := s.childExit.isNone

def history (s : Session) : List UInt8 := s.ring.snapshot

def hasListeners (s : Session) : Bool := s.attached || s.observers > 0

def record (s : Session) (event : IoEvent) : Session :=
  let journal := if s.journal.length = journalCap then s.journal.tail else s.journal
  { s with seq := s.seq + 1, journal := journal ++ [(s.seq + 1, event)] }

def enqueueOutbound (s : Session) (q : Queued) : Session := { s with outbound := s.outbound ++ [q] }

def releaseObserver (s : Session) : Session := { s with observers := s.observers - 1 }

def noteStalledRead (s : Session) : Session :=
  { s with stalledReads := min (s.stalledReads + 1) u64Max }

def onPty (m : Op Pty Error α) : Op Session Error α := Op.on pty (fun pty s => { s with pty }) m

/-- The history to repaint from, once after each writer's ATTACH. -/
def takeResyncHistory (s : Session) : Option (List UInt8) × Session :=
  (if s.resyncPending then some s.history else none,
    { s with
      resyncPending := false
      resyncCount := if s.resyncPending then min (s.resyncCount + 1) u32Max else s.resyncCount })

-- ---------------------------------------------------------------------------
-- Lifecycle
-- ---------------------------------------------------------------------------

/-- The exit is queued only if someone listens. -/
def observeExit (s : Session) (status : Int32) : Session :=
  { s.record (.childExit status) with
    childExit := some status
    outbound := if s.hasListeners then s.outbound ++ [⟨.exit status, .control⟩] else s.outbound
    exitDelivered := s.exitDelivered || s.hasListeners }

/-- Whether the child is seen to have exited by this call. -/
def pollChild : Op Session Error Bool := do
  let s ← get
  if s.childExit.isSome then pure false
  else
    match ← onPty Pty.tryWait with
    | some status =>
      modify fun s => s.observeExit status
      pure true
    | none => pure false

/-- The writer's end: queued DATA goes, control frames stay. -/
def release (s : Session) : Session :=
  { s with
    attachGeneration := none
    credit := 0
    lastDelivery := if s.pendingInput.isEmpty then s.lastDelivery else .unknown
    pendingInput := []
    outbound := s.outbound.filter fun q => !q.frame.isData }

def detach (s : Session) : Session :=
  { s.release with pty := if s.ephemeral then (Pty.terminate.exec s.pty).2 else s.pty }

/-- Kills the child, once. -/
def terminate : Op Session Error Unit := do
  if (← get).terminated then pure ()
  else
    modify fun s => { s with terminated := true }
    onPty Pty.terminate

-- ---------------------------------------------------------------------------
-- Input lease
-- ---------------------------------------------------------------------------

def takeInputLease (s : Session) (m : Moment) (nonce : UInt64) : Session :=
  { s with
    leaseGeneration := min (s.leaseGeneration + 1) u64Max
    leaseNonce := nonce
    leaseUntil := some (m.now + m.leaseGrace) }

def leaseDue (s : Session) (m : Moment) : Bool := s.leaseUntil.any fun t => t ≤ m.now

def expireInputLeaseIfDue (s : Session) (m : Moment) : Session :=
  { s with
    leaseNonce := if s.leaseDue m then 0 else s.leaseNonce
    leaseUntil := if s.leaseDue m then none else s.leaseUntil }

/-- Asked after expiry. -/
def leaseBlocksInput (s : Session) : Bool := s.leaseGeneration > 0 && s.leaseNonce = 0

-- ---------------------------------------------------------------------------
-- Frames
-- ---------------------------------------------------------------------------

def flushLoop : List (List UInt8) → Op Session Error Unit
  | [] => pure ()
  | buf :: rest => do
    modify fun s => { s with pendingInput := rest }
    onPty (Pty.writeAll buf)
    modify fun s => { s.record (.ptyWrite buf.length) with lastDelivery := .dispatched }
    flushLoop rest

/-- Input is taken off the queue before it is written. -/
def flushInput : Op Session Error Unit := do
  flushLoop (← get).pendingInput

/-- The EXIT a new writer is told of a child that is already dead. -/
def replay (s : Session) : List Queued := s.childExit.toList.map fun status => ⟨.exit status, .control⟩

def claim (s : Session) (m : Moment) (generation : UInt64) : Session :=
  { s.takeInputLease m generation with
    attachGeneration := some generation
    resyncPending := true
    outbound := s.outbound ++ s.replay
    exitDelivered := s.exitDelivered || s.childExit.isSome }

/-- An ATTACH on the session alone: an observer is counted, the first writer
gets the claim, and a second one is refused on the shared queue. -/
def attach (s : Session) (m : Moment) (generation : UInt64) (observe : Bool) : Session :=
  if observe then { s with observers := min (s.observers + 1) u32Max }
  else if s.attached then s.enqueueOutbound ⟨.refused .alreadyAttached, .control⟩
  else s.claim m generation

def addCredit (s : Session) (n : UInt32) : Session :=
  { s with credit := min (s.credit + n.toNat) u64Max }

def applyResize (m : Moment) (size : Winsize) : Op Session Error Unit := do
  modify fun s => s.expireInputLeaseIfDue m
  if (← get).leaseBlocksInput then pure ()
  else
    flushInput
    modify fun s => { s with size }
    onPty (Pty.setWinsize size)
    modify fun s => s.record (.winsize size)

def applyData (m : Moment) (bytes : List UInt8) : Op Session Error Unit := do
  if (← get).childExit.isSome then throw .dead
  modify fun s => s.expireInputLeaseIfDue m
  if (← get).leaseBlocksInput then pure ()
  else
    modify fun s => { s with
      lastDelivery := .pending
      pendingInput := s.pendingInput ++ [bytes] }
    flushInput

def onFrame (m : Moment) (frame : Frame) : Op Session Error Unit :=
  match frame with
  | .attach generation _ _ observe => modify fun s => s.attach m generation observe
  | .credit n => modify fun s => s.addCredit n
  | .resize cols rows pxW pxH => applyResize m ⟨cols, rows, pxW, pxH⟩
  | .data bytes => applyData m bytes
  | .exit _ | .refused _ | .checkpoint .. | .delta .. | .resyncRequest => pure ()

-- ---------------------------------------------------------------------------
-- Output
-- ---------------------------------------------------------------------------

/-- Bytes just read go into the history. -/
def deliver (s : Session) (got : List UInt8) : Session :=
  { s with
    ring := s.ring.append got
    bytesDelivered := min (s.bytesDelivered + got.length) u64Max }.record (.ptyRead got.length)

/-- The bytes use up credit, and are queued if someone listens. -/
def deliverQueued (s : Session) (start : Nat) (got : List UInt8) : Session :=
  { s.deliver got with
    credit := s.credit - got.length
    outbound := if s.hasListeners then s.outbound ++ [⟨.data got, .live start⟩] else s.outbound }

def drainPtyAtMost (max : Option Nat) : Op Session Error (Option (List UInt8)) := do
  if (← get).childExit.isSome then return none
  let cap := min (max.getD readBuf) readBuf
  if cap = 0 then
    modify noteStalledRead
    return none
  let got ← onPty (Pty.read cap)
  if got.isEmpty then return none
  modify fun s => s.deliver got
  return some got

/-- Reads only while credit remains; how many bytes were read. -/
def onPtyReadable : Op Session Error Nat := do
  let s ← get
  if s.credit = 0 then
    modify noteStalledRead
    return 0
  let got ← onPty (Pty.read (min s.credit readBuf))
  if got.isEmpty then return 0
  modify fun t => t.deliverQueued s.pty.taken.length got
  return got.length

def reap (m : Moment) : Op Session Error Bool := do
  modify fun s => s.expireInputLeaseIfDue m
  pollChild

end Session

end Rill.Kernel
