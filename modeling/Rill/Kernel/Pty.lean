import Mathlib.Algebra.GroupWithZero.Nat
import Rill.Lib.Op

/-!
# The PTY

The kernel's end of a pseudo-terminal, with the child behind it and the system
between. What they do is a script: each call takes one `Turn` of it, in which
the child first runs on and the system then answers. An empty script is a quiet
child and a system that never fails.
-/

namespace Rill.Kernel

open Lib

inductive Error
  | pty (what : String)
  | spawn
  | io
  | dead
  | unknownSession
  | incompatibleCheckpoint
  | checkpointEvicted
  | noCheckpoint
  deriving DecidableEq, Repr

structure Winsize where
  cols : UInt16
  rows : UInt16
  pxW : UInt16
  pxH : UInt16
  deriving DecidableEq, Repr

inductive Fault
  | timeout
  | io
  deriving DecidableEq, Repr

/-- What happens around one call: the child writes `output` and may exit, then
the call fails, or moves at most `limit` bytes. -/
structure Turn where
  output : List UInt8
  exit : Option Int32
  fault : Option Fault
  limit : Option Nat
  deriving DecidableEq, Repr

def Turn.quiet : Turn := ⟨[], none, none, none⟩

def Turn.capped (t : Turn) (n : Nat) : Nat :=
  match t.limit with
  | some limit => min limit n
  | none => n

/-- `taken` is what was read so far, so the child's whole output is
`taken ++ unread`; nothing reads it. -/
structure Pty where
  turns : List Turn
  unread : List UInt8
  taken : List UInt8
  input : List UInt8
  winsize : Winsize
  exited : Option Int32
  reaped : Option Int32
  master : Bool
  deriving DecidableEq, Repr

namespace Pty

def backlog (p : Pty) : Nat := p.unread.length + (p.turns.map fun t => t.output.length).sum

def spawn (size : Winsize) (turns : List Turn) : Pty where
  turns := turns
  unread := []
  taken := []
  input := []
  winsize := size
  exited := none
  reaped := none
  master := true

/-- A child that has exited writes no more. -/
def runChild (p : Pty) (t : Turn) : Pty :=
  match p.exited with
  | some _ => p
  | none => { p with unread := p.unread ++ t.output, exited := t.exit }

/-- The turn of the next call, and the PTY after the child's part of it. -/
def turn (p : Pty) : Turn × Pty :=
  let t := p.turns.headD .quiet
  (t, { p with turns := p.turns.tail }.runChild t)

def takeTurn : Op Pty Error Turn := do
  let (t, p) := (← get).turn
  set p
  pure t

/-- The wait status, once the child has exited. -/
def tryWait : Op Pty Error (Option Int32) := do
  let p ← get
  if p.reaped.isSome then pure p.reaped
  else
    let t ← takeTurn
    if t.fault.isSome then throw .io
    let status := (← get).exited
    modify fun p => { p with reaped := status }
    pure status

/-- All of `bytes`, or an error after some prefix of them. -/
def writeAll (bytes : List UInt8) : Op Pty Error Unit := do
  let p ← get
  if bytes.isEmpty || !p.master then pure ()
  else
    let t ← takeTurn
    match t.fault with
    | none => modify fun p => { p with input := p.input ++ bytes }
    | some fault =>
      modify fun p => { p with input := p.input ++ bytes.take (t.capped bytes.length) }
      throw (match fault with | .timeout => .pty "write timeout" | .io => .io)

/-- At most `n` bytes of what the child wrote; none when there is nothing to read. -/
def read (n : Nat) : Op Pty Error (List UInt8) := do
  let p ← get
  if !p.master then pure []
  else
    let t ← takeTurn
    if t.fault.isSome then throw .io
    let got := (← get).unread.take (t.capped n)
    modify fun p => { p with
      unread := p.unread.drop got.length
      taken := p.taken ++ got }
    pure got

def setWinsize (size : Winsize) : Op Pty Error Unit := do
  let p ← get
  if !p.master then throw (.pty "TIOCSWINSZ")
  else
    let t ← takeTurn
    if t.fault.isSome then throw (.pty "TIOCSWINSZ")
    modify fun p => { p with winsize := size }

/-- Kills the child and closes the master; the wait for the child is bounded. -/
def terminate : Op Pty Error Unit := do
  let p ← get
  if p.reaped.isSome then pure ()
  else
    let t ← takeTurn
    modify fun p => { p with master := false, unread := [], exited := p.exited <|> some 9 }
    match t.fault with
    | none => modify fun p => { p with reaped := p.exited }
    | some .timeout => throw (.pty "terminate wait timed out")
    | some .io => throw .io

end Pty

end Rill.Kernel
