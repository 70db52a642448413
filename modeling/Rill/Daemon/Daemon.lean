import Rill.Daemon.Client

/-!
# The daemon

The clients of one kernel: what their frames do, where the output of the leaves
goes, and how the queues are flushed. A client is known by its place in the
list, as in the source.
-/

namespace Rill

open Lib Attach Kernel Vt

structure Daemon where
  kernel : Kernel
  defaultId : SessionId
  clients : List Daemon.Client
  chip : VtEngine
  isWorker : Bool
  size : Winsize

abbrev DaemonM := Op Daemon Daemon.Error

namespace Daemon

/-- The first leaf is spawned by the daemon itself. -/
def bind (pty : Pty) (size : Winsize) (isWorker : Bool) : Except Error Daemon :=
  let (defaultId, kernel) := Kernel.new.spawnLeaf (.spawn pty false size)
  match VtEngine.new size.cols size.rows with
  | .ok chip => .ok { kernel, defaultId, clients := [], chip, isWorker, size }
  | .error e => .error (.vt e)

def session (d : Daemon) (id : SessionId) : Option Session := d.kernel.session id

def setKernel (d : Daemon) (kernel : Kernel) : Daemon := { d with kernel }

def setSession (d : Daemon) (id : SessionId) (s : Session) : Daemon :=
  d.setKernel (d.kernel.setSession id s)

def setClients (d : Daemon) (clients : List Client) : Daemon := { d with clients }

def setChip (d : Daemon) (chip : VtEngine) : Daemon := { d with chip }

def modifyClient (d : Daemon) (idx : Nat) (f : Client → Client) : Daemon :=
  d.setClients (d.clients.modify idx f)

def leafOf (d : Daemon) (idx : Nat) : Option SessionId := d.clients[idx]?.bind Client.leaf

def observes (d : Daemon) (idx : Nat) : Bool := d.clients[idx]?.any Client.observe

def attached (d : Daemon) (id : SessionId) : Bool := d.kernel.attached id

def taken (d : Daemon) (id : SessionId) : Nat :=
  ((d.session id).map fun s => s.pty.taken.length).getD 0

/-- `None` names the default leaf; an unknown id names none. -/
def resolveAttach (d : Daemon) : Option UInt64 → Option SessionId
  | none => some d.defaultId
  | some raw => if (d.session ⟨raw⟩).isSome then some ⟨raw⟩ else none

-- ---------------------------------------------------------------------------
-- Clients come and go
-- ---------------------------------------------------------------------------

def acceptClient (d : Daemon) (stream : Stream) : Daemon :=
  d.setClients (d.clients ++ [.new stream])

/-- What a client's end does to the session it was on. -/
def releaseRole (observe : Bool) (s : Session) : Session :=
  if observe then s.releaseObserver else s.detach

def dropClient (d : Daemon) (idx : Nat) : Daemon :=
  match d.clients[idx]? with
  | none => d
  | some c =>
    let kernel := match c.leaf with
      | none => d.kernel
      | some id =>
        match d.session id with
        | none => d.kernel
        | some s => d.kernel.setSession id (releaseRole c.observe s)
    (d.setKernel kernel).setClients (d.clients.eraseIdx idx)

-- ---------------------------------------------------------------------------
-- Inbound frames
-- ---------------------------------------------------------------------------

def onKernel (m : Op Kernel Kernel.Error α) : DaemonM α :=
  Op.mapError .kernel (Op.on Daemon.kernel (fun k d => d.setKernel k) m)

def onClient (idx : Nat) (m : Op Client Attach.Error Unit) : DaemonM Unit := do
  match (← get).clients[idx]? with
  | none => pure ()
  | some c =>
    modify fun d => d.modifyClient idx fun _ => (m.exec c).2
    Op.mapError .attach (Op.lift (m.exec c).1)

def sendTo (idx : Nat) (q : Queued) : DaemonM Unit := onClient idx (Client.send q)

def refuse (idx : Nat) (reason : RefuseReason) : DaemonM Unit :=
  sendTo idx ⟨.refused reason, .control⟩

/-- The kernel's answer to a frame, a dead child's aside. -/
def onFrame (m : Moment) (id : SessionId) (frame : Frame) : DaemonM Unit := do
  match ← Op.attempt (onKernel (Kernel.onFrame m id frame)) with
  | .ok () => pure ()
  | .error (.kernel .dead) => pure ()
  | .error e => throw e

def encodePodGrid (grid : PodGrid) : List UInt8 :=
  putU16 grid.cols ++ putU16 grid.rows ++ putU16 grid.cursorCol ++ putU16 grid.cursorRow ++
    [if grid.cursorVisible then 1 else 0] ++
    grid.cells.flatMap fun cell =>
      putU32 cell.codepoint ++ putU32 cell.fg ++ putU32 cell.bg ++ putU16 cell.attrs ++
        putU16 cell.pad

def podHash (grid : PodGrid) : UInt64 :=
  grid.cells.foldl (fun h cell => h * 16777619 + cell.codepoint.toUInt64) 0

/-- The chip, cleared and fed a history. -/
def chipFrom (chip : VtEngine) (history : List UInt8) : Except Vt.Error VtEngine := do
  let chip ← chip.reset
  pure (if history.isEmpty then chip else chip.feed history)

def setChipOr (r : Except Vt.Error VtEngine) : DaemonM Unit :=
  match r with
  | .ok chip => modify fun d => d.setChip chip
  | .error e => throw (.vt e)

def emitCheckpoint (idx : Nat) (id : SessionId) : DaemonM Unit := do
  match (← get).session id with
  | none => pure ()
  | some s =>
    setChipOr (chipFrom (← get).chip s.history)
    let (grid, chip) := (← get).chip.snapshot
    modify fun d => d.setChip chip
    sendTo idx ⟨.checkpoint (UInt64.ofNat s.bytesDelivered) (podHash grid) (encodePodGrid grid),
      .repaint s.pty.taken.length⟩

def sendHistory (idx : Nat) (id : SessionId) : DaemonM Unit := do
  match (← get).session id with
  | none => pure ()
  | some s =>
    if s.history.isEmpty then pure ()
    else sendTo idx ⟨.data s.history, .repaint s.pty.taken.length⟩

/-- An ATTACH that the daemon itself did not refuse. -/
def acceptAttach (m : Moment) (idx : Nat) (id : SessionId) (generation : UInt64)
    (sessionId : Option UInt64) (protocol : UInt8) (observe : Bool) : DaemonM Unit := do
  onFrame m id (.attach generation sessionId protocol observe)
  if observe || (← get).attached id then
    modify fun d => d.modifyClient idx fun c => c.attachTo id observe protocol (d.taken id)
    if protocol = protocol2 then emitCheckpoint idx id
    else if observe then sendHistory idx id
    else pure ()
  else pure ()

def dispatchAttach (m : Moment) (idx : Nat) (generation : UInt64) (sessionId : Option UInt64)
    (protocol : UInt8) (observe : Bool) : DaemonM Unit := do
  let d ← get
  if !Frame.protocolSupported protocol then refuse idx .protocolMismatch
  else
    match d.resolveAttach sessionId with
    | none => refuse idx .invalid
    | some id =>
      let mine := d.leafOf idx = some id
      if d.attached id && !mine && !observe then refuse idx .alreadyAttached
      else acceptAttach m idx id generation sessionId protocol observe

/-- A frame of an attached client, but for what an observer may not send. -/
def dispatchOwn (m : Moment) (idx : Nat) (id : SessionId) (frame : Frame) : DaemonM Unit := do
  match frame with
  | .credit n => modify fun d => d.modifyClient idx fun c => c.addCredit n
  | _ => pure ()
  onFrame m id frame

/-- DATA and RESIZE, which an observer's connection may not apply. -/
def isInput : Frame → Bool
  | .data _ | .resize .. => true
  | _ => false

def dispatchFrame (m : Moment) (idx : Nat) (frame : Frame) : DaemonM Unit :=
  match frame with
  | .attach generation sessionId protocol observe =>
    dispatchAttach m idx generation sessionId protocol observe
  | other => do
    let d ← get
    match d.leafOf idx with
    | none => modify fun d => d.dropClient idx
    | some id => if d.observes idx && isInput other then pure () else dispatchOwn m idx id other

def dispatchFrames (idx : Nat) (batch : List (Moment × Frame)) : DaemonM Unit :=
  batch.forM fun (m, frame) => dispatchFrame m idx frame

def socketBuf : Nat := 8192

/-- One read of a connection, decoded; the connection's end is dealt with here. -/
def fetchFrames (idx : Nat) : DaemonM (List Frame) := do
  match (← get).clients[idx]? with
  | none => pure []
  | some c =>
    match c.read socketBuf with
    | (.wouldBlock, c) =>
      modify fun d => d.modifyClient idx fun _ => c
      pure []
    | (.eof, _) | (.failed, _) =>
      modify fun d => d.dropClient idx
      pure []
    | (.data bytes, c) =>
      match c.decoder.push bytes with
      | .error _ =>
        modify fun d => d.dropClient idx
        pure []
      | .ok (frames, decoder) =>
        modify fun d => d.modifyClient idx fun _ => { c with decoder }
        pure frames

/-- `clock n` is the time at which the batch's frame `n` is dispatched. -/
def readClient (clock : Nat → Moment) (idx : Nat) : DaemonM Unit := do
  let frames ← fetchFrames idx
  dispatchFrames idx (frames.mapIdx fun n frame => (clock n, frame))

end Daemon

end Rill
