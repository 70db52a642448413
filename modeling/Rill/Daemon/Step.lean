import Rill.Daemon.Daemon

/-!
# One step of the daemon

Reap, poll, flush, resync. What the system answers during the poll is a `Poll`.
-/

namespace Rill.Daemon

open Lib Attach Kernel Vt

/-- What a poll finds and what each call it leads to answers. `order` is the
order of a walk over the leaves, which the kernel's map leaves open. -/
structure Poll where
  order : List SessionId → List SessionId
  perm : ∀ ids, (order ids).Perm ids
  failed : Bool
  accept : Except Unit (Option Stream)
  coldFailed : Bool
  tabs : List (Except Kernel.Error (List Turn))
  ready : Nat → Bool
  readable : SessionId → Bool
  reapAt : SessionId → Moment
  frameAt : Nat → Nat → Moment

/-- A poll that finds nothing, at time 0. -/
def Poll.quiet : Poll where
  order ids := ids
  perm ids := .refl ids
  failed := false
  accept := .ok none
  coldFailed := false
  tabs := []
  ready _ := false
  readable _ := false
  reapAt _ := ⟨0, 3600⟩
  frameAt _ _ := ⟨0, 3600⟩

def onLeaf (id : SessionId) (missing : α) (m : Op Session Kernel.Error α) : DaemonM α := do
  match (← get).session id with
  | none => pure missing
  | some _ => onKernel (Kernel.onSession id m)

-- ---------------------------------------------------------------------------
-- Output of the leaves
-- ---------------------------------------------------------------------------

def eachClient (m : Op Client Attach.Error Unit) : DaemonM Unit := do
  let (r, clients) := Op.each m (← get).clients
  modify fun d => d.setClients clients
  Op.lift (r.mapError fun (_, e) => .attach e)

def fanoutPtyBytes (id : SessionId) (offset start : Nat) (bytes : List UInt8) : DaemonM Unit :=
  eachClient (Client.fanout id offset start bytes)

def bytesDelivered (d : Daemon) (id : SessionId) : Nat :=
  ((d.session id).map Session.bytesDelivered).getD 0

def hasProtocol2 (d : Daemon) (id : SessionId) : Bool :=
  d.clients.any fun c => c.leaf = some id && c.protocol = protocol2

/-- A read for the ring and straight to the clients' outboxes. -/
def drainToClients (id : SessionId) : DaemonM Bool := do
  let cap := protocol1WriterCredit (← get).clients id
  if cap = some 0 then
    onLeaf id () (modify Session.noteStalledRead)
    pure false
  else
    match ← onLeaf id none (Session.drainPtyAtMost cap) with
    | none => pure false
    | some bytes =>
      let d ← get
      fanoutPtyBytes id (bytesDelivered d id) (taken d id - bytes.length) bytes
      pure true

/-- A read for the ring and the session's own queue, while it has credit. -/
def drainToQueue (id : SessionId) : DaemonM Bool := do
  let n ← onLeaf id 0 do
    if (← get).credit > 0 then Session.onPtyReadable else pure 0
  pure (n > 0)

/-- One turn of the drain loop; whether there is another. -/
def drainOnce (id : SessionId) : DaemonM Bool := do
  let d ← get
  if hasProtocol2 d id || d.isWorker then drainToClients id else drainToQueue id

def drainLoop : Nat → SessionId → DaemonM Unit
  | 0, _ => pure ()
  | turns + 1, id => do if ← drainOnce id then drainLoop turns id

/-- Every turn but the last reads something, so the backlog bounds their number. -/
def drainLeaf (id : SessionId) : DaemonM Unit := do
  match (← get).session id with
  | none => pure ()
  | some s => drainLoop (s.pty.backlog + 1) id

-- ---------------------------------------------------------------------------
-- Poll
-- ---------------------------------------------------------------------------

/-- NEW_TAB on the navigation socket. -/
def spawnTabLeaf (spawned : Except Kernel.Error (List Turn)) : DaemonM Unit := do
  let turns ← Op.mapError .kernel (Op.lift spawned)
  modify fun d => d.setKernel (d.kernel.spawnLeaf (.spawn (.spawn d.size turns) false d.size)).2

def acceptOne (accept : Except Unit (Option Stream)) : DaemonM Unit :=
  match accept with
  | .error () => throw .io
  | .ok none => pure ()
  | .ok (some stream) => modify fun d => d.acceptClient stream

def childAlive (d : Daemon) (id : SessionId) : Bool := (d.session id).any Session.childAlive

/-- Clients are read before leaves. A client is known by its place, so the
clients behind one that is dropped are taken for their neighbours. -/
def pollIo (p : Poll) : DaemonM Unit := do
  let d ← get
  let readable := (p.order d.kernel.ids).filter fun id => childAlive d id && p.readable id
  if p.failed then throw (.kernel .io)
  acceptOne p.accept
  if p.coldFailed then throw .io
  p.tabs.forM spawnTabLeaf
  (List.range d.clients.length).forM fun idx =>
    if p.ready idx then readClient (p.frameAt idx) idx else pure ()
  readable.forM drainLeaf

-- ---------------------------------------------------------------------------
-- Flush and resync
-- ---------------------------------------------------------------------------

def queued (d : Daemon) (leaf : Option SessionId) : List Queued :=
  ((leaf.bind d.session).map Session.outbound).getD []

/-- The write that fails ends the walk, and its client is dropped. -/
def flushOutbound : DaemonM Unit := do
  let d ← get
  modify fun d => d.setKernel (d.kernel.takeOutbound (d.clients.filterMap Client.leaf))
  let (r, clients) := Op.each (do Client.serve (queued d (← get).leaf)) d.clients
  modify fun d => d.setClients clients
  match r with
  | .ok () => pure ()
  | .error (idx, .write) => modify fun d => d.dropClient idx
  | .error (_, .encode e) => throw (.attach e)

/-- The repaint goes on the session's queue. -/
def resyncLeaf (id : SessionId) : DaemonM Unit := do
  match ← onLeaf id none (do
      let (history, s) := (← get).takeResyncHistory
      set s
      pure history) with
  | none => pure ()
  | some history =>
    let d ← get
    if hasProtocol2 d id then pure ()
    else
      match d.chip.resyncFromHistory history with
      | .error e => throw (.vt e)
      | .ok (bytes, chip) =>
        modify fun d => d.setChip chip
        if bytes.isEmpty then pure ()
        else onLeaf id () (modify fun s => s.enqueueOutbound ⟨.data bytes, .repaint (taken d id)⟩)

def maybeResync (p : Poll) : DaemonM Unit := do
  (p.order (← get).kernel.ids).forM resyncLeaf

def reapAll (p : Poll) : DaemonM Unit := do
  (p.order (← get).kernel.ids).forM fun id => onKernel (Kernel.reap (p.reapAt id) id)

def step (p : Poll) : DaemonM Unit := do
  reapAll p
  pollIo p
  flushOutbound
  maybeResync p

def run (polls : List Poll) : DaemonM Unit := polls.forM step

/-- The daemon that `polls` lead to from its start, while no step fails. -/
def after (turns : List Turn) (size : Winsize) (isWorker : Bool) (polls : List Poll) :
    Except Error Daemon := do
  let d ← Daemon.bind (.spawn size turns) size isWorker
  match (run polls).exec d with
  | (.ok (), d) => pure d
  | (.error e, _) => throw e

end Rill.Daemon
