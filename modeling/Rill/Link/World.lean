import Rill.Daemon.Credit
import Rill.Host.Speech

/-!
# Hosts and their daemon

The daemon with a host's client at the other end of each of its connections. What
a socket has taken from one end and the other has not read is on its way, and the
scripts of the sockets say in what pieces it comes.
-/

namespace Rill.Link

open Lib Attach Kernel Daemon

-- ---------------------------------------------------------------------------
-- The host's end
-- ---------------------------------------------------------------------------

/-- A host at its end of a connection. `fed` is what the pump under way has fed, and `inbox`
what it has decoded and not come to. The daemon has read `told` bytes of what the host's
socket has taken, the host `heard` bytes of what the daemon's has. The host has come to the
first `passed` frames of the client's log: those the pump under way has fed are `feeding`,
and `owed` those that pumps which failed had fed. -/
structure Line where
  host : Host.Client
  fed : Option Nat
  inbox : List Frame
  told : Nat
  heard : Nat
  passed : Nat
  feeding : List Queued
  owed : List Queued

namespace Line

def new (host : Host.Client) : Line where
  host := host
  fed := none
  inbox := []
  told := 0
  heard := 0
  passed := 0
  feeding := []
  owed := []

/-- Anything but a pump, which is taken step by step. -/
def call (l : Line) (call : Host.Call) : Line :=
  { l with host := ((Host.Presenter.new l.host).after call).client }

def start (l : Line) : Line :=
  match Host.Client.flushOutbox.exec l.host with
  | (.ok _, host) => { l with host, fed := some 0 }
  | (.error _, host) => { l with host }

/-- A pump fails: no credit is granted for what it has fed, and what it has not come to is
lost. -/
def fail (l : Line) : Line :=
  { l with
    fed := none
    inbox := []
    passed := l.passed + l.inbox.length
    feeding := []
    owed := l.owed ++ l.feeding }

/-- A pump ends by granting credit for what it has fed. -/
def finish (l : Line) (fed : Nat) : Line :=
  { l with host := ((Host.Client.replenish fed).exec l.host).2, fed := none, feeding := [] }

def read (l : Line) (fed : Nat) : Line :=
  match l.host.stream.reads with
  | [] => l.finish fed
  | read :: reads =>
    let l := { l with host := { l.host with stream := { l.host.stream with reads } } }
    match read with
    | .data bytes =>
      if (bytes.take Host.bufLen).isEmpty then l.finish fed
      else
        match (Host.Client.decode (bytes.take Host.bufLen)).exec l.host with
        | (.ok inbox, host) =>
          { l with host, inbox, heard := l.heard + (bytes.take Host.bufLen).length }
        | (.error _, host) => { l with host }.fail
    | .eof | .wouldBlock => l.finish fed
    | .failed => l.fail

/-- Whether the next read is a pump's last. -/
def ends (l : Line) : Bool :=
  match l.host.stream.reads.headD .wouldBlock with
  | .data bytes => (bytes.take Host.bufLen).isEmpty
  | .eof | .wouldBlock => true
  | .failed => false

/-- The next frame of a pump's inbox. `log` is what the daemon has ever sent the host. -/
def receive (l : Line) (log : List Queued) (fed : Nat) : Line :=
  match l.inbox with
  | [] => l
  | frame :: inbox =>
    let next := { l with
      inbox
      passed := l.passed + 1
      feeding := l.feeding ++ (log.drop l.passed).take 1 }
    match (Host.Client.receive fed frame).exec l.host with
    | (.ok fed, host) => { next with host, fed := some fed }
    | (.error _, host) => { next with host }.fail

end Line

-- ---------------------------------------------------------------------------
-- Both ends
-- ---------------------------------------------------------------------------

/-- `lines` are the other ends of the daemon's connections, in the order of its clients, and
`batch` what the daemon's last read decoded, for the client at `reading`, and has not been
dispatched. -/
structure World where
  daemon : Daemon
  lines : List Line
  batch : List Frame
  reading : Nat

/-- The daemon reads its connections and its leaves in any order; so does each host with its
calls, and both may be in the middle of what they do. -/
inductive Event
  | connect (down up : Stream) (surface : Host.HostSurface) (sessionId : Option UInt64)
  | call (slot : Nat) (call : Host.Call)
  | pump (slot : Nat)
  | read (slot : Nat)
  | receive (slot : Nat)
  | fetch (slot : Nat)
  | dispatch (m : Moment)
  | act (a : Act)

/-- A read brings nothing that is not on its way. -/
def brings (read : Read) (cap : Nat) (coming : List UInt8) : Bool :=
  match read with
  | .data bytes => (bytes.take cap).isPrefixOf coming
  | .eof | .wouldBlock | .failed => true

def sizeOf (read : Read) (cap : Nat) : Nat :=
  match read with
  | .data bytes => (bytes.take cap).length
  | .eof | .wouldBlock | .failed => 0

/-- What the daemon does when it reads no connection. -/
def apart : Act → Bool
  | .spawn _ | .reap .. | .drain _ | .flush | .resync _ => true
  | .accept _ | .fetch _ | .frame .. => false

namespace World

def new (d : Daemon) : World := ⟨d, [], [], 0⟩

def setLine (w : World) (slot : Nat) (l : Line) : World := { w with lines := w.lines.set slot l }

/-- The host whose connection a flush drops goes with it. -/
def after (w : World) (a : Act) (d : Daemon) : World :=
  match a with
  | .flush =>
    match w.daemon.clients.findIdx? (failing w.daemon) with
    | some slot => { w with daemon := d, lines := w.lines.eraseIdx slot }
    | none => { w with daemon := d }
  | _ => { w with daemon := d }

def lost (w : World) (d : Daemon) : Bool := d.clients.length < w.daemon.clients.length

def step (w : World) : Event → Option World
  | .connect down up surface sessionId =>
    if w.batch.isEmpty && down.sent.isEmpty && up.sent.isEmpty then
      match Host.Client.connectSession up surface sessionId with
      | .ok host =>
        some { w with daemon := w.daemon.acceptClient down, lines := w.lines ++ [.new host] }
      | .error _ => none
    else none
  | .call slot call => do
    let l ← w.lines[slot]?
    if l.fed.isNone && call ≠ .pump then some (w.setLine slot (l.call call)) else none
  | .pump slot => do
    let l ← w.lines[slot]?
    if l.fed.isNone then some (w.setLine slot l.start) else none
  | .read slot => do
    let l ← w.lines[slot]?
    let c ← w.daemon.clients[slot]?
    let fed ← l.fed
    let read := l.host.stream.reads.headD .wouldBlock
    if l.inbox.isEmpty && brings read Host.bufLen (c.stream.sent.drop l.heard) then
      some (w.setLine slot (l.read fed))
    else none
  | .receive slot => do
    let l ← w.lines[slot]?
    let c ← w.daemon.clients[slot]?
    let fed ← l.fed
    if l.inbox.isEmpty then none else some (w.setLine slot (l.receive c.log fed))
  | .fetch slot => do
    let l ← w.lines[slot]?
    let c ← w.daemon.clients[slot]?
    let read := c.stream.reads.headD .wouldBlock
    if w.batch.isEmpty && brings read socketBuf (l.host.stream.sent.drop l.told) then
      match (fetchFrames slot).exec w.daemon with
      | (.ok batch, d) =>
        let lines := if w.lost d then w.lines.eraseIdx slot
          else w.lines.set slot { l with told := l.told + sizeOf read socketBuf }
        some ⟨d, lines, batch, slot⟩
      | (.error _, _) => none
    else none
  | .dispatch m =>
    match w.batch with
    | [] => none
    | frame :: batch =>
      match (dispatchFrame m w.reading frame).exec w.daemon with
      | (.ok _, d) =>
        let lines := if w.lost d then w.lines.eraseIdx w.reading else w.lines
        some ⟨d, lines, batch, w.reading⟩
      | (.error _, _) => none
  | .act a =>
    if w.batch.isEmpty && apart a && a.enabled w.daemon then
      match a.run.exec w.daemon with
      | (.ok _, d) => some (w.after a d)
      | (.error _, _) => none
    else none

def Takes (w : World) (e : Event) (w' : World) : Prop := w.step e = some w'

-- ---------------------------------------------------------------------------
-- The window
-- ---------------------------------------------------------------------------

def grants (frames : List Frame) : Nat :=
  (frames.map fun
    | .credit n => n.toNat
    | _ => 0).sum

def framesIn (bytes : List UInt8) : List Frame :=
  match Decoder.new.push bytes with
  | .ok (frames, _) => frames
  | .error _ => []

/-- The host's frames that the daemon has not come to. -/
def coming (w : World) (slot : Nat) (l : Line) (c : Client) : List Frame :=
  (if slot = w.reading then w.batch else []) ++
    framesIn (c.decoder.buf ++ (l.host.stream.sent.drop l.told ++ l.host.outbox))

/-- The output charged to the session that no credit was granted for: what is queued, what is
in flight, and what is fed. -/
def outstanding (l : Line) (c : Client) (s : Session) : Nat :=
  (live s.outbound).length + (live (c.log.drop l.passed)).length + (live (l.owed ++ l.feeding)).length

/-- Of every client that is attached, the window is where it should be. -/
def Conserved (w : World) : Prop :=
  ∀ slot l c id s, w.lines[slot]? = some l → w.daemon.clients[slot]? = some c → c.leaf = some id →
    w.daemon.session id = some s →
      s.credit + outstanding l c s + grants (w.coming slot l c) = Host.creditWindow.toNat ∧
        outstanding l c s ≤ Host.creditWindow.toNat

def meal (qs : List Queued) : List UInt8 := qs.flatMap fun q => Host.dataIn q.frame

/-- No pump ends that has fed a repaint, none fails with output it has not come to, and no flush
fails in front of a client that it has output for. -/
def Pays (w : World) : Event → Prop
  | .read slot =>
    ∀ l ∈ w.lines[slot]?, l.ends → (meal l.feeding).length = (live l.feeding).length
  | .receive slot =>
    ∀ l ∈ w.lines[slot]?, ∀ c ∈ w.daemon.clients[slot]?, ∀ fed ∈ l.fed, ∀ frame ∈ l.inbox.head?,
      ((Host.Client.receive fed frame).exec l.host).1.isOk = false →
        live ((c.log.drop (l.passed + 1)).take (l.inbox.length - 1)) = []
  | .act .flush =>
    w.daemon.clients.Pairwise fun c c' => failing w.daemon c = true → live (owed w.daemon c') = []
  | _ => True

instance (w : World) : (e : Event) → Decidable (w.Pays e)
  | .read slot => inferInstanceAs (Decidable (∀ l ∈ w.lines[slot]?, l.ends →
      (meal l.feeding).length = (live l.feeding).length))
  | .receive slot => inferInstanceAs (Decidable (∀ l ∈ w.lines[slot]?, ∀ c ∈ w.daemon.clients[slot]?,
      ∀ fed ∈ l.fed, ∀ frame ∈ l.inbox.head?,
        ((Host.Client.receive fed frame).exec l.host).1.isOk = false →
          live ((c.log.drop (l.passed + 1)).take (l.inbox.length - 1)) = []))
  | .act .flush => inferInstanceAs (Decidable (w.daemon.clients.Pairwise fun c c' =>
      failing w.daemon c = true → live (owed w.daemon c') = []))
  | .connect .. | .call .. | .pump _ | .fetch _ | .dispatch _ | .act (.accept _) | .act (.spawn _)
  | .act (.fetch _) | .act (.frame ..) | .act (.reap ..) | .act (.drain _) | .act (.resync _) =>
    instDecidableTrue

end World

-- ---------------------------------------------------------------------------
-- Following events
-- ---------------------------------------------------------------------------

namespace World

variable (G : World → Event → Prop) [∀ w e, Decidable (G w e)]

def follow : World → List Event → Option World
  | w, [] => some w
  | w, e :: events => do
    let w' ← w.step e
    if G w e then follow w' events else none

theorem follow_runs {w w' : World} {events : List Event} (h : follow G w events = some w') :
    Runs Takes G w w' := by
  induction events generalizing w with
  | nil =>
    obtain rfl := Option.some.inj h
    exact .refl
  | cons e events ih =>
    obtain ⟨w₁, hstep, h⟩ := Option.bind_eq_some_iff.mp h
    split at h
    case isFalse => cases h
    case isTrue hmeets => exact .head ⟨e, hmeets, hstep⟩ (ih h)

/-- A world that is found by following events. -/
theorem exists_followed (turns : List Turn) (size : Winsize) (events : List Event) {p : World → Bool}
    (h : ((Daemon.bind (.spawn size turns) size false).toOption.bind fun d =>
      follow G (.new d) events).any p = true) :
    ∃ d₀ w, Daemon.bind (.spawn size turns) size false = .ok d₀ ∧ Runs Takes G (.new d₀) w ∧
      p w = true := by
  cases hbind : Daemon.bind (.spawn size turns) size false with
  | error e =>
    rw [hbind] at h
    cases h
  | ok d₀ =>
    rw [hbind] at h
    obtain ⟨w, hfollow, hp⟩ := (Option.any_eq_true _ _).mp h
    exact ⟨d₀, w, rfl, follow_runs G hfollow, hp⟩

end World

end Rill.Link
